import TemplateDocs.Proofs.LineBreak.Header
import TemplateDocs.Proofs.Template.TagEnd

/-!
# Printed header tokens

The tokens that a header can be printed from, by the texts they may have, and printed
headers: tokens in order with gaps around them.  A printed header is cut into the tokens
it was printed from (`filter_tokens`), and the scan for the end of a tag walks over it as
over its tokens, quotes and brackets counted alike on both levels (`pass?_of_isSpaced`).
-/

namespace TemplateDocs

namespace Text

/-- The end of a text, or a gap in it. -/
def startsApart : Text → Bool
  | [] => true
  | c :: _ => isGap c

theorem takeWhile_append_apart {p : Char → Bool} (hp : ∀ c, isGap c = true → p c = false)
    {run behind : Text} (hrun : ∀ c ∈ run, p c = true) (hbehind : startsApart behind = true) :
    (run ++ behind).takeWhile p = run ∧ (run ++ behind).dropWhile p = behind := by
  rw [List.takeWhile_append_of_pos hrun, List.dropWhile_append_of_pos hrun]
  cases behind with
  | nil => simp
  | cons c rest => simp [hp c hbehind]

theorem eq_of_isGap {c : Char} (h : isGap c = true) : c = ' ' ∨ c = '\t' ∨ c = '\r' ∨ c = '\n' := by
  simpa [isGap, or_assoc] using h

end Text

namespace HeaderToken

/-- A text between quotes: no quote of the kind and no backslash but the escaping ones. -/
def isQuotable (quote : Char) : Text → Bool
  | [] => true
  | '\\' :: c :: rest => c != '\n' && isQuotable quote rest
  | c :: rest => c != quote && c != '\\' && isQuotable quote rest

def isNumeral (digits : Text) : Bool :=
  !(digits.takeWhile Char.isDigit).isEmpty &&
    match digits.dropWhile Char.isDigit with
    | [] => true
    | c :: part => c = '.' && !part.isEmpty && part.all Char.isDigit

/-- Two equals signs, or operator signs with or without an equals sign behind them. -/
def isSign (sign : Text) : Bool :=
  sign = ['=', '='] ||
    !(sign.takeWhile isOperatorSign).isEmpty &&
      (sign.dropWhile isOperatorSign = [] || sign.dropWhile isOperatorSign = ['='])

/-- Does the text of the token spell it?  Gaps and unknown texts are not printed. -/
def isSpelled : HeaderToken → Bool
  | ident [] => false
  | ident (c :: rest) => isIdentStart c && rest.all isIdentRest
  | quoted quote body => Tag.isQuote quote && isQuotable quote body
  | ellipsis | equals | comma => true
  | number digits => isNumeral digits
  | operator sign => isSign sign
  | openGroup bracket => Tag.opensGroup bracket
  | closeGroup bracket => Tag.closesGroup bracket
  | gap _ | unknown _ => false

/-- Is the text the tokens in order, with a gap between any two of them? -/
def isSpaced : List HeaderToken → Text → Bool
  | [], text => text.all Text.isGap
  | token :: tokens, text =>
      match Text.after? token.lexeme (text.dropWhile Text.isGap) with
      | some behind => Text.startsApart behind && isSpaced tokens behind
      | none => false

theorem isIdentRest_of_isGap {c : Char} (h : Text.isGap c = true) : isIdentRest c = false := by
  rcases Text.eq_of_isGap h with rfl | rfl | rfl | rfl <;> rfl

theorem isDigit_of_isGap {c : Char} (h : Text.isGap c = true) : c.isDigit = false := by
  rcases Text.eq_of_isGap h with rfl | rfl | rfl | rfl <;> rfl

theorem isOperatorSign_of_isGap {c : Char} (h : Text.isGap c = true) :
    isOperatorSign c = false := by
  rcases Text.eq_of_isGap h with rfl | rfl | rfl | rfl <;> rfl

theorem readQuoted_of_isQuotable {quote : Char} (hquote : Tag.isQuote quote = true) {body : Text}
    (h : isQuotable quote body = true) (behind : Text) :
    readQuoted quote (body ++ quote :: behind) = (body, behind, true) := by
  have hslash : '\\' ≠ quote := by
    intro hslash
    subst hslash
    cases hquote
  fun_induction isQuotable quote body with
  | case1 => exact readQuoted_close quote behind
  | case2 c rest ih =>
      rw [Bool.and_eq_true, bne_iff_ne] at h
      rw [List.cons_append, List.cons_append, readQuoted_escape hslash h.1, ih h.2]
  | case3 c rest _ ih =>
      rw [Bool.and_eq_true, Bool.and_eq_true, bne_iff_ne, bne_iff_ne] at h
      rw [List.cons_append, readQuoted_plain h.1.1 h.1.2, ih h.2]

theorem isAlpha_of_isDigit {c : Char} (h : c.isDigit = true) : c.isAlpha = false := by
  unfold Char.isDigit at h
  unfold Char.isAlpha Char.isUpper Char.isLower
  grind

theorem nextFrom_of_isDigit {c : Char} (h : c.isDigit = true) (rest : Text) :
    nextFrom c rest = nextNumber (c :: rest) := by
  have hne {d : Char} (hd : d.isDigit = false) : c ≠ d := by
    intro hc
    rw [← hc, h] at hd
    cases hd
  simp [nextFrom, isIdentStart, Tag.isQuote, isAlpha_of_isDigit h, h, @hne '_' rfl, @hne '$' rfl,
    @hne '"' rfl, @hne '\'' rfl, @hne '.' rfl, @hne '=' rfl, @hne ',' rfl]

theorem nextFrom_of_isOperatorSign {c : Char} (h : isOperatorSign c = true) (rest : Text) :
    nextFrom c rest = nextOperator (c :: rest) := by
  simp only [isOperatorSign, List.contains_iff_mem, List.mem_cons, List.not_mem_nil,
    or_false] at h
  rcases h with rfl | rfl | rfl | rfl | rfl | rfl | rfl | rfl | rfl | rfl | rfl | rfl <;> rfl

theorem exists_of_takeWhile {p : Char → Bool} {text : Text}
    (h : (text.takeWhile p).isEmpty = false) : ∃ c rest, text = c :: rest ∧ p c = true := by
  cases text with
  | nil => cases h
  | cons c rest =>
      cases hc : p c with
      | true => exact ⟨c, rest, rfl, hc⟩
      | false => simp [hc] at h

theorem nextNumber_of_isNumeral {digits : Text} (h : isNumeral digits = true) {behind : Text}
    (hbehind : Text.startsApart behind = true) :
    nextNumber (digits ++ behind) = (number digits, behind) := by
  have hgap : ∀ c, Text.isGap c = true → c.isDigit = false := fun c hc => isDigit_of_isGap hc
  have hsplit : digits.takeWhile Char.isDigit ++ digits.dropWhile Char.isDigit = digits :=
    List.takeWhile_append_dropWhile
  have hwhole : ∀ c ∈ digits.takeWhile Char.isDigit, c.isDigit = true :=
    List.all_eq_true.mp List.all_takeWhile
  rw [isNumeral, Bool.and_eq_true] at h
  generalize digits.takeWhile Char.isDigit = whole at hsplit hwhole
  rcases hdrop : digits.dropWhile Char.isDigit with _ | ⟨point, part⟩
  · rw [hdrop, List.append_nil] at hsplit
    subst hsplit
    have hread := Text.takeWhile_append_apart hgap hwhole hbehind
    rw [nextNumber, hread.1, hread.2]
    cases behind with
    | nil => rfl
    | cons c rest => rcases Text.eq_of_isGap hbehind with rfl | rfl | rfl | rfl <;> rfl
  · simp only [hdrop, Bool.and_eq_true, decide_eq_true_eq, List.all_eq_true] at h
    rcases h.2 with ⟨⟨rfl, hpart⟩, hall⟩
    cases part with
    | nil => cases hpart
    | cons d part =>
        have hd : d.isDigit = true := hall d List.mem_cons_self
        have hpart : ∀ c ∈ part, c.isDigit = true := fun c hc => hall c (List.mem_cons_of_mem d hc)
        have hread := Text.takeWhile_append_apart hgap hpart hbehind
        have htaken : (digits ++ behind).takeWhile Char.isDigit = whole := by
          rw [← hsplit, hdrop, List.append_assoc, List.takeWhile_append_of_pos hwhole]
          simp
        have hleft : (digits ++ behind).dropWhile Char.isDigit = '.' :: d :: (part ++ behind) := by
          rw [← hsplit, hdrop, List.append_assoc, List.dropWhile_append_of_pos hwhole]
          simp
        rw [nextNumber, htaken, hleft]
        simp only [hd, if_true, hread.1, hread.2]
        rw [← hsplit, hdrop]

theorem nextOperator_of_signs {signs tail : Text} (hsigns : ∀ c ∈ signs, isOperatorSign c = true)
    (htail : tail = [] ∨ tail = ['=']) {behind : Text} (hbehind : Text.startsApart behind = true) :
    nextOperator (signs ++ tail ++ behind) = (operator (signs ++ tail), behind) := by
  have hgap : ∀ c, Text.isGap c = true → isOperatorSign c = false := fun c hc =>
    isOperatorSign_of_isGap hc
  rcases htail with rfl | rfl
  · have hread := Text.takeWhile_append_apart hgap hsigns hbehind
    rw [List.append_nil, nextOperator, hread.1, hread.2]
    cases behind with
    | nil => rfl
    | cons c rest => rcases Text.eq_of_isGap hbehind with rfl | rfl | rfl | rfl <;> rfl
  · have hequals : isOperatorSign '=' = false := rfl
    rw [List.append_assoc, List.singleton_append, nextOperator, List.takeWhile_append_of_pos hsigns,
      List.dropWhile_append_of_pos hsigns]
    simp [hequals]

theorem next_of_isSign {sign : Text} (h : isSign sign = true) {behind : Text}
    (hbehind : Text.startsApart behind = true) :
    next (sign ++ behind) = (operator sign, behind) := by
  simp only [isSign, Bool.or_eq_true, Bool.and_eq_true, Bool.not_eq_true', decide_eq_true_eq] at h
  rcases h with rfl | ⟨hne, htail⟩
  · rfl
  · rcases exists_of_takeWhile hne with ⟨c, rest, rfl, hc⟩
    have hsigns : ∀ d ∈ (c :: rest).takeWhile isOperatorSign, isOperatorSign d = true :=
      List.all_eq_true.mp List.all_takeWhile
    have hread := nextOperator_of_signs hsigns htail hbehind
    rw [List.takeWhile_append_dropWhile] at hread
    exact (nextFrom_of_isOperatorSign hc (rest ++ behind)).trans hread

theorem next_of_isNumeral {digits : Text} (h : isNumeral digits = true) {behind : Text}
    (hbehind : Text.startsApart behind = true) :
    next (digits ++ behind) = (number digits, behind) := by
  have hread := nextNumber_of_isNumeral h hbehind
  rw [isNumeral, Bool.and_eq_true, Bool.not_eq_true'] at h
  rcases exists_of_takeWhile h.1 with ⟨c, rest, rfl, hc⟩
  exact (nextFrom_of_isDigit hc (rest ++ behind)).trans hread

/-- A token that a gap or the end follows is read back from its text. -/
theorem next_lexeme_append {token : HeaderToken} (h : token.isSpelled = true) {behind : Text}
    (hbehind : Text.startsApart behind = true) :
    next (token.lexeme ++ behind) = (token, behind) := by
  cases token with
  | ident name =>
      cases name with
      | nil => cases h
      | cons c rest =>
          simp only [isSpelled, Bool.and_eq_true, List.all_eq_true] at h
          have hrest :=
            Text.takeWhile_append_apart (fun c hc => isIdentRest_of_isGap hc) h.2 hbehind
          show nextFrom c (rest ++ behind) = _
          rw [nextFrom, if_pos h.1, hrest.1, hrest.2]
  | quoted quote body =>
      simp only [isSpelled, Bool.and_eq_true] at h
      have hread := readQuoted_of_isQuotable h.1 h.2 behind
      have hquote : quote = '"' ∨ quote = '\'' := by simpa [Tag.isQuote] using h.1
      have hnext : next (quote :: (body ++ quote :: behind)) =
          nextQuoted quote (body ++ quote :: behind) := by
        rcases hquote with rfl | rfl <;> rfl
      simp only [lexeme, List.cons_append, List.append_assoc, List.nil_append]
      rw [hnext, nextQuoted, hread]
  | ellipsis => rfl
  | equals =>
      cases behind with
      | nil => rfl
      | cons c rest => rcases Text.eq_of_isGap hbehind with rfl | rfl | rfl | rfl <;> rfl
  | comma => rfl
  | number digits => exact next_of_isNumeral h hbehind
  | operator sign => exact next_of_isSign h hbehind
  | openGroup bracket =>
      have hbracket : (bracket = '(' ∨ bracket = '[') ∨ bracket = '\x7b' := by
        simpa [isSpelled, Tag.opensGroup] using h
      rcases hbracket with (rfl | rfl) | rfl <;> rfl
  | closeGroup bracket =>
      have hbracket : (bracket = ')' ∨ bracket = ']') ∨ bracket = '\x7d' := by
        simpa [isSpelled, Tag.closesGroup] using h
      rcases hbracket with (rfl | rfl) | rfl <;> rfl
  | gap blanks => cases h
  | unknown text => cases h

theorem lexeme_ne_nil_of_isSpelled {token : HeaderToken} (h : token.isSpelled = true) :
    token.lexeme ≠ [] := by
  intro hnil
  have hnext : next (token.lexeme ++ []) = (token, []) := next_lexeme_append h rfl
  rw [hnil] at hnext
  cases token <;> cases hnext
  cases h

theorem filter_tokens_dropWhile (text : Text) :
    ((tokens (text.dropWhile Text.isGap)).filter fun token => !token.isGap) =
      (tokens text).filter fun token => !token.isGap := by
  cases text with
  | nil => rfl
  | cons c rest =>
      cases hc : Text.isGap c with
      | false => simp [hc]
      | true =>
          have hnext : next (c :: rest) =
              (gap (c :: rest.takeWhile Text.isGap), rest.dropWhile Text.isGap) := by
            rcases Text.eq_of_isGap hc with rfl | rfl | rfl | rfl <;> rfl
          have hcut := tiles_next.cut_of_ne_nil (List.cons_ne_nil c rest)
          rw [hnext] at hcut
          rw [tokens, tokens, hcut, List.filter_cons_of_neg (by simp [isGap]),
            List.dropWhile_cons_of_pos hc]

theorem isGap_of_isSpelled {token : HeaderToken} (h : token.isSpelled = true) :
    token.isGap = false := by
  cases token with
  | gap blanks => cases h
  | _ => rfl

theorem exists_of_isSpaced_cons {token : HeaderToken} {tokens : List HeaderToken} {text : Text}
    (h : isSpaced (token :: tokens) text = true) :
    ∃ behind, text.dropWhile Text.isGap = token.lexeme ++ behind ∧
      Text.startsApart behind = true ∧ isSpaced tokens behind = true := by
  rw [isSpaced] at h
  split at h
  · next behind hafter =>
      rw [Bool.and_eq_true] at h
      exact ⟨behind, Text.eq_append_of_after? hafter, h.1, h.2⟩
  · cases h

theorem filter_tokens {printed : List HeaderToken} (hspelled : ∀ token ∈ printed, token.isSpelled)
    {text : Text} (h : isSpaced printed text = true) :
    ((tokens text).filter fun token => !token.isGap) = printed := by
  induction printed generalizing text with
  | nil =>
      have hgap : text.dropWhile Text.isGap = [] := by
        rw [← List.append_nil text, List.dropWhile_append_of_pos (List.all_eq_true.mp h)]
        rfl
      rw [← filter_tokens_dropWhile, hgap]
      rfl
  | cons token printed ih =>
      rcases exists_of_isSpaced_cons h with ⟨behind, htext, hbehind, hrest⟩
      have htoken := hspelled token List.mem_cons_self
      have hne : token.lexeme ++ behind ≠ [] := by simp [lexeme_ne_nil_of_isSpelled htoken]
      have hcut := tiles_next.cut_of_ne_nil hne
      rw [next_lexeme_append htoken hbehind] at hcut
      rw [← filter_tokens_dropWhile, htext, tokens, hcut,
        List.filter_cons_of_pos (by simp [isGap_of_isSpelled htoken])]
      exact congrArg (token :: ·)
        (ih (fun other hother => hspelled other (List.mem_cons_of_mem token hother)) hrest)

def hidesEnd (depth : Nat) : HeaderToken → Bool
  | quoted .. => true
  | token => depth != 0 || !token.lexeme.contains '>'

def hideEnd : Nat → List HeaderToken → Bool
  | _, [] => true
  | depth, token :: tokens =>
      token.hidesEnd depth && hideEnd (Header.depthAfter depth token) tokens

theorem isQuiet_of_isNumeral {digits : Text} (h : isNumeral digits = true) {c : Char}
    (hc : c ∈ digits) : Tag.isQuiet c = true := by
  have hdigit {d : Char} (hd : d.isDigit = true) : Tag.isQuiet d = true := Tag.isQuiet_of_all rfl hd
  rw [← List.takeWhile_append_dropWhile (p := Char.isDigit) (l := digits), List.mem_append] at hc
  rw [isNumeral, Bool.and_eq_true] at h
  rcases hc with hc | hc
  · exact hdigit (List.all_eq_true.mp List.all_takeWhile c hc)
  · rcases hdrop : digits.dropWhile Char.isDigit with _ | ⟨point, part⟩
    · rw [hdrop] at hc
      cases hc
    · simp only [hdrop, Bool.and_eq_true, decide_eq_true_eq, List.all_eq_true] at h
      rw [hdrop, List.mem_cons] at hc
      rcases hc with rfl | hc
      · rw [h.2.1.1]
        rfl
      · exact hdigit (h.2.2 c hc)

theorem isQuiet_of_isSign {sign : Text} (h : isSign sign = true) {c : Char} (hc : c ∈ sign) :
    Tag.isQuiet c = true := by
  have hsign {d : Char} (hd : isOperatorSign d = true) : Tag.isQuiet d = true :=
    Tag.isQuiet_of_all rfl hd
  simp only [isSign, Bool.or_eq_true, Bool.and_eq_true, decide_eq_true_eq] at h
  rcases h with rfl | ⟨-, htail⟩
  · simp only [List.mem_cons, List.not_mem_nil, or_false, or_self] at hc
    rw [hc]
    rfl
  · rw [← List.takeWhile_append_dropWhile (p := isOperatorSign) (l := sign), List.mem_append] at hc
    rcases hc with hc | hc
    · exact hsign (List.all_eq_true.mp List.all_takeWhile c hc)
    · rcases htail with htail | htail
      · rw [htail] at hc
        cases hc
      · rw [htail, List.mem_singleton] at hc
        rw [hc]
        rfl

theorem pass?_of_isQuotable {quote : Char} {body : Text} (h : isQuotable quote body = true)
    (depth : Nat) : (Tag.Scan.quoted quote depth).pass? body = some (.quoted quote depth) := by
  fun_induction isQuotable quote body with
  | case1 => rfl
  | case2 c rest ih =>
      rw [Bool.and_eq_true] at h
      simpa [Tag.Scan.pass?, Tag.Scan.next] using ih h.2
  | case3 c rest _ ih =>
      rw [Bool.and_eq_true, Bool.and_eq_true, bne_iff_ne, bne_iff_ne] at h
      simpa [Tag.Scan.pass?, Tag.Scan.next, h.1.1, h.1.2] using ih h.2

/-- The scan for the end of a tag counts the brackets of a token as the reading of a header does. -/
theorem pass?_lexeme {token : HeaderToken} (h : token.isSpelled = true) (depth : Nat) :
    (Tag.Scan.plain depth).pass? token.lexeme =
      if token.hidesEnd depth then some (.plain (Header.depthAfter depth token)) else none := by
  cases token with
  | ident name =>
      refine Tag.Scan.pass?_of_isQuiet (fun c hc => ?_) depth
      cases name with
      | nil => cases h
      | cons first rest =>
          simp only [isSpelled, Bool.and_eq_true, List.all_eq_true] at h
          rcases List.mem_cons.mp hc with rfl | hc
          · exact Tag.isQuiet_of_all rfl h.1
          · exact Tag.isQuiet_of_all rfl (h.2 c hc)
  | quoted quote body =>
      simp only [isSpelled, Bool.and_eq_true] at h
      have hend : quote ≠ '>' := by
        intro hend
        rw [hend] at h
        cases h.1
      have hslash : quote ≠ '\\' := by
        intro hslash
        rw [hslash] at h
        cases h.1
      have hbody := pass?_of_isQuotable h.2 depth
      simp [lexeme, hidesEnd, Header.depthAfter, Tag.Scan.pass?, Tag.Scan.next, h.1, hend, hslash,
        Tag.Scan.pass?_append, hbody]
  | ellipsis => exact Tag.Scan.pass?_of_isQuiet (List.all_eq_true.mp rfl) depth
  | equals => exact Tag.Scan.pass?_of_isQuiet (List.all_eq_true.mp rfl) depth
  | comma => exact Tag.Scan.pass?_of_isQuiet (List.all_eq_true.mp rfl) depth
  | number digits => exact Tag.Scan.pass?_of_isQuiet (fun c hc => isQuiet_of_isNumeral h hc) depth
  | operator sign => exact Tag.Scan.pass?_of_isQuiet (fun c hc => isQuiet_of_isSign h hc) depth
  | openGroup bracket =>
      have hbracket : (bracket = '(' ∨ bracket = '[') ∨ bracket = '\x7b' := by
        simpa [isSpelled, Tag.opensGroup] using h
      rcases hbracket with (rfl | rfl) | rfl <;>
        simp [lexeme, hidesEnd, Header.depthAfter, Tag.Scan.pass?, Tag.Scan.next, Tag.isQuote,
          Tag.opensGroup]
  | closeGroup bracket =>
      have hbracket : (bracket = ')' ∨ bracket = ']') ∨ bracket = '\x7d' := by
        simpa [isSpelled, Tag.closesGroup] using h
      rcases hbracket with (rfl | rfl) | rfl <;>
        simp [lexeme, hidesEnd, Header.depthAfter, Tag.Scan.pass?, Tag.Scan.next, Tag.isQuote,
          Tag.opensGroup, Tag.closesGroup]
  | gap blanks => cases h
  | unknown text => cases h

theorem pass?_of_isGap {blanks : Text} (h : ∀ c ∈ blanks, Text.isGap c = true) (depth : Nat) :
    (Tag.Scan.plain depth).pass? blanks = some (.plain depth) := by
  have hend : blanks.contains '>' = false := by
    rw [← Bool.not_eq_true, List.contains_iff_mem]
    intro hmem
    cases h '>' hmem
  rw [Tag.Scan.pass?_of_isQuiet (fun c hc => Tag.isQuiet_of_all rfl (h c hc)) depth, hend]
  simp

theorem pass?_of_isSpaced {printed : List HeaderToken}
    (hspelled : ∀ token ∈ printed, token.isSpelled) {text : Text}
    (h : isSpaced printed text = true) (depth : Nat) :
    (Tag.Scan.plain depth).pass? text =
      if hideEnd depth printed then some (.plain (printed.foldl Header.depthAfter depth))
      else none := by
  induction printed generalizing text depth with
  | nil => simpa [hideEnd] using pass?_of_isGap (List.all_eq_true.mp h) depth
  | cons token printed ih =>
      rcases exists_of_isSpaced_cons h with ⟨behind, htext, hbehind, hrest⟩
      have hrest :=
        ih (fun other hother => hspelled other (List.mem_cons_of_mem token hother)) hrest
        (Header.depthAfter depth token)
      have hgap : ∀ c ∈ text.takeWhile Text.isGap, Text.isGap c = true :=
        List.all_eq_true.mp List.all_takeWhile
      rw [← List.takeWhile_append_dropWhile (p := Text.isGap) (l := text), htext,
        Tag.Scan.pass?_append, pass?_of_isGap hgap, Option.bind_some, Tag.Scan.pass?_append,
        pass?_lexeme (hspelled token List.mem_cons_self)]
      cases hhides : token.hidesEnd depth with
      | false => simp [hideEnd, hhides]
      | true => simpa [hideEnd, hhides] using hrest

end HeaderToken

end TemplateDocs

import TemplateDocs.Proofs.Header.Spelling
import TemplateDocs.Proofs.Template.QuotedSpan

/-!
# Quoted texts of a header

Two readers decide what a quoted text of a header is: the scan for the end of the tag, which
passes over quoted stretches, and the cut into tokens (`quotedSpans`).  They differ in one case.
To the scan a backslash takes any character with it; to the cut it does not take a line feed, and
a quote with an escaped break behind it starts no quoted token.  So the two agree exactly on the
headers without an escaped break (`quotedSpans_eq_iff`), and there every token is a word, a
quoted text or a filler (`kind_of_mem_tokens`).
-/

namespace TemplateDocs

namespace HeaderToken

open Tag (Scan)

/-- The tokens with their offsets; the first stands at `offset`. -/
def located : Nat → List HeaderToken → List (Nat × HeaderToken)
  | _, [] => []
  | offset, token :: rest => (offset, token) :: located (offset + token.lexeme.length) rest

def quotedSpan? : Nat × HeaderToken → Option (Nat × Nat)
  | (offset, quoted quote body) => some (offset, offset + (quoted quote body).lexeme.length)
  | _ => none

def quotedSpans (header : Text) : List (Nat × Nat) :=
  (located 0 (tokens header)).filterMap quotedSpan?

/-- Neither a quote nor a character with which a word starts. -/
def isSilent (c : Char) : Bool :=
  !Tag.isQuote c && !isIdentStart c

/-- A token that is neither a word nor a quoted text, and holds no part of one. -/
def isFiller : HeaderToken → Bool
  | ident _ | quoted _ _ => false
  | token => token.lexeme.all isSilent

theorem tokens_cons (c : Char) (rest : Text) :
    tokens (c :: rest) = (nextFrom c rest).1 :: tokens (nextFrom c rest).2 :=
  tiles_next.cut_of_ne_nil (List.cons_ne_nil c rest)

@[elab_as_elim]
theorem tokens_induction {motive : Text → Prop} (nil : motive [])
    (cons : ∀ c rest, motive (nextFrom c rest).2 → motive (c :: rest)) (header : Text) :
    motive header := by
  suffices hall : ∀ n (header : Text), header.length ≤ n → motive header from
    hall _ header (Nat.le_refl _)
  intro n
  induction n with
  | zero =>
      intro header hn
      rw [List.length_eq_zero_iff.mp (Nat.le_zero.mp hn)]
      exact nil
  | succ n ih =>
      intro header hn
      cases header with
      | nil => exact nil
      | cons c rest =>
          have hlt := tiles_next.length_lt (List.cons_ne_nil c rest)
          refine cons c rest (ih _ ?_)
          rw [next] at hlt
          omega

theorem isSilent_of_isOperatorSign {c : Char} (h : isOperatorSign c = true) :
    isSilent c = true := by
  simp only [isOperatorSign, List.contains_iff_mem, List.mem_cons, List.not_mem_nil, or_false] at h
  rcases h with rfl | rfl | rfl | rfl | rfl | rfl | rfl | rfl | rfl | rfl | rfl | rfl <;> rfl

theorem isSilent_of_isGap {c : Char} (h : Text.isGap c = true) : isSilent c = true := by
  rcases Text.eq_of_isGap h with rfl | rfl | rfl | rfl <;> rfl

theorem isSilent_of_isDigit {c : Char} (h : c.isDigit = true) : isSilent c = true := by
  have hne {d : Char} (hd : d.isDigit = false) : c ≠ d := by
    intro hc
    rw [← hc, h] at hd
    cases hd
  simp [isSilent, Tag.isQuote, isIdentStart, isAlpha_of_isDigit h, hne (d := '"') rfl,
    hne (d := '\'') rfl, hne (d := '_') rfl, hne (d := '$') rfl]

theorem all_isSilent_takeWhile {p : Char → Bool} (hp : ∀ {c}, p c = true → isSilent c = true)
    (text : Text) : (text.takeWhile p).all isSilent = true :=
  List.all_eq_true.mpr fun c hc => hp (List.all_eq_true.mp List.all_takeWhile c hc)

theorem isFiller_nextPoint (rest : Text) : (nextPoint rest).1.isFiller = true := by
  unfold nextPoint
  split <;> rfl

theorem isFiller_nextEquals (rest : Text) : (nextEquals rest).1.isFiller = true := by
  unfold nextEquals
  split <;> rfl

theorem isFiller_nextNumber (text : Text) : (nextNumber text).1.isFiller = true := by
  have hdigits := all_isSilent_takeWhile (p := Char.isDigit) isSilent_of_isDigit
  have hpoint : isSilent '.' = true := rfl
  unfold nextNumber
  split
  · next c rest _ =>
      split
      · next hdigit =>
          simp [isFiller, lexeme, List.all_append, hdigits, hpoint, isSilent_of_isDigit hdigit]
      · exact hdigits text
  · exact hdigits text

theorem isFiller_nextOperator (text : Text) : (nextOperator text).1.isFiller = true := by
  have hsigns := all_isSilent_takeWhile (p := isOperatorSign) isSilent_of_isOperatorSign
  have hequals : isSilent '=' = true := rfl
  unfold nextOperator
  split
  · simp [isFiller, lexeme, List.all_append, hsigns, hequals]
  · exact hsigns text

theorem isFiller_nextFrom {c : Char} (h : isSilent c = true) (rest : Text) :
    (nextFrom c rest).1.isFiller = true := by
  have hc := h
  simp only [isSilent, Bool.and_eq_true, Bool.not_eq_true'] at hc
  -- A quoted text that is never closed is unknown too, but it starts with a quote.
  cases starts c with
  | ident hstart heq => simp [hc.2] at hstart
  | quoted hquote heq => simp [hc.1] at hquote
  | point hpoint heq => simpa [heq] using isFiller_nextPoint rest
  | equals hequals heq => simpa [heq] using isFiller_nextEquals rest
  | number hdigit heq => simpa [heq] using isFiller_nextNumber (c :: rest)
  | operator hsign heq => simpa [heq] using isFiller_nextOperator (c :: rest)
  | gap heq => simp [heq, isFiller, lexeme, h, all_isSilent_takeWhile isSilent_of_isGap]
  | sign token htoken heq =>
      rw [heq]
      rcases htoken with ⟨rfl, rfl⟩ | rfl | rfl | rfl <;> simp [isFiller, lexeme, h]

theorem crosses_readQuoted {quote : Char} {text : Text} (h : (readQuoted quote text).2.2 = true)
    (depth : Nat) :
    Scan.Crosses (.quoted quote depth) (readQuoted quote text).1 (.quoted quote depth) := by
  fun_induction readQuoted quote text with
  | case1 => cases h
  | case2 rest => exact .nil _
  | case3 => cases h
  | case4 => cases h
  | case5 escaped rest hbreak found hquote ih =>
      refine .cons (by simp [Scan.keeps]) ?_
      have hnext : (Scan.quoted quote depth).next '\\' = .escaped quote depth := by
        simp [Scan.next]
      rw [hnext]
      exact .cons (by simp [Scan.keeps, hbreak]) (ih h)
  | case6 c rest hquote hslash found ih =>
      have hnext : (Scan.quoted quote depth).next c = .quoted quote depth := by
        simp [Scan.next, hquote, hslash]
      refine .cons (by simp [Scan.keeps, hquote]) ?_
      rw [hnext]
      exact ih h

/-- Where the scan closes a quoted text that is not closed, there is an escaped break. -/
theorem escapesBreak_of_readQuoted {quote : Char} {text : Text}
    (h : (readQuoted quote text).2.2 = false) {depth stop : Nat}
    (hstop : (Scan.quoted quote depth).pass? text = some (.plain stop)) :
    (Scan.quoted quote depth).escapesBreak text = true := by
  fun_induction readQuoted quote text with
  | case1 => cases hstop
  | case2 rest => cases h
  | case3 =>
      have htail := Scan.pass?_tail hstop
      simp [Scan.pass?, Scan.next] at htail
  | case4 rest hquote => simp [Scan.escapesBreak, Scan.next]
  | case5 escaped rest hbreak found hquote ih =>
      have htail := Scan.pass?_tail (Scan.pass?_tail hstop)
      simp only [Scan.next, if_true] at htail
      simp [Scan.escapesBreak, Scan.next, ih h htail]
  | case6 c rest hquote hslash found ih =>
      have hnext : (Scan.quoted quote depth).next c = .quoted quote depth := by
        simp [Scan.next, hquote, hslash]
      have htail := Scan.pass?_tail hstop
      rw [hnext] at htail
      simpa [Scan.escapesBreak, hnext] using ih h htail

inductive Shape (c : Char) (rest : Text) : Prop where
  /-- A word or a filler: the scan stays outside quotes. -/
  | unquoted (hkind : (∃ name, (nextFrom c rest).1 = ident name) ∨
        (nextFrom c rest).1.isFiller = true)
      (hquote : ∀ d ∈ (nextFrom c rest).1.lexeme, Tag.isQuote d = false)
  /-- A quoted text: the scan goes inside quotes and comes out behind it. -/
  | closed (hquote : Tag.isQuote c = true) (body tail : Text) (htext : rest = body ++ c :: tail)
      (heq : nextFrom c rest = (quoted c body, tail))
      (hbody : ∀ depth, Scan.Crosses (.quoted c depth) body (.quoted c depth))
  /-- A quote without an end: if the scan comes out, it has met an escaped break. -/
  | opened (hquote : Tag.isQuote c = true) (body : Text)
      (heq : (nextFrom c rest).1 = unknown (c :: body))
      (hbreak : ∀ {depth stop}, (Scan.plain depth).pass? (c :: rest) = some (.plain stop) →
        (Scan.plain depth).escapesBreak (c :: rest) = true)

theorem isSilent_of_isFiller {token : HeaderToken} (h : token.isFiller = true) {c : Char}
    (hc : c ∈ token.lexeme) : Tag.isQuote c = false ∧ isIdentStart c = false := by
  have hall : token.lexeme.all isSilent = true := by
    cases token with
    | ident name => cases h
    | quoted quote body => cases h
    | _ => exact h
  simpa [isSilent] using List.all_eq_true.mp hall c hc

theorem nextFrom_of_isQuote {c : Char} (h : Tag.isQuote c = true) (rest : Text) :
    nextFrom c rest = nextQuoted c rest := by
  have hc : c = '"' ∨ c = '\'' := by simpa [Tag.isQuote] using h
  rcases hc with rfl | rfl <;> rfl

theorem shape_of_isQuote {c : Char} (h : Tag.isQuote c = true) (rest : Text) : Shape c rest := by
  have heq := nextFrom_of_isQuote h rest
  have happend := readQuoted_append c rest
  rcases hread : readQuoted c rest with ⟨body, tail, found⟩
  rw [nextQuoted, hread] at heq
  rw [hread] at happend
  cases found with
  | true =>
      refine .closed h body tail (by simpa using happend.symm) heq fun depth => ?_
      have hclosed : (readQuoted c rest).2.2 = true := by rw [hread]
      simpa only [hread] using crosses_readQuoted hclosed depth
  | false =>
      refine .opened h body (by rw [heq]) fun {depth stop} hstop => ?_
      have hopen := Scan.next_plain_of_isQuote h depth
      have hinside := Scan.pass?_tail hstop
      rw [hopen] at hinside
      simpa [Scan.escapesBreak, hopen] using escapesBreak_of_readQuoted (by rw [hread]) hinside

theorem shape (c : Char) (rest : Text) : Shape c rest := by
  by_cases hquote : Tag.isQuote c = true
  · exact shape_of_isQuote hquote rest
  by_cases hident : isIdentStart c = true
  · have heq : nextFrom c rest =
        (ident (c :: rest.takeWhile isIdentRest), rest.dropWhile isIdentRest) := by
      rw [nextFrom, if_pos hident]
    refine .unquoted (.inl ⟨_, congrArg Prod.fst heq⟩) fun d hd => ?_
    rw [heq] at hd
    rcases List.mem_cons.mp hd with rfl | hd
    · simpa using hquote
    · have hquiet : Tag.isQuiet d = true :=
        Tag.isQuiet_of_all rfl (List.all_eq_true.mp List.all_takeWhile d hd)
      simp only [Tag.isQuiet, Bool.and_eq_true, Bool.not_eq_true'] at hquiet
      exact hquiet.1.1
  · have hfiller := isFiller_nextFrom (c := c) (by simp [isSilent, hquote, hident]) rest
    exact .unquoted (.inr hfiller) fun d hd => (isSilent_of_isFiller hfiller hd).1

theorem le_of_mem_located {offset : Nat} {tokens : List HeaderToken} {entry : Nat × HeaderToken}
    (h : entry ∈ located offset tokens) : offset ≤ entry.1 := by
  induction tokens generalizing offset with
  | nil => cases h
  | cons token tokens ih =>
      rcases List.mem_cons.mp h with rfl | h
      · exact Nat.le_refl _
      · exact Nat.le_trans (Nat.le_add_right _ _) (ih h)

theorem apart_of_mem_located {offset : Nat} {tokens : List HeaderToken}
    {entry other : Nat × HeaderToken} (hentry : entry ∈ located offset tokens)
    (hother : other ∈ located offset tokens) (hne : entry ≠ other) :
    entry.1 + entry.2.lexeme.length ≤ other.1 ∨ other.1 + other.2.lexeme.length ≤ entry.1 := by
  induction tokens generalizing offset with
  | nil => cases hentry
  | cons token tokens ih =>
      rcases List.mem_cons.mp hentry with rfl | hentry <;>
        rcases List.mem_cons.mp hother with rfl | hother
      · exact absurd rfl hne
      · exact .inl (le_of_mem_located hother)
      · exact .inr (le_of_mem_located hentry)
      · exact ih hentry hother

theorem mem_tokens_of_mem_located {offset : Nat} {tokens : List HeaderToken}
    {entry : Nat × HeaderToken} (h : entry ∈ located offset tokens) : entry.2 ∈ tokens := by
  induction tokens generalizing offset with
  | nil => cases h
  | cons token tokens ih =>
      rcases List.mem_cons.mp h with rfl | h
      · exact List.mem_cons_self
      · exact List.mem_cons_of_mem token (ih h)

theorem exists_located_of_mem {tokens : List HeaderToken} {token : HeaderToken}
    (h : token ∈ tokens) (offset : Nat) : ∃ place, (place, token) ∈ located offset tokens := by
  induction tokens generalizing offset with
  | nil => cases h
  | cons first tokens ih =>
      rcases List.mem_cons.mp h with rfl | h
      · exact ⟨offset, List.mem_cons_self⟩
      · obtain ⟨place, hplace⟩ := ih h (offset + first.lexeme.length)
        exact ⟨place, List.mem_cons_of_mem _ hplace⟩

theorem exists_mem_located {index : Nat} {tokens : List HeaderToken} {c : Char}
    (h : (tokens.flatMap lexeme)[index]? = some c) (offset : Nat) :
    ∃ entry ∈ located offset tokens, entry.1 ≤ offset + index ∧
      offset + index < entry.1 + entry.2.lexeme.length ∧ c ∈ entry.2.lexeme := by
  induction tokens generalizing offset index with
  | nil => simp at h
  | cons token tokens ih =>
      rw [List.flatMap_cons] at h
      by_cases hindex : index < token.lexeme.length
      · rw [List.getElem?_append_left hindex] at h
        exact ⟨(offset, token), List.mem_cons_self, Nat.le_add_right _ _, by simpa using hindex,
          List.mem_of_getElem? h⟩
      · rw [List.getElem?_append_right (Nat.le_of_not_lt hindex)] at h
        obtain ⟨entry, hentry, hle, hlt, hc⟩ := ih h (offset + token.lexeme.length)
        exact ⟨entry, List.mem_cons_of_mem _ hentry, by omega, by omega, hc⟩

theorem quotedSpan?_eq_some_iff {entry : Nat × HeaderToken} {span : Nat × Nat} :
    quotedSpan? entry = some span ↔ (∃ quote body, entry.2 = quoted quote body) ∧
      span = (entry.1, entry.1 + entry.2.lexeme.length) := by
  obtain ⟨offset, token⟩ := entry
  cases token with
  | quoted quote body => simp [quotedSpan?, eq_comm]
  | _ => simp [quotedSpan?]

theorem le_of_mem_quotedSpans {offset : Nat} {tokens : List HeaderToken} {span : Nat × Nat}
    (h : span ∈ (located offset tokens).filterMap quotedSpan?) : offset ≤ span.1 := by
  obtain ⟨entry, hentry, hspan⟩ := List.mem_filterMap.mp h
  rw [(quotedSpan?_eq_some_iff.mp hspan).2]
  exact le_of_mem_located hentry

theorem quotedSpan?_of_isFiller {token : HeaderToken} (h : token.isFiller = true)
    (offset : Nat) : quotedSpan? (offset, token) = none := by
  cases token with
  | quoted quote body => cases h
  | _ => rfl

/-- The scan and the cut find the same quoted texts unless a break is escaped. -/
theorem quotedSpans_eq_iff {header : Text} {depth stop : Nat}
    (h : (Scan.plain depth).pass? header = some (.plain stop)) (start offset : Nat) :
    (Scan.plain depth).quotedSpans start offset header =
        (located offset (tokens header)).filterMap quotedSpan? ↔
      (Scan.plain depth).escapesBreak header = false := by
  -- Between two tokens the scan stands outside quotes, so each token is met from `plain`.
  induction header using tokens_induction generalizing depth start offset with
  | nil => simp [tokens, located, Scan.quotedSpans, Scan.escapesBreak]
  | cons c rest ih =>
      rw [tokens_cons, located]
      cases shape c rest with
      | unquoted hkind hquote =>
          have hnone : quotedSpan? (offset, (nextFrom c rest).1) = none := by
            rcases hkind with ⟨name, hname⟩ | hfiller
            · rw [hname]
              rfl
            · exact quotedSpan?_of_isFiller hfiller offset
          obtain ⟨later, hlater⟩ := Scan.exists_crosses_of_unquoted hquote depth
          rw [← lexeme_append_nextFrom c rest] at h ⊢
          rw [hlater.quotedSpans, hlater.escapesBreak, List.filterMap_cons_none hnone]
          exact ih (hlater.pass? h) _ _
      | closed hquote body tail htext heq hbody =>
          have hsome : quotedSpan? (offset, quoted c body) =
              some (offset, offset + (body.length + 2)) := by
            simp [quotedSpan?, lexeme]
          have hlength : (quoted c body).lexeme.length = body.length + 2 := by simp [lexeme]
          rw [heq] at ih ⊢
          rw [htext] at h ⊢
          rw [Scan.quotedSpans_quoted hquote (hbody depth),
            Scan.escapesBreak_quoted hquote (hbody depth), List.filterMap_cons_some hsome,
            List.cons_inj_right, hlength]
          exact ih (Scan.pass?_of_quoted hquote (hbody depth) h) _ _
      | opened hquote body heq hbreak =>
          -- The scan closes a stretch that starts here, where no quoted token stands.
          have hnone : quotedSpan? (offset, (nextFrom c rest).1) = none := by
            rw [heq]
            rfl
          obtain ⟨last, spans, hspans⟩ := Scan.exists_quotedSpans_of_isQuote hquote h start offset
          rw [hspans, hbreak h, List.filterMap_cons_none hnone]
          refine iff_of_false (fun hsame => ?_) (by simp)
          have hle := le_of_mem_quotedSpans (hsame ▸ List.mem_cons_self)
          have hpos := List.length_pos_iff.mpr (lexeme_nextFrom_ne_nil c rest)
          simp only at hle
          omega

theorem kind_of_mem_tokens {header : Text} {depth stop : Nat}
    (h : (Scan.plain depth).pass? header = some (.plain stop))
    (hbreak : (Scan.plain depth).escapesBreak header = false) {token : HeaderToken}
    (htoken : token ∈ tokens header) :
    (∃ name, token = ident name) ∨ (∃ quote body, token = quoted quote body) ∨
      token.isFiller = true := by
  induction header using tokens_induction generalizing depth with
  | nil => cases htoken
  | cons c rest ih =>
      rw [tokens_cons, List.mem_cons] at htoken
      cases shape c rest with
      | unquoted hkind hquote =>
          obtain ⟨later, hlater⟩ := Scan.exists_crosses_of_unquoted hquote depth
          rw [← lexeme_append_nextFrom c rest] at h hbreak
          rw [hlater.escapesBreak] at hbreak
          rcases htoken with rfl | htoken
          · exact hkind.imp_right .inr
          · exact ih (hlater.pass? h) hbreak htoken
      | closed hquote body tail htext heq hbody =>
          rw [heq] at ih htoken
          rw [htext] at h hbreak
          rw [Scan.escapesBreak_quoted hquote (hbody depth)] at hbreak
          rcases htoken with rfl | htoken
          · exact .inr (.inl ⟨c, body, rfl⟩)
          · exact ih (Scan.pass?_of_quoted hquote (hbody depth) h) hbreak htoken
      | opened hquote body heq hopened =>
          rw [hopened h] at hbreak
          cases hbreak

end HeaderToken

end TemplateDocs

import TemplateDocs.Proofs.LineBreak.Text
import TemplateDocs.Template.Header

/-!
# Line breaks in headers

Tokens of a header with returns are those of the header without, up to returns
inside quoted texts and gaps.  So the parameters of a definition are the same, and
its name is the same up to returns.  Behind a backslash the two would differ: a
return can be escaped, a feed cannot.
-/

namespace TemplateDocs

open Text

namespace HeaderToken

/-- The token with returns in front of its line feeds; only these three can hold some. -/
def withReturns : HeaderToken → HeaderToken
  | quoted quote body => quoted quote body.withReturns
  | gap blanks => gap blanks.withReturns
  | unknown text => unknown text.withReturns
  | token => token

theorem readQuoted_close (quote : Char) (rest : Text) :
    readQuoted quote (quote :: rest) = ([], rest, true) := by
  rw [readQuoted.eq_def]
  simp

theorem readQuoted_plain {quote c : Char} (hquote : c ≠ quote) (hslash : c ≠ '\\') (rest : Text) :
    readQuoted quote (c :: rest) =
      (c :: (readQuoted quote rest).1, (readQuoted quote rest).2) := by
  rw [readQuoted.eq_def]
  simp [hquote, hslash]

theorem readQuoted_escape {quote escaped : Char} (hquote : '\\' ≠ quote) (hfeed : escaped ≠ '\n')
    (rest : Text) :
    readQuoted quote ('\\' :: escaped :: rest) =
      ('\\' :: escaped :: (readQuoted quote rest).1, (readQuoted quote rest).2) := by
  rw [readQuoted.eq_def]
  simp [hquote, hfeed]

theorem readQuoted_withReturns {quote : Char} (hreturn : '\r' ≠ quote) (hfeed : '\n' ≠ quote)
    {text : Text} (h : PlainBreaks text) :
    readQuoted quote text.withReturns =
      ((readQuoted quote text).1.withReturns, (readQuoted quote text).2.1.withReturns,
        (readQuoted quote text).2.2) := by
  have hslashFeed : '\\' ≠ '\n' := by decide
  fun_induction readQuoted quote text with
  | case1 => rfl
  | case2 rest => rw [withReturns_cons hfeed.symm, readQuoted_close, withReturns_nil]
  | case3 hquote =>
      have hslash : Text.withReturns ['\\'] = ['\\'] := rfl
      rw [hslash, readQuoted.eq_def]
      simp [hquote]
  | case4 rest hquote =>
      -- A feed right behind a backslash, which plain breaks rule out.
      exact absurd ⟨[], rest, rfl⟩ h.unescaped
  | case5 escaped rest hescaped found hquote ih =>
      have hrest : PlainBreaks rest := h.of_cons.of_cons
      rw [withReturns_cons hslashFeed, withReturns_cons hescaped,
        readQuoted_escape hquote hescaped, withReturns_cons hslashFeed,
        withReturns_cons hescaped, ih hrest]
  | case6 c rest hquote hslash found ih =>
      have hrest : PlainBreaks rest := h.of_cons
      by_cases hc : c = '\n'
      · subst hc
        rw [withReturns_break, readQuoted_plain hreturn (by decide),
          readQuoted_plain hquote hslash, withReturns_break, ih hrest]
      · rw [withReturns_cons hc, readQuoted_plain hquote hslash, withReturns_cons hc, ih hrest]

theorem nextQuoted_withReturns {quote : Char} (hquote : Tag.isQuote quote = true) {rest : Text}
    (h : PlainBreaks rest) :
    nextQuoted quote rest.withReturns =
      (nextQuoted quote rest).map HeaderToken.withReturns Text.withReturns := by
  obtain ⟨hreturn, hfeed⟩ := Tag.ne_of_isQuote hquote
  unfold nextQuoted
  rw [readQuoted_withReturns hreturn hfeed h]
  obtain ⟨body, tail, closed⟩ := readQuoted quote rest
  cases closed with
  | true => rfl
  | false => simp [withReturns, withReturns_cons hfeed.symm]

theorem nextPoint_withReturns (rest : Text) :
    nextPoint rest.withReturns =
      (nextPoint rest).map HeaderToken.withReturns Text.withReturns := by
  rcases rest with _ | ⟨c, rest⟩
  · rfl
  by_cases hc : c = '\n'
  · subst hc
    rfl
  by_cases hpoint : c = '.'
  · subst hpoint
    rcases rest with _ | ⟨d, rest⟩
    · rfl
    by_cases hd : d = '\n'
    · subst hd
      rfl
    by_cases hsecond : d = '.'
    · subst hsecond
      rfl
    · simp [nextPoint, withReturns_cons hd, withReturns_cons hc, hsecond, withReturns]
  · simp [nextPoint, withReturns_cons hc, hpoint, withReturns, withReturns_cons]

theorem nextEquals_withReturns (rest : Text) :
    nextEquals rest.withReturns =
      (nextEquals rest).map HeaderToken.withReturns Text.withReturns := by
  rcases rest with _ | ⟨c, rest⟩
  · rfl
  by_cases hc : c = '\n'
  · subst hc
    rfl
  by_cases hequals : c = '='
  · subst hequals
    rfl
  · simp [nextEquals, withReturns_cons hc, hequals, withReturns]

theorem nextNumber_withReturns (text : Text) :
    nextNumber text.withReturns =
      (nextNumber text).map HeaderToken.withReturns Text.withReturns := by
  unfold nextNumber
  rw [takeWhile_withReturns_of_false rfl rfl, dropWhile_withReturns rfl]
  generalize text.dropWhile Char.isDigit = behind
  rcases behind with _ | ⟨c, behind⟩
  · rfl
  by_cases hc : c = '\n'
  · subst hc
    rfl
  by_cases hpoint : c = '.'
  · subst hpoint
    rcases behind with _ | ⟨d, behind⟩
    · rfl
    by_cases hd : d = '\n'
    · subst hd
      rfl
    · rw [withReturns_cons hc, withReturns_cons hd]
      cases hdigit : d.isDigit with
      | true =>
          simp [hdigit, withReturns, takeWhile_withReturns_of_false, dropWhile_withReturns]
      | false => simp [hdigit, withReturns, withReturns_cons hc, withReturns_cons hd]
  · simp [withReturns_cons hc, hpoint, withReturns]

theorem nextOperator_withReturns (text : Text) :
    nextOperator text.withReturns =
      (nextOperator text).map HeaderToken.withReturns Text.withReturns := by
  unfold nextOperator
  rw [takeWhile_withReturns_of_false rfl rfl, dropWhile_withReturns rfl]
  generalize text.dropWhile isOperatorSign = behind
  rcases behind with _ | ⟨c, behind⟩
  · rfl
  by_cases hc : c = '\n'
  · subst hc
    rfl
  by_cases hequals : c = '='
  · subst hequals
    rfl
  · simp [withReturns_cons hc, hequals, withReturns]

theorem nextFrom_withReturns {c : Char} (hc : c ≠ '\n') {rest : Text} (h : PlainBreaks rest) :
    nextFrom c rest.withReturns =
      (nextFrom c rest).map HeaderToken.withReturns Text.withReturns := by
  cases starts c with
  | ident hstart heq =>
      rw [heq, heq, takeWhile_withReturns_of_false rfl rfl, dropWhile_withReturns rfl]
      rfl
  | quoted hquote heq =>
      rw [heq, heq]
      exact nextQuoted_withReturns hquote h
  | point hpoint heq =>
      rw [heq, heq]
      exact nextPoint_withReturns rest
  | equals hequals heq =>
      rw [heq, heq]
      exact nextEquals_withReturns rest
  | number hdigit heq =>
      rw [heq, heq, ← withReturns_cons hc]
      exact nextNumber_withReturns (c :: rest)
  | operator hsign heq =>
      rw [heq, heq, ← withReturns_cons hc]
      exact nextOperator_withReturns (c :: rest)
  | gap heq =>
      rw [heq, heq]
      simp [withReturns, withReturns_cons hc]
  | sign token htoken heq =>
      rw [heq, heq]
      rcases htoken with ⟨rfl, -⟩ | rfl | rfl | rfl
      · rfl
      · rfl
      · rfl
      · simp [withReturns, withReturns_cons hc]

theorem next_withReturns {header : Text} (h : PlainBreaks header) :
    next header.withReturns = (next header).map HeaderToken.withReturns Text.withReturns := by
  rcases header with _ | ⟨c, rest⟩
  · rfl
  by_cases hc : c = '\n'
  · -- The return starts the gap that the feed starts without it.
    subst hc
    have hreturn (rest : Text) :
        nextFrom '\r' rest = (gap ('\r' :: rest.takeWhile Text.isGap), rest.dropWhile Text.isGap) :=
      rfl
    have hfeed (rest : Text) :
        nextFrom '\n' rest = (gap ('\n' :: rest.takeWhile Text.isGap), rest.dropWhile Text.isGap) :=
      rfl
    have hgap : Text.isGap '\n' = true := rfl
    simp [next, hreturn, hfeed, hgap, withReturns]
  · rw [withReturns_cons hc]
    exact nextFrom_withReturns hc h.of_cons

theorem tokens_withReturns {header : Text} (h : PlainBreaks header) :
    tokens header.withReturns = (tokens header).map withReturns :=
  tiles_next.cut_withReturns (fun _ h => next_withReturns h) h

def KeepsName : HeaderToken → Prop
  | ident name => name.withReturns = name
  | _ => True

theorem keepsName_nextFrom (c : Char) (rest : Text) : (nextFrom c rest).1.KeepsName := by
  cases starts c with
  | ident hstart heq =>
      have hfeed : isIdentStart '\n' = false := rfl
      have hc : c ≠ '\n' := by
        intro hc
        rw [hc, hfeed] at hstart
        cases hstart
      have hname : '\n' ∉ rest.takeWhile isIdentRest := notMem_takeWhile rfl rest
      simp only [heq, KeepsName]
      rw [withReturns_cons hc, withReturns_of_notMem hname]
  | quoted hquote heq =>
      rw [heq]
      unfold nextQuoted
      split <;> trivial
  | point hpoint heq =>
      rw [heq]
      unfold nextPoint
      split <;> trivial
  | equals hequals heq =>
      rw [heq]
      unfold nextEquals
      split <;> trivial
  | number hdigit heq =>
      rw [heq]
      unfold nextNumber
      repeat' split
      all_goals trivial
  | operator hsign heq =>
      rw [heq]
      unfold nextOperator
      split <;> trivial
  | gap heq =>
      rw [heq]
      trivial
  | sign token htoken heq =>
      rw [heq]
      rcases htoken with ⟨rfl, -⟩ | rfl | rfl | rfl <;> trivial

theorem keepsName_next : ∀ text : Text, text ≠ [] → (next text).1.KeepsName
  | [], hne => absurd rfl hne
  | c :: rest, _ => keepsName_nextFrom c rest

theorem keepsName_of_mem_tokens {header : Text} {token : HeaderToken} (h : token ∈ tokens header) :
    token.KeepsName :=
  Text.forall_mem_cut keepsName_next h

@[simp] theorem isGap_withReturns (token : HeaderToken) :
    token.withReturns.isGap = token.isGap := by
  cases token <;> rfl

end HeaderToken

namespace Header

def withReturns (header : Header) : Header :=
  { header with name := header.name.map Text.withReturns }

@[simp] theorem step?_withReturns (reading : Reading) (token : HeaderToken) :
    reading.step? token.withReturns = reading.step? token := by
  cases reading with
  | parameters => rfl
  | skipping depth operand => cases token <;> rfl

theorem withReturns_eq_ident_iff {token : HeaderToken} {name : Text} :
    token.withReturns = .ident name ↔ token = .ident name := by
  cases token <;> simp [HeaderToken.withReturns]

/-- No sign behind a name comes in that makes it a catch-all or gives it a default. -/
theorem map_withReturns_ne_cons {sign : HeaderToken} (hsign : sign = .ellipsis ∨ sign = .equals)
    {tokens : List HeaderToken} (h : ∀ tail, tokens = sign :: tail → False)
    (tail : List HeaderToken) (htail : tokens.map HeaderToken.withReturns = sign :: tail) :
    False := by
  rcases tokens with _ | ⟨token, tokens⟩
  · cases htail
  · have htoken : token = sign := by
      rcases hsign with rfl | rfl <;> cases token <;> simp_all [HeaderToken.withReturns]
    exact h tokens (congrArg (· :: tokens) htoken)

/-- Parameters are names, and names hold no break. -/
theorem readParameters_withReturns (reading : Reading) (tokens : List HeaderToken) :
    readParameters reading (tokens.map HeaderToken.withReturns) =
      readParameters reading tokens := by
  fun_induction readParameters reading tokens with
  | case1 => rfl
  | case2 reading token rest later hstep ih =>
      rw [List.map_cons, readParameters.eq_def]
      simp [hstep, ih]
  | case3 reading name rest hstep ih =>
      simp [readParameters, HeaderToken.withReturns, hstep, ih]
  | case4 reading name rest hstep ih =>
      simp [readParameters, HeaderToken.withReturns, hstep, ih]
  | case5 reading name rest hellipsis hequals hstep ih =>
      have hellipsis := map_withReturns_ne_cons (.inl rfl) hellipsis
      have hequals := map_withReturns_ne_cons (.inr rfl) hequals
      rw [List.map_cons, ← ih]
      simp [readParameters, HeaderToken.withReturns, hstep]
  | case6 reading token hstep rest _ _ hident ih =>
      have hident : ∀ name, token.withReturns ≠ .ident name := fun name hname =>
        hident name (withReturns_eq_ident_iff.mp hname)
      rw [List.map_cons, ← ih]
      simp [readParameters, hstep, hident]

theorem name_readParameters (reading : Reading) (tokens : List HeaderToken) :
    (readParameters reading tokens).name = none := by
  fun_induction readParameters reading tokens with
  | case1 => rfl
  | case2 reading token rest later hstep ih => exact ih
  | case3 reading name rest hstep ih => exact ih
  | case4 reading name rest hstep ih => exact ih
  | case5 reading name rest _ _ hstep ih => exact ih
  | case6 reading token hstep rest _ _ _ ih => exact ih

theorem withReturns_of_name_eq_none {header : Header} (h : header.name = none) :
    header.withReturns = header := by
  cases header
  simp_all [withReturns]

theorem ofTokens_withReturns {tokens : List HeaderToken}
    (h : ∀ token ∈ tokens, token.KeepsName) :
    ofTokens (tokens.map HeaderToken.withReturns) = (ofTokens tokens).withReturns := by
  rcases tokens with _ | ⟨token, rest⟩
  · rfl
  have hrest := readParameters_withReturns .parameters rest
  have hname := h token List.mem_cons_self
  cases token with
  | ident name =>
      simp only [HeaderToken.KeepsName] at hname
      simp [HeaderToken.withReturns, ofTokens, withReturns, hrest, hname]
  | quoted quote body => simp [HeaderToken.withReturns, ofTokens, withReturns, hrest]
  | _ =>
      -- No name stands in front, so nothing of the header has returns.
      exact (readParameters_withReturns .parameters (_ :: rest)).trans
        (withReturns_of_name_eq_none (name_readParameters .parameters _)).symm

theorem parse_withReturns {header : Text} (h : PlainBreaks header) :
    parse header.withReturns = (parse header).withReturns := by
  unfold parse
  rw [HeaderToken.tokens_withReturns h, List.filter_map]
  simp only [Function.comp_def, HeaderToken.isGap_withReturns]
  apply ofTokens_withReturns
  intro token htoken
  exact HeaderToken.keepsName_of_mem_tokens (List.mem_filter.mp htoken).1

end Header

end TemplateDocs

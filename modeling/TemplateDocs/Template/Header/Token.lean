import TemplateDocs.Template.Tag
import TemplateDocs.Text.Cut

/-!
# Header tokens

The header of a definition is cut into identifiers, quoted texts, numbers,
operators, brackets and signs.  The longest token wins.  Where no token fits, the
characters up to the place where the attempt failed, at least one, make up an
unknown token; so tokens put together are the header (`flatMap_lexeme_tokens`).
-/

namespace TemplateDocs

inductive HeaderToken where
  | ident (name : Text)
  /-- A quoted text, by its quote and what stands between the quotes. -/
  | quoted (quote : Char) (body : Text)
  | ellipsis
  | equals
  | comma
  | number (digits : Text)
  | operator (sign : Text)
  | openGroup (bracket : Char)
  | closeGroup (bracket : Char)
  | gap (blanks : Text)
  | unknown (text : Text)
deriving DecidableEq, Repr

namespace HeaderToken

def lexeme : HeaderToken → Text
  | ident name => name
  | quoted quote body => quote :: (body ++ [quote])
  | ellipsis => ['.', '.', '.']
  | equals => ['=']
  | comma => [',']
  | number digits => digits
  | operator sign => sign
  | openGroup bracket => [bracket]
  | closeGroup bracket => [bracket]
  | gap blanks => blanks
  | unknown text => text

def isIdentStart (c : Char) : Bool :=
  c.isAlpha || c = '_' || c = '$'

def isIdentRest (c : Char) : Bool :=
  c.isAlphanum || c = '_' || c = '$' || c = '@'

def isOperatorSign (c : Char) : Bool :=
  ['-', '+', '*', '/', '%', '!', '<', '>', '?', '&', '|', ':'].contains c

/--
Read a quoted text behind its opening quote.  The result is what was read, what
follows, and whether the closing quote was found; that quote belongs to neither
part.  A backslash takes any character but a line feed with it.
-/
def readQuoted (quote : Char) : Text → Text × Text × Bool
  | [] => ([], [], false)
  | c :: rest =>
      if c = quote then
        ([], rest, true)
      else if c = '\\' then
        match rest with
        | [] => ([c], [], false)
        | escaped :: rest =>
            if escaped = '\n' then
              ([c], escaped :: rest, false)
            else
              let found := readQuoted quote rest
              (c :: escaped :: found.1, found.2)
      else
        let found := readQuoted quote rest
        (c :: found.1, found.2)

def nextQuoted (quote : Char) (rest : Text) : HeaderToken × Text :=
  match readQuoted quote rest with
  | (body, tail, true) => (quoted quote body, tail)
  | (body, tail, false) => (unknown (quote :: body), tail)

/-- What a point starts: an ellipsis, or one or two points of no meaning. -/
def nextPoint : Text → HeaderToken × Text
  | '.' :: '.' :: rest => (ellipsis, rest)
  | '.' :: rest => (unknown ['.', '.'], rest)
  | rest => (unknown ['.'], rest)

def nextEquals : Text → HeaderToken × Text
  | '=' :: rest => (operator ['=', '='], rest)
  | rest => (equals, rest)

def nextNumber (text : Text) : HeaderToken × Text :=
  let whole := text.takeWhile Char.isDigit
  match text.dropWhile Char.isDigit with
  | '.' :: c :: rest =>
      if c.isDigit then
        (number (whole ++ '.' :: c :: rest.takeWhile Char.isDigit), rest.dropWhile Char.isDigit)
      else
        (number whole, '.' :: c :: rest)
  | rest => (number whole, rest)

/-- Operator signs, with one equals sign behind them if there is one. -/
def nextOperator (text : Text) : HeaderToken × Text :=
  let signs := text.takeWhile isOperatorSign
  match text.dropWhile isOperatorSign with
  | '=' :: rest => (operator (signs ++ ['=']), rest)
  | rest => (operator signs, rest)

def nextFrom (c : Char) (rest : Text) : HeaderToken × Text :=
  if isIdentStart c then
    (ident (c :: rest.takeWhile isIdentRest), rest.dropWhile isIdentRest)
  else if Tag.isQuote c then
    nextQuoted c rest
  else if c = '.' then
    nextPoint rest
  else if c = '=' then
    nextEquals rest
  else if c = ',' then
    (comma, rest)
  else if c.isDigit then
    nextNumber (c :: rest)
  else if isOperatorSign c then
    nextOperator (c :: rest)
  else if Tag.opensGroup c then
    (openGroup c, rest)
  else if Tag.closesGroup c then
    (closeGroup c, rest)
  else if Text.isGap c then
    (gap (c :: rest.takeWhile Text.isGap), rest.dropWhile Text.isGap)
  else
    (unknown [c], rest)

def next : Text → HeaderToken × Text
  | [] => (unknown [], [])
  | c :: rest => nextFrom c rest

/-- The tokens of a header, gaps included. -/
def tokens (header : Text) : List HeaderToken :=
  Text.cut next header

def isGap : HeaderToken → Bool
  | gap _ => true
  | _ => false

/-- What the first character of a text says about its first token. -/
inductive Starts (c : Char) : Prop where
  | ident (hstart : isIdentStart c = true)
      (heq : ∀ rest, nextFrom c rest =
        (ident (c :: rest.takeWhile isIdentRest), rest.dropWhile isIdentRest))
  | quoted (hquote : Tag.isQuote c = true) (heq : ∀ rest, nextFrom c rest = nextQuoted c rest)
  | point (hpoint : c = '.') (heq : ∀ rest, nextFrom c rest = nextPoint rest)
  | equals (hequals : c = '=') (heq : ∀ rest, nextFrom c rest = nextEquals rest)
  | number (hdigit : c.isDigit = true) (heq : ∀ rest, nextFrom c rest = nextNumber (c :: rest))
  | operator (hsign : isOperatorSign c = true)
      (heq : ∀ rest, nextFrom c rest = nextOperator (c :: rest))
  | gap (heq : ∀ rest, nextFrom c rest =
      (gap (c :: rest.takeWhile Text.isGap), rest.dropWhile Text.isGap))
  | sign (token : HeaderToken)
      (htoken : token = comma ∧ c = ',' ∨ token = openGroup c ∨ token = closeGroup c ∨
        token = unknown [c])
      (heq : ∀ rest, nextFrom c rest = (token, rest))

theorem starts (c : Char) : Starts c := by
  by_cases hident : isIdentStart c = true
  · refine .ident hident fun rest => ?_
    rw [nextFrom, if_pos hident]
  by_cases hquote : Tag.isQuote c = true
  · refine .quoted hquote fun rest => ?_
    rw [nextFrom, if_neg hident, if_pos hquote]
  by_cases hpoint : c = '.'
  · refine .point hpoint fun rest => ?_
    rw [nextFrom, if_neg hident, if_neg hquote, if_pos hpoint]
  by_cases hequals : c = '='
  · refine .equals hequals fun rest => ?_
    rw [nextFrom, if_neg hident, if_neg hquote, if_neg hpoint, if_pos hequals]
  by_cases hcomma : c = ','
  · refine .sign comma (.inl ⟨rfl, hcomma⟩) fun rest => ?_
    rw [nextFrom, if_neg hident, if_neg hquote, if_neg hpoint, if_neg hequals, if_pos hcomma]
  by_cases hdigit : c.isDigit = true
  · refine .number hdigit fun rest => ?_
    rw [nextFrom, if_neg hident, if_neg hquote, if_neg hpoint, if_neg hequals, if_neg hcomma,
      if_pos hdigit]
  by_cases hsign : isOperatorSign c = true
  · refine .operator hsign fun rest => ?_
    rw [nextFrom, if_neg hident, if_neg hquote, if_neg hpoint, if_neg hequals, if_neg hcomma,
      if_neg hdigit, if_pos hsign]
  by_cases hopens : Tag.opensGroup c = true
  · refine .sign (openGroup c) (.inr (.inl rfl)) fun rest => ?_
    rw [nextFrom, if_neg hident, if_neg hquote, if_neg hpoint, if_neg hequals, if_neg hcomma,
      if_neg hdigit, if_neg hsign, if_pos hopens]
  by_cases hcloses : Tag.closesGroup c = true
  · refine .sign (closeGroup c) (.inr (.inr (.inl rfl))) fun rest => ?_
    rw [nextFrom, if_neg hident, if_neg hquote, if_neg hpoint, if_neg hequals, if_neg hcomma,
      if_neg hdigit, if_neg hsign, if_neg hopens, if_pos hcloses]
  by_cases hgap : Text.isGap c = true
  · refine .gap fun rest => ?_
    rw [nextFrom, if_neg hident, if_neg hquote, if_neg hpoint, if_neg hequals, if_neg hcomma,
      if_neg hdigit, if_neg hsign, if_neg hopens, if_neg hcloses, if_pos hgap]
  · refine .sign (unknown [c]) (.inr (.inr (.inr rfl))) fun rest => ?_
    rw [nextFrom, if_neg hident, if_neg hquote, if_neg hpoint, if_neg hequals, if_neg hcomma,
      if_neg hdigit, if_neg hsign, if_neg hopens, if_neg hcloses, if_neg hgap]

theorem readQuoted_append (quote : Char) (text : Text) :
    (readQuoted quote text).1 ++
        ((if (readQuoted quote text).2.2 then [quote] else []) ++
          (readQuoted quote text).2.1) = text := by
  fun_induction readQuoted quote text with
  | case1 => rfl
  | case2 rest => simp
  | case3 => rfl
  | case4 => simp
  | case5 rest escaped hne hescaped found ih => simpa using ih
  | case6 c rest hquote hslash found ih => simpa using ih

theorem lexeme_append_nextQuoted (quote : Char) (rest : Text) :
    (nextQuoted quote rest).1.lexeme ++ (nextQuoted quote rest).2 = quote :: rest := by
  have h := readQuoted_append quote rest
  unfold nextQuoted
  split <;>
    · next heq =>
        rw [heq] at h
        simpa [lexeme] using h

theorem lexeme_append_nextPoint (rest : Text) :
    (nextPoint rest).1.lexeme ++ (nextPoint rest).2 = '.' :: rest := by
  unfold nextPoint
  split <;> simp [lexeme]

theorem lexeme_append_nextEquals (rest : Text) :
    (nextEquals rest).1.lexeme ++ (nextEquals rest).2 = '=' :: rest := by
  unfold nextEquals
  split <;> simp [lexeme]

theorem lexeme_append_nextNumber (text : Text) :
    (nextNumber text).1.lexeme ++ (nextNumber text).2 = text := by
  have h := List.takeWhile_append_dropWhile (p := Char.isDigit) (l := text)
  unfold nextNumber
  split
  · next c rest heq =>
      rw [heq] at h
      split <;> simpa [lexeme] using h
  · simp [lexeme]

theorem lexeme_append_nextOperator (text : Text) :
    (nextOperator text).1.lexeme ++ (nextOperator text).2 = text := by
  have h := List.takeWhile_append_dropWhile (p := isOperatorSign) (l := text)
  unfold nextOperator
  split
  · next rest heq =>
      rw [heq] at h
      simpa [lexeme] using h
  · simp [lexeme]

theorem lexeme_append_nextFrom (c : Char) (rest : Text) :
    (nextFrom c rest).1.lexeme ++ (nextFrom c rest).2 = c :: rest := by
  cases starts c with
  | ident hstart heq => simp [heq, lexeme]
  | quoted hquote heq =>
      rw [heq]
      exact lexeme_append_nextQuoted c rest
  | point hpoint heq =>
      rw [heq, hpoint]
      exact lexeme_append_nextPoint rest
  | equals hequals heq =>
      rw [heq, hequals]
      exact lexeme_append_nextEquals rest
  | number hdigit heq =>
      rw [heq]
      exact lexeme_append_nextNumber (c :: rest)
  | operator hsign heq =>
      rw [heq]
      exact lexeme_append_nextOperator (c :: rest)
  | gap heq => simp [heq, lexeme]
  | sign token htoken heq =>
      rw [heq]
      rcases htoken with ⟨rfl, rfl⟩ | rfl | rfl | rfl <;> simp [lexeme]

theorem lexeme_nextFrom_ne_nil (c : Char) (rest : Text) :
    (nextFrom c rest).1.lexeme ≠ [] := by
  cases starts c with
  | ident hstart heq => simp [heq, lexeme]
  | quoted hquote heq =>
      rw [heq]
      unfold nextQuoted
      split <;> simp [lexeme]
  | point hpoint heq =>
      rw [heq]
      unfold nextPoint
      split <;> simp [lexeme]
  | equals hequals heq =>
      rw [heq]
      unfold nextEquals
      split <;> simp [lexeme]
  | number hdigit heq =>
      rw [heq]
      unfold nextNumber
      repeat' split
      all_goals simp [lexeme, hdigit]
  | operator hsign heq =>
      rw [heq]
      unfold nextOperator
      split <;> simp [lexeme, hsign]
  | gap heq => simp [heq, lexeme]
  | sign token htoken heq =>
      rw [heq]
      rcases htoken with ⟨rfl, rfl⟩ | rfl | rfl | rfl <;> simp [lexeme]

theorem tiles_next : Text.Tiles next lexeme
  | [], h => absurd rfl h
  | c :: rest, _ => ⟨lexeme_nextFrom_ne_nil c rest, lexeme_append_nextFrom c rest⟩

theorem flatMap_lexeme_tokens (header : Text) : (tokens header).flatMap lexeme = header :=
  tiles_next.flatMap_cut header

end HeaderToken

end TemplateDocs

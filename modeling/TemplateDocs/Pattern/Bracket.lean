import TemplateDocs.Pattern.Escape

/-!
# Sets in brackets

Between brackets stand characters, ranges of them, classes and sets in brackets of
their own.  Operators, which are read from left to right, combine what stands
before them with what stands behind them.
-/

namespace TemplateDocs

namespace Pattern

/-- Something that was read, with the number of levels it is nested. -/
structure Nested (α : Type) where
  value : α
  depth : Nat
deriving Repr

def Nested.deepest {α : Type} (items : List (Nested α)) : Nat :=
  items.foldl (fun depth item => max depth item.depth) 0

inductive SetOperator where
  | inter
  | diff
  | symmDiff
deriving DecidableEq, Repr

def SetOperator.apply : SetOperator → CharSet → CharSet → CharSet
  | inter => CharSet.inter
  | diff => CharSet.diff
  | symmDiff => CharSet.symmDiff

def SetOperator.read? : Text → Option (SetOperator × Text)
  | '&' :: '&' :: rest => some (inter, rest)
  | '-' :: '-' :: rest => some (diff, rest)
  | '~' :: '~' :: rest => some (symmDiff, rest)
  | _ => none

/-- A set whose bracket is not yet closed. -/
structure OpenBracket where
  negated : Bool
  /-- What stands before the last operator, and the operator. -/
  left : Option (Nested CharSet × SetOperator)
  /-- What stands behind it. -/
  items : List (Nested CharSet)
deriving Repr

namespace OpenBracket

def add (bracket : OpenBracket) (item : Nested CharSet) : OpenBracket :=
  { bracket with items := bracket.items ++ [item] }

def operand (bracket : OpenBracket) : Nested CharSet :=
  match bracket.items with
  | [] => ⟨.empty, 0⟩
  | [item] => item
  | items =>
      ⟨.ofRanges (items.flatMap fun item => item.value.ranges), Nested.deepest items + 1⟩

def total (bracket : OpenBracket) : Nested CharSet :=
  let right := bracket.operand
  match bracket.left with
  | none => right
  | some (left, operator) =>
      ⟨operator.apply left.value right.value, max left.depth right.depth + 1⟩

def operate (bracket : OpenBracket) (operator : SetOperator) : OpenBracket :=
  { bracket with left := some (bracket.total, operator), items := [] }

def close? (mode : Mode) (bracket : OpenBracket) : Option (Nested CharSet) :=
  let total := bracket.total
  (mode.negated? bracket.negated total.value).map fun set => ⟨set, total.depth + 1⟩

end OpenBracket

/-- A set of characters of the pattern, in both cases where the mode asks for them. -/
def ofCharacters? (mode : Mode) (first last : Char) : Option (Nested CharSet) :=
  if first ≤ last && (mode.unicode || last.toNat < 0x80) then
    some ⟨mode.cased (.range first last), 0⟩
  else
    none

def Sign.set? (mode : Mode) : Sign → Option (Nested CharSet)
  | character c => ofCharacters? mode c c
  | oneOf set => some ⟨set, 0⟩
  | place _ => none

def readSign (mode : Mode) : Text → Option (Sign × Text)
  | [] => none
  | '\\' :: rest => readEscape mode rest
  | c :: rest => some (.character c, rest)

/-- The set from one sign to another, both of which have to be characters. -/
def rangeOf? (mode : Mode) : Sign → Sign → Option (Nested CharSet)
  | .character first, .character last => ofCharacters? mode first last
  | _, _ => none

/--
A sign, or a range of characters.  A hyphen before a closing bracket or before
another hyphen makes no range.
-/
def readItem (mode : Mode) (text : Text) : Option (Nested CharSet × Text) :=
  (readSign mode text).bind fun first =>
    match mode.skip first.2 with
    | '-' :: rest =>
        let next := mode.glance rest
        if next = some ']' || next = some '-' then
          (first.1.set? mode).map fun set => (set, '-' :: rest)
        else
          (readSign mode (mode.skip rest)).bind fun last =>
            (rangeOf? mode first.1 last.1).map fun set => (set, last.2)
    | rest => (first.1.set? mode).map fun set => (set, rest)

/--
A class of ASCII that is named between colons, read behind its bracket, with the
question whether it is negated.
-/
def readNamed? (text : Text) : Option ((Bool × CharSet) × Text) :=
  (Text.after? [':'] text).bind fun text =>
    let negated := text.head? = some '^'
    let text := if negated then text.drop 1 else text
    (Text.splitAt? [':'] text).bind fun found =>
      (Text.after? [']'] found.2).bind fun rest =>
        (asciiClass? found.1).map fun set => ((negated, set), rest)

def readHyphens (mode : Mode) (count : Nat) (text : Text) : Nat × Text :=
  match text with
  | '-' :: rest => readHyphens mode (count + 1) (mode.skip rest)
  | rest => (count, rest)
termination_by text.length
decreasing_by
  exact Nat.lt_succ_of_le (mode.length_skip_le rest)

/--
The start of a set, read behind its bracket: a negation, then hyphens or else a
closing bracket that stand for themselves.
-/
def readOpening (mode : Mode) (text : Text) : Option (OpenBracket × Text) :=
  let text := mode.skip text
  let negated := text.head? = some '^'
  let text := if negated then mode.skip (text.drop 1) else text
  let hyphens := readHyphens mode 0 text
  let bracket : OpenBracket :=
    ⟨negated, none, List.replicate hyphens.1 ⟨.single '-', 0⟩⟩
  match hyphens.2 with
  | [] => none
  | ']' :: rest =>
      if hyphens.1 = 0 then
        some (bracket.add ⟨.single ']', 0⟩, mode.skip rest)
      else
        some (bracket, ']' :: rest)
  | rest => some (bracket, rest)

/-- What a step leads to: brackets that are still open, or a set that is complete. -/
inductive BracketState where
  | reading (bracket : OpenBracket) (outer : List OpenBracket)
  | complete (set : Nested CharSet)

def stepBracket (mode : Mode) (bracket : OpenBracket) (outer : List OpenBracket) :
    Text → Option (BracketState × Text)
  | [] => none
  | '[' :: rest =>
      match readNamed? rest with
      | some ((negated, set), rest) =>
          (mode.negated? negated (mode.cased set)).map fun set =>
            (.reading (bracket.add ⟨set, 0⟩) outer, rest)
      | none =>
          (readOpening mode rest).map fun inner => (.reading inner.1 (bracket :: outer), inner.2)
  | ']' :: rest =>
      (bracket.close? mode).map fun set =>
        match outer with
        | [] => (.complete set, rest)
        | parent :: outer => (.reading (parent.add set) outer, rest)
  | text =>
      match SetOperator.read? text with
      | some (operator, rest) => some (.reading (bracket.operate operator) outer, rest)
      | none =>
          (readItem mode text).map fun item => (.reading (bracket.add item.1) outer, item.2)

/-- Read a set up to its closing bracket; every step takes at least one sign. -/
def readBrackets (mode : Mode) (bracket : OpenBracket) (outer : List OpenBracket) (text : Text) :
    Option (Nested CharSet × Text) :=
  match stepBracket mode bracket outer (mode.skip text) with
  | none => none
  | some (.complete set, rest) => some (set, rest)
  | some (.reading bracket outer, rest) =>
      if rest.length < text.length then readBrackets mode bracket outer rest else none
termination_by text.length

def readBracket (mode : Mode) (text : Text) : Option (Nested CharSet × Text) :=
  (readOpening mode text).bind fun opening => readBrackets mode opening.1 [] opening.2

end Pattern

end TemplateDocs

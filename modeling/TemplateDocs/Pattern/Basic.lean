import TemplateDocs.Pattern.CharSet
import TemplateDocs.Text.Basic

/-!
# Patterns

A pattern describes texts.  Sequences and choices are put together so that equal
parts can be seen: a sequence holds no sequence and no empty part, and characters
that follow each other are one text; a choice holds no choice, and what all its
alternatives start with stands in front of it.
-/

namespace TemplateDocs

inductive Place where
  | textStart
  | textEnd
  /-- At the start of the text or behind a line feed. -/
  | lineStart
  /-- At the end of the text or before a line feed. -/
  | lineEnd
  /-- The start of a line, where lines may end with a carriage return too. -/
  | anyLineStart
  /-- The end of a line, where lines may end with a carriage return too. -/
  | anyLineEnd
  /-- Between a word and something else. -/
  | wordEdge
  | notWordEdge
  | wordStart
  | wordEnd
deriving DecidableEq, Repr

/-- How often something may occur. -/
inductive Count where
  | optional
  | any
  | positive
deriving DecidableEq, Repr

inductive Pattern where
  | empty
  | literal (text : Text)
  | oneOf (set : CharSet)
  | place (place : Place)
  /-- Several times the same; `greedy` if rather more often than less often. -/
  | repeated (count : Count) (greedy : Bool) (body : Pattern)
  | group (number : Nat) (body : Pattern)
  | sequence (parts : List Pattern)
  /-- Alternatives, the preferred one first. -/
  | choice (alternatives : List Pattern)
deriving Repr

namespace Pattern

mutual

def same : Pattern → Pattern → Bool
  | empty, empty => true
  | literal text, literal text' => text = text'
  | oneOf set, oneOf set' => set = set'
  | place here, place there => here = there
  | repeated count greedy body, repeated count' greedy' body' =>
      count = count' && greedy = greedy' && same body body'
  | group number body, group number' body' => number = number' && same body body'
  | sequence parts, sequence parts' => sameAll parts parts'
  | choice alternatives, choice alternatives' => sameAll alternatives alternatives'
  | _, _ => false

def sameAll : List Pattern → List Pattern → Bool
  | [], [] => true
  | first :: rest, first' :: rest' => same first first' && sameAll rest rest'
  | _, _ => false

end

/-- A set; the set of one character is that character. -/
def ofSet (set : CharSet) : Pattern :=
  match set.only? with
  | some c => literal [c]
  | none => oneOf set

def prepend (part : Pattern) (rest : List Pattern) : List Pattern :=
  match part, rest with
  | empty, rest => rest
  | literal text, literal text' :: rest => literal (text ++ text') :: rest
  | part, rest => part :: rest

def parts : Pattern → List Pattern
  | sequence parts => parts
  | part => [part]

def inSequence (patterns : List Pattern) : Pattern :=
  match (patterns.flatMap parts).foldr prepend [] with
  | [] => empty
  | [part] => part
  | parts => sequence parts

mutual

def isPlaceOnly : Pattern → Bool
  | empty => true
  | literal _ => false
  | oneOf _ => false
  | place _ => true
  | repeated count _ body => count = .optional && isPlaceOnly body
  | group _ body => isPlaceOnly body
  | sequence parts => arePlacesOnly parts
  | choice alternatives => arePlacesOnly alternatives

def arePlacesOnly : List Pattern → Bool
  | [] => true
  | first :: rest => isPlaceOnly first && arePlacesOnly rest

end

/-- A pattern several times; a place is not looked at more than once. -/
def times (count : Count) (greedy : Bool) (body : Pattern) : Pattern :=
  if isPlaceOnly body then
    match count with
    | .positive => body
    | _ => repeated .optional greedy body
  else
    repeated count greedy body

def commonStart : List Pattern → List Pattern → List Pattern
  | first :: rest, first' :: rest' =>
      if same first first' then first :: commonStart rest rest' else []
  | _, _ => []

/-- The parts of every alternative, if all are sequences. -/
def sequences? : List Pattern → Option (List (List Pattern))
  | [] => some []
  | sequence parts :: rest => (sequences? rest).map (parts :: ·)
  | _ => none

def singles? : List Pattern → Option (List Char)
  | [] => some []
  | literal [c] :: rest => (singles? rest).map (c :: ·)
  | _ => none

def unionOfSets? : List Pattern → Option CharSet
  | [] => some .empty
  | oneOf set :: rest => (unionOfSets? rest).map set.union
  | _ => none

def alternatives : Pattern → List Pattern
  | choice alternatives => alternatives
  | alternative => [alternative]

mutual

def size : Pattern → Nat
  | repeated _ _ body => size body + 1
  | group _ body => size body + 1
  | sequence parts => sizeAll parts + 1
  | choice alternatives => sizeAll alternatives + 1
  | _ => 1

def sizeAll : List Pattern → Nat
  | [] => 0
  | first :: rest => size first + sizeAll rest

end

/--
A choice between alternatives, where a common start is taken out at most `times`
times in a row.
-/
def chooseWithin (times : Nat) (patterns : List Pattern) : Pattern :=
  match patterns.flatMap alternatives with
  | [alternative] => alternative
  | flat =>
      match singles? flat, unionOfSets? flat, sequences? flat, times with
      | some chars, _, _, _ => ofSet (.ofRanges (chars.map fun c => (c.toNat, c.toNat)))
      | none, some set, _, _ => ofSet set
      | none, none, some (first :: rest), times + 1 =>
          let start := rest.foldl commonStart first
          if start.isEmpty then
            choice flat
          else
            inSequence (start ++ [chooseWithin times
              ((first :: rest).map fun parts => inSequence (parts.drop start.length))])
      | _, _, _, _ => choice flat

/--
A choice between alternatives.  Each time a common start is taken out, the
alternatives get smaller, so that their size bounds how often that happens.
-/
def choose (patterns : List Pattern) : Pattern :=
  chooseWithin (sizeAll patterns) patterns

end Pattern

end TemplateDocs

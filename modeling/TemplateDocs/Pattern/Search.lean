import TemplateDocs.Pattern.Basic

/-!
# Searching with a pattern

A pattern becomes a list of steps, which branch, look at a place, or take a
character.  A search follows all ways through the steps at once, in the order of
preference, and starts anew at every character as long as nothing is found.  As soon
as one way has led to the end, the less preferred ways are given up.  A text ends
with a match if at its end one of the ways that are left leads to the end of the
pattern.
-/

namespace TemplateDocs

def Place.isWordSign (c : Option Char) : Bool :=
  c.any fun c => c.isAlphanum || c = '_'

/-- Is it certain from the character before a place that the place is of a kind? -/
def Place.isSettled (before : Option Char) : Place → Bool
  | textStart => before.isNone
  | lineStart => before.isNone || before = some '\n'
  | anyLineStart => before.isNone || before = some '\n'
  | _ => false

/-- Is a place between two characters of a kind?  There is none beyond an end. -/
def Place.holds (before after : Option Char) : Place → Bool
  | textEnd => after.isNone
  | lineEnd => after.isNone || after = some '\n'
  | anyLineStart =>
      before.isNone || before = some '\n' || (before = some '\r' && after != some '\n')
  | anyLineEnd =>
      after.isNone || after = some '\r' || (after = some '\n' && before != some '\r')
  | wordEdge => isWordSign before != isWordSign after
  | notWordEdge => isWordSign before == isWordSign after
  | wordStart => !isWordSign before && isWordSign after
  | wordEnd => isWordSign before && !isWordSign after
  | kind => kind.isSettled before

/-- Is a place between two bytes of one character of a kind? -/
def Place.holdsInside : Place → Bool
  | notWordEdge => true
  | _ => false

namespace Pattern

/-- A step of a search.  Other steps are named by their distance. -/
inductive Step where
  | take (set : CharSet)
  | look (place : Place)
  | branch (first second : Int)
  | jump (distance : Int)
  | seek
  | accept
deriving DecidableEq, Repr

/-- Go two ways; the first one is preferred if `preferFirst`. -/
def Step.fork (preferFirst : Bool) (first second : Int) : Step :=
  if preferFirst then branch first second else branch second first

mutual

/-- The least number of characters that a pattern takes, if it can be found at all. -/
def minLength? : Pattern → Option Nat
  | empty => some 0
  | literal text => some text.length
  | oneOf set => if set.ranges.isEmpty then none else some 1
  | place _ => some 0
  | repeated count _ body =>
      (minLength? body).map fun least => if count = .positive then least else 0
  | group _ body => minLength? body
  | sequence parts => minLengthInSequence? parts
  | choice alternatives => minLengthOfChoice? alternatives

def minLengthInSequence? : List Pattern → Option Nat
  | [] => some 0
  | first :: rest =>
      (minLength? first).bind fun least => (minLengthInSequence? rest).map (least + ·)

def minLengthOfChoice? : List Pattern → Option Nat
  | [] => none
  | [last] => minLength? last
  | first :: rest =>
      (minLength? first).bind fun least => (minLengthOfChoice? rest).map (min least)

end

def takesSome (pattern : Pattern) : Bool :=
  (minLength? pattern).any fun least => 0 < least

mutual

/--
The steps of a pattern; behind the last one the search goes on.  A body that always
takes a character is repeated from one fork, which stands before it; another body
has a fork at either end.
-/
def steps : Pattern → List Step
  | empty => []
  | literal text => text.map fun c => .take (.single c)
  | oneOf set => [.take set]
  | place here => [.look here]
  | repeated count greedy body =>
      let once := steps body
      let many := once ++ [.fork greedy (-once.length) 1]
      match count with
      | .optional => .fork greedy 1 (once.length + 1) :: once
      | .positive => many
      | .any =>
          if takesSome body then
            .fork greedy 1 (once.length + 2) :: (once ++ [.jump (-(once.length + 1))])
          else
            .fork greedy 1 (many.length + 1) :: many
  | group _ body => steps body
  | sequence parts => stepsInSequence parts
  | choice alternatives => stepsOfChoice alternatives

def stepsInSequence : List Pattern → List Step
  | [] => []
  | first :: rest => steps first ++ stepsInSequence rest

def stepsOfChoice : List Pattern → List Step
  | [] => [.take .empty]
  | [last] => steps last
  | first :: rest =>
      let preferred := steps first
      let others := stepsOfChoice rest
      .branch 1 (preferred.length + 2) :: (preferred ++ .jump (others.length + 1) :: others)

end

abbrev Program := Array Step

def program (pattern : Pattern) : Program :=
  (.branch 2 1 :: .seek :: (steps pattern ++ [.accept])).toArray

namespace Program

def following (program : Program) (isOpen : Place → Bool) (step : Nat) : List Nat :=
  let ahead (distance : Int) : Nat := (step + distance).toNat
  match program[step]? with
  | some (.branch first second) => [ahead first, ahead second]
  | some (.jump distance) => [ahead distance]
  | some (.look kind) => if isOpen kind then [step + 1] else []
  | _ => []

/--
The steps that are reached without a character being taken, in the order of
preference.  `seen` are those reached already, the last one first.
-/
def reachWithin (program : Program) (isOpen : Place → Bool) :
    Nat → List Nat → List Nat → List Nat
  | 0, _, seen => seen.reverse
  | _, [], seen => seen.reverse
  | fuel + 1, step :: waiting, seen =>
      if seen.contains step then
        reachWithin program isOpen fuel waiting seen
      else
        reachWithin program isOpen fuel (program.following isOpen step ++ waiting) (step :: seen)

def isKept (program : Program) (step : Nat) : Bool :=
  match program[step]? with
  | some (.branch ..) => false
  | some (.jump _) => false
  | _ => true

/--
The steps at which ways wait that start at several steps.  No step is passed twice,
and each leads to two others at most, which bounds the number of turns.
-/
def reach (program : Program) (isOpen : Place → Bool) (start : List Nat) : List Nat :=
  (reachWithin program isOpen (start.length + 2 * program.size + 1) start []).filter
    program.isKept

/-- Is a step a look at a place that is only settled by the character behind it? -/
def opensNow (program : Program) (before after : Option Char) (step : Nat) : Bool :=
  match program[step]? with
  | some (.look kind) => kind.holds before after && !kind.isSettled before
  | _ => false

/--
The ways when the next character is known.  Where that settles a place, all ways are
followed once more from the steps at which they wait.
-/
def settle (program : Program) (before after : Option Char) (ways : List Nat) : List Nat :=
  if ways.any (program.opensNow before after) then
    program.reach (Place.holds before after) ways
  else
    ways

def isEnd (program : Program) (step : Nat) : Bool :=
  program[step]? = some .accept

def holdsInside (program : Program) : Bool :=
  (program.reach Place.holdsInside [0]).any program.isEnd

/--
The step behind a character, if the character can be taken.  A search does not start
anew behind a character within which the pattern is found.
-/
def afterChar (program : Program) (c : Char) (step : Nat) : Option Nat :=
  match program[step]? with
  | some (.take set) => if set.has c then some (step + 1) else none
  | some .seek => if c.utf8Size = 1 || !program.holdsInside then some 0 else none
  | _ => none

/-- The ways behind a character; those after an end are given up. -/
def advance (program : Program) (c : Char) (ways : List Nat) : List Nat :=
  let preferred := ways.takeWhile fun step => !program.isEnd step
  program.reach (Place.isSettled (some c)) (preferred.filterMap (program.afterChar c))

def endsWithin (program : Program) (before : Option Char) (ways : List Nat) : Text → Bool
  | [] => (program.settle before none ways).any program.isEnd
  | c :: rest =>
      program.endsWithin (some c) (program.advance c (program.settle before (some c) ways)) rest

end Program

def endsText (pattern : Pattern) (text : Text) : Bool :=
  let program := pattern.program
  program.endsWithin none (program.reach (Place.isSettled none) [0]) text

end Pattern

end TemplateDocs

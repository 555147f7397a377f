import TemplateDocs.Pattern.Bracket
import TemplateDocs.Text.Alphabetic

/-!
# Reading patterns

A pattern is written as a line of signs.  Parentheses hold groups, which can have a
name or modes of their own; bars part alternatives; a question mark, a star or a
plus repeats what stands before it.  A text is refused as a pattern if a sign has
no meaning where it stands, or if groups, repetitions and sets are nested too
deeply.
-/

namespace TemplateDocs

namespace Pattern

def maxDepth : Nat :=
  250

structure Part where
  pattern : Pattern
  depth : Nat
  /-- May the part be repeated? A change of modes may not. -/
  isRepeatable : Bool
deriving Repr

/-- A group that is not yet closed, or the whole pattern. -/
structure OpenGroup where
  number : Option Nat
  mode : Mode
  finished : List (Nested Pattern)
  parts : List Part
deriving Repr

namespace OpenGroup

def start (number : Option Nat) (mode : Mode) : OpenGroup :=
  ⟨number, mode, [], []⟩

def add (group : OpenGroup) (pattern : Pattern) (depth : Nat) : OpenGroup :=
  { group with parts := group.parts ++ [⟨pattern, depth, true⟩] }

def switchMode (group : OpenGroup) (mode : Mode) : OpenGroup :=
  { group with mode := mode, parts := group.parts ++ [⟨.empty, 0, false⟩] }

def lastAlternative (group : OpenGroup) : Nested Pattern :=
  match group.parts with
  | [] => ⟨.empty, 0⟩
  | [part] => ⟨part.pattern, part.depth⟩
  | parts =>
      ⟨inSequence (parts.map Part.pattern),
        Nested.deepest (parts.map fun part => ⟨part.pattern, part.depth⟩) + 1⟩

def nextAlternative (group : OpenGroup) : OpenGroup :=
  { group with finished := group.finished ++ [group.lastAlternative], parts := [] }

def content (group : OpenGroup) : Nested Pattern :=
  match group.finished with
  | [] => group.lastAlternative
  | finished =>
      let all := finished ++ [group.lastAlternative]
      ⟨choose (all.map Nested.value), Nested.deepest all + 1⟩

def close (group : OpenGroup) : Nested Pattern :=
  let content := group.content
  match group.number with
  | some number => ⟨.group number content.value, content.depth + 1⟩
  | none => ⟨content.value, content.depth + 1⟩

def repeatLast? (group : OpenGroup) (count : Count) (lazy : Bool) : Option OpenGroup :=
  match group.parts.getLast? with
  | some ⟨pattern, depth, true⟩ =>
      let greedy := lazy == group.mode.swapGreed
      some <| { group with parts := group.parts.dropLast }.add
        (times count greedy pattern) (depth + 1)
  | _ => none

end OpenGroup

/-- Where a reader of patterns stands. -/
structure Reading where
  group : OpenGroup
  /-- The groups around it, the innermost first. -/
  outer : List OpenGroup
  numbered : Nat
  names : List Text
deriving Repr

namespace Reading

def start : Reading :=
  ⟨.start none .initial, [], 0, []⟩

def openPlain (reading : Reading) (mode : Mode) : Reading :=
  { reading with group := .start none mode, outer := reading.group :: reading.outer }

def openNumbered (reading : Reading) : Reading :=
  { reading with
    group := .start (some (reading.numbered + 1)) reading.group.mode
    outer := reading.group :: reading.outer
    numbered := reading.numbered + 1 }

end Reading

/-- The name of a group starts with a letter or an underscore. -/
def isGroupName : Text → Bool
  | [] => false
  | c :: rest =>
      (c = '_' || Text.isAlphabetic c) &&
        rest.all fun c => c = '_' || c = '.' || c = '[' || c = ']' || Text.isAlphanumeric c

def readGroupName (reading : Reading) (text : Text) : Option (Reading × Text) :=
  (Text.splitAt? ['>'] text).bind fun found =>
    if isGroupName found.1 && !reading.names.contains found.1 then
      some ({ reading.openNumbered with names := found.1 :: reading.names }, found.2)
    else
      none

def readGroup (reading : Reading) (text : Text) : Option (Reading × Text) :=
  let mode := reading.group.mode
  match mode.skip text with
  | '?' :: 'P' :: '<' :: rest => readGroupName reading rest
  | '?' :: '<' :: rest => readGroupName reading rest
  | '?' :: rest =>
      match Mode.readLetters [] mode rest with
      | some (mode, ':' :: rest) => some (reading.openPlain mode, rest)
      | some (mode, _ :: rest) =>
          some ({ reading with group := reading.group.switchMode mode }, rest)
      | _ => none
  | rest => some (reading.openNumbered, rest)

def closeGroup (reading : Reading) : Option Reading :=
  match reading.outer with
  | [] => none
  | parent :: outer =>
      let closed := reading.group.close
      some { reading with group := parent.add closed.value closed.depth, outer := outer }

/-- Repeat what was read last; a question mark right behind the sign prefers less. -/
def readRepetition (reading : Reading) (count : Count) (text : Text) : Option (Reading × Text) :=
  let lazy := text.head? = some '?'
  (reading.group.repeatLast? count lazy).map fun group =>
    ({ reading with group := group }, if lazy then text.drop 1 else text)

/-- What a dot stands for; there is no such set within ASCII. -/
def dot? (mode : Mode) : Option Pattern :=
  let excluded : List (Nat × Nat) :=
    if mode.dotAll then []
    else if mode.anyLineEnds then [('\n'.toNat, '\n'.toNat), ('\r'.toNat, '\r'.toNat)]
    else [('\n'.toNat, '\n'.toNat)]
  if mode.unicode then some (.oneOf (CharSet.ofRanges excluded).complement) else none

def startPlace (mode : Mode) : Place :=
  if mode.multiLine then
    if mode.anyLineEnds then .anyLineStart else .lineStart
  else
    .textStart

def endPlace (mode : Mode) : Place :=
  if mode.multiLine then
    if mode.anyLineEnds then .anyLineEnd else .lineEnd
  else
    .textEnd

def Sign.pattern (mode : Mode) : Sign → Pattern
  | character c => ofSet (mode.cased (.single c))
  | oneOf set => ofSet set
  | place here => .place here

def Reading.add (reading : Reading) (pattern : Pattern) (depth : Nat) : Reading :=
  { reading with group := reading.group.add pattern depth }

def readPart (reading : Reading) : Text → Option (Reading × Text)
  | [] => none
  | c :: rest =>
      let mode := reading.group.mode
      match c with
      | '(' => readGroup reading rest
      | ')' => (closeGroup reading).map fun reading => (reading, rest)
      | '|' => some ({ reading with group := reading.group.nextAlternative }, rest)
      | '[' =>
          (readBracket mode rest).map fun found =>
            (reading.add (ofSet found.1.value) found.1.depth, found.2)
      | '?' => readRepetition reading .optional rest
      | '*' => readRepetition reading .any rest
      | '+' => readRepetition reading .positive rest
      | '\x7b' => none
      | '\\' =>
          (readEscape mode rest).map fun found =>
            (reading.add (found.1.pattern mode) 0, found.2)
      | '.' => (dot? mode).map fun pattern => (reading.add pattern 0, rest)
      | '^' => some (reading.add (.place (startPlace mode)) 0, rest)
      | '$' => some (reading.add (.place (endPlace mode)) 0, rest)
      | c => some (reading.add ((Sign.character c).pattern mode) 0, rest)

def readParts (reading : Reading) (text : Text) : Option Reading :=
  match reading.group.mode.skip text with
  | [] => some reading
  | c :: rest =>
      match readPart reading (c :: rest) with
      | none => none
      | some (reading, rest) =>
          if rest.length < text.length then readParts reading rest else none
termination_by text.length

def parse? (text : Text) : Option Pattern :=
  (readParts .start text).bind fun reading =>
    let content := reading.group.content
    if reading.outer.isEmpty && content.depth ≤ maxDepth then some content.value else none

end Pattern

end TemplateDocs

import TemplateDocs.Text.Blank
import TemplateDocs.Text.Word

/-!
# Lines of a comment

Every line of a comment declares a parameter, sets a tag, or is text.  In front
of a declaration or a tag there may be blanks, two dashes, and blanks again.
-/

namespace TemplateDocs

/-- What a line of a comment says. -/
inductive CommentLine where
  | param (name description : Text)
  /-- A tag, its name with the at sign, and its value. -/
  | tag (name value : Text)
  /-- A line of blanks; `captured` is what it adds to a text. -/
  | blank (captured : Text)
  /-- Any other line; `captured` is what it adds to a text. -/
  | text (captured : Text)
deriving DecidableEq, Repr

namespace CommentLine

def dashes : Text :=
  ['-', '-']

def paramWord : Text :=
  ['@', 'p', 'a', 'r', 'a', 'm']

/-- The line without the blanks at its start and without two dashes behind them. -/
def withoutDashes (line : Text) : Text :=
  let inner := Text.trimStart line
  (Text.after? dashes inner).getD inner

/-- A word and what follows it behind the blanks, if there is a word. -/
def word? (text : Text) : Option (Text × Text) :=
  let word := text.takeWhile Text.isWord
  if word.isEmpty then
    none
  else
    some (word, Text.trimStart (text.dropWhile Text.isWord))

def startsBlank : Text → Bool
  | [] => false
  | c :: _ => Text.isBlank c

def param? (line : Text) : Option (Text × Text) :=
  (Text.after? paramWord (Text.trimStart (withoutDashes line))).bind fun rest =>
    if startsBlank rest then word? (Text.trimStart rest) else none

def tag? (line : Text) : Option (Text × Text) :=
  match Text.trimStart (withoutDashes line) with
  | '@' :: rest => (word? rest).map fun found => ('@' :: found.1, found.2)
  | _ => none

/-- What a line adds to a text: any indentation counts as one space. -/
def captured (line : Text) : Text :=
  if startsBlank line then ' ' :: withoutDashes line else withoutDashes line

def ofText (line : Text) : CommentLine :=
  match param? line with
  | some (name, description) => param name description
  | none =>
      match tag? line with
      | some (name, value) => tag name value
      | none => if Text.allBlank line then blank (captured line) else text (captured line)

end CommentLine

end TemplateDocs

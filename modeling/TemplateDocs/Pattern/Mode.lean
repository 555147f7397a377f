import TemplateDocs.Pattern.CharSet
import TemplateDocs.Text.Blank
import TemplateDocs.Text.Word

/-!
# Modes of a pattern

Letters in a group that starts with a question mark switch modes on, and behind a
hyphen off.  They decide what the signs of a pattern stand for, and in one of them
blanks and comments between the signs are passed over.
-/

namespace TemplateDocs

namespace Pattern

structure Mode where
  anyCase : Bool
  /-- Do line anchors hold at every line? -/
  multiLine : Bool
  dotAll : Bool
  /-- Do repetitions prefer less where they otherwise prefer more? -/
  swapGreed : Bool
  /-- Do classes go beyond ASCII? -/
  unicode : Bool
  /-- May lines end with a carriage return too? -/
  anyLineEnds : Bool
  /-- Are blanks and comments passed over? -/
  verbose : Bool
deriving DecidableEq, Repr

namespace Mode

def initial : Mode :=
  ⟨false, false, false, false, true, false, false⟩

def switch? (mode : Mode) (letter : Char) (on : Bool) : Option Mode :=
  match letter with
  | 'i' => some { mode with anyCase := on }
  | 'm' => some { mode with multiLine := on }
  | 's' => some { mode with dotAll := on }
  | 'U' => some { mode with swapGreed := on }
  | 'u' => some { mode with unicode := on }
  | 'R' => some { mode with anyLineEnds := on }
  | 'x' => some { mode with verbose := on }
  | _ => none

/--
Read the letters behind a question mark, up to the colon or the closing
parenthesis that ends them, which stays with the rest.  `seen` are the signs before,
the last one first: none may occur twice, a hyphen may not be the last, and a
parenthesis may not be the first.
-/
def readLetters (seen : Text) (mode : Mode) : Text → Option (Mode × Text)
  | [] => none
  | c :: rest =>
      if c = ':' || c = ')' then
        if seen.head? = some '-' || (c = ')' && seen.isEmpty) then none else some (mode, c :: rest)
      else if seen.contains c then
        none
      else if c = '-' then
        readLetters (c :: seen) mode rest
      else
        (mode.switch? c (!seen.contains '-')).bind fun mode => readLetters (c :: seen) mode rest

/-- A text without the blanks and comments at its start; a comment ends with its line. -/
def skipBlanks (inComment : Bool) : Text → Text
  | [] => []
  | c :: rest =>
      if inComment then
        skipBlanks (c != '\n') rest
      else if Text.isBlank c then
        skipBlanks false rest
      else if c = '#' then
        skipBlanks true rest
      else
        c :: rest

def skip (mode : Mode) (text : Text) : Text :=
  if mode.verbose then skipBlanks false text else text

/--
The next sign where blanks may be passed over, for a look ahead.  The look goes into
a comment and finds the first sign in it.
-/
def glance (mode : Mode) (text : Text) : Option Char :=
  if mode.verbose then
    let signs := text.dropWhile Text.isBlank
    let found :=
      match signs with
      | '#' :: rest => (rest.dropWhile Text.isBlank).head?
      | _ => signs.head?
    found.or text.head?
  else
    text.head?

/-- A set, with both cases of its letters where the mode asks for them. -/
def cased (mode : Mode) (set : CharSet) : CharSet :=
  if mode.anyCase then
    set.folded (if mode.unicode then Text.foldPairs else Text.asciiPairs)
  else
    set

/-- A set, or what is not in it; within ASCII there is no such set. -/
def negated? (mode : Mode) (negated : Bool) (set : CharSet) : Option CharSet :=
  if negated then
    if mode.unicode then some set.complement else none
  else
    some set

theorem length_skipBlanks_le (inComment : Bool) (text : Text) :
    (skipBlanks inComment text).length ≤ text.length := by
  induction text generalizing inComment with
  | nil => simp [skipBlanks]
  | cons c rest ih =>
      simp only [skipBlanks]
      split
      · exact Nat.le_succ_of_le (ih _)
      · split
        · exact Nat.le_succ_of_le (ih _)
        · split
          · exact Nat.le_succ_of_le (ih _)
          · exact Nat.le_refl _

theorem length_skip_le (mode : Mode) (text : Text) : (mode.skip text).length ≤ text.length := by
  unfold skip
  split
  · exact length_skipBlanks_le false text
  · exact Nat.le_refl _

end Mode

end Pattern

end TemplateDocs

import TemplateDocs.Text.Basic

/-!
# Positions

A position is a line and a column, both counted from one.  Positions are
compared by line, and by column within a line.  A position moves over a text
character by character: a line feed ends the line, a carriage return ends it
unless a line feed follows, and every other character moves one column.
-/

namespace TemplateDocs

structure Position where
  line : Nat
  column : Nat
deriving DecidableEq, Repr, Inhabited

namespace Position

def origin : Position :=
  ⟨1, 1⟩

/-- Line by line, and by column within a line. -/
instance : LT Position where
  lt a b := a.line < b.line ∨ a.line = b.line ∧ a.column < b.column

instance (a b : Position) : Decidable (a < b) :=
  inferInstanceAs (Decidable (a.line < b.line ∨ a.line = b.line ∧ a.column < b.column))

theorem lt_def {a b : Position} :
    a < b ↔ a.line < b.line ∨ a.line = b.line ∧ a.column < b.column :=
  Iff.rfl

def max (a b : Position) : Position :=
  if a < b then b else a

/-- Does the character end its line, when `following` is the next one? -/
def endsLine (c : Char) (following : Option Char) : Bool :=
  c = '\n' || (c = '\r' && following != some '\n')

def step (position : Position) (c : Char) (following : Option Char) : Position :=
  if endsLine c following then
    ⟨position.line + 1, 1⟩
  else
    ⟨position.line, position.column + 1⟩

/--
The position behind `text`, when `following` is the character that comes after
the whole of it.
-/
def advance (position : Position) (text : Text) (following : Option Char) : Position :=
  match text with
  | [] => position
  | c :: rest => (position.step c (rest.head?.or following)).advance rest following

def ofOffset (source : Text) (offset : Nat) : Position :=
  origin.advance (source.take offset) (source.drop offset).head?

def render (position : Position) : Text :=
  Text.ofNat position.line ++ [':'] ++ Text.ofNat position.column

theorem lt_irrefl (a : Position) : ¬ a < a := by
  simp [lt_def]

theorem lt_trans {a b c : Position} (hab : a < b) (hbc : b < c) : a < c := by
  rw [lt_def] at *
  omega

theorem lt_step (position : Position) (c : Char) (following : Option Char) :
    position < position.step c following := by
  unfold step
  split <;> simp [lt_def]

theorem advance_append (position : Position) (first second : Text)
    (following : Option Char) :
    position.advance (first ++ second) following =
      (position.advance first (second.head?.or following)).advance second following := by
  induction first generalizing position with
  | nil => rfl
  | cons c first ih =>
      simp only [List.cons_append, advance, ih]
      cases first with
      | nil => simp
      | cons d first => simp

theorem lt_advance {position : Position} {text : Text} {following : Option Char}
    (h : text ≠ []) : position < position.advance text following := by
  induction text generalizing position with
  | nil => exact absurd rfl h
  | cons c rest ih =>
      simp only [advance]
      by_cases hrest : rest = []
      · subst hrest
        exact lt_step ..
      · exact lt_trans (lt_step ..) (ih hrest)

end Position

end TemplateDocs

import TemplateDocs.Text.Basic

/-!
# Cutting a text into pieces

A function that takes the first piece off a text cuts the whole text into
pieces.  When every piece holds at least one character and no character is
dropped, the pieces put together are the text again (`flatMap_cut`).
-/

namespace TemplateDocs

namespace Text

variable {α : Type}

/-- Fuelled cut; every piece uses up one unit. -/
def cutWith (next : Text → α × Text) : Nat → Text → List α
  | 0, _ => []
  | _ + 1, [] => []
  | fuel + 1, c :: rest =>
      let found := next (c :: rest)
      found.1 :: cutWith next fuel found.2

/-- The pieces that `next` takes off a text one after the other. -/
def cut (next : Text → α × Text) (text : Text) : List α :=
  cutWith next text.length text

/--
The rule that makes a cut lossless: the first piece is not empty, and with the
rest it makes up the text.
-/
def Tiles (next : Text → α × Text) (lexeme : α → Text) : Prop :=
  ∀ text, text ≠ [] →
    lexeme (next text).1 ≠ [] ∧ lexeme (next text).1 ++ (next text).2 = text

theorem Tiles.length_lt {next : Text → α × Text} {lexeme : α → Text}
    (tiles : Tiles next lexeme) {text : Text} (h : text ≠ []) :
    (next text).2.length < text.length := by
  obtain ⟨hne, happend⟩ := tiles text h
  have hlength := congrArg List.length happend
  have hpos := List.length_pos_iff.mpr hne
  simp only [List.length_append] at hlength
  omega

theorem Tiles.cutWith_eq {next : Text → α × Text} {lexeme : α → Text}
    (tiles : Tiles next lexeme) {n m : Nat} {text : Text}
    (hn : text.length ≤ n) (hm : text.length ≤ m) :
    cutWith next n text = cutWith next m text := by
  induction n generalizing m text with
  | zero =>
      cases text with
      | nil => cases m <;> rfl
      | cons c rest => simp at hn
  | succ n ih =>
      cases text with
      | nil => cases m <;> rfl
      | cons c rest =>
          cases m with
          | zero => simp at hm
          | succ m =>
              have hlt := tiles.length_lt (List.cons_ne_nil c rest)
              simp only [List.length_cons] at hn hm hlt
              simp only [cutWith]
              rw [ih (m := m) (by omega) (by omega)]

@[simp] theorem cut_nil (next : Text → α × Text) : cut next [] = [] :=
  rfl

theorem Tiles.cut_of_ne_nil {next : Text → α × Text} {lexeme : α → Text}
    (tiles : Tiles next lexeme) {text : Text} (h : text ≠ []) :
    cut next text = (next text).1 :: cut next (next text).2 := by
  cases text with
  | nil => exact absurd rfl h
  | cons c rest =>
      have hlt := tiles.length_lt h
      simp only [List.length_cons] at hlt
      simp only [cut, List.length_cons, cutWith]
      rw [tiles.cutWith_eq (by omega) (Nat.le_refl _)]

theorem Tiles.flatMap_cut {next : Text → α × Text} {lexeme : α → Text}
    (tiles : Tiles next lexeme) (text : Text) :
    (cut next text).flatMap lexeme = text := by
  suffices hall : ∀ n (text : Text), text.length ≤ n →
      (cut next text).flatMap lexeme = text from hall _ text (Nat.le_refl _)
  intro n
  induction n with
  | zero =>
      intro text hn
      rw [List.length_eq_zero_iff.mp (Nat.le_zero.mp hn)]
      rfl
  | succ n ih =>
      intro text hn
      by_cases h : text = []
      · subst h
        rfl
      · have hlt := tiles.length_lt h
        rw [tiles.cut_of_ne_nil h, List.flatMap_cons, ih _ (by omega)]
        exact (tiles text h).2

theorem forall_mem_cutWith {next : Text → α × Text} {P : α → Prop}
    (h : ∀ text, text ≠ [] → P (next text).1) {fuel : Nat} {text : Text} {piece : α}
    (hpiece : piece ∈ cutWith next fuel text) : P piece := by
  induction fuel generalizing text with
  | zero => cases hpiece
  | succ fuel ih =>
      cases text with
      | nil => cases hpiece
      | cons c rest =>
          rcases List.mem_cons.mp hpiece with rfl | hrest
          · exact h _ (List.cons_ne_nil c rest)
          · exact ih hrest

theorem forall_mem_cut {next : Text → α × Text} {P : α → Prop}
    (h : ∀ text, text ≠ [] → P (next text).1) {text : Text} {piece : α}
    (hpiece : piece ∈ cut next text) : P piece :=
  forall_mem_cutWith h hpiece

theorem Tiles.lexeme_ne_nil_of_mem_cut {next : Text → α × Text} {lexeme : α → Text}
    (tiles : Tiles next lexeme) {text : Text} {piece : α}
    (hpiece : piece ∈ cut next text) : lexeme piece ≠ [] :=
  forall_mem_cut (P := fun piece => lexeme piece ≠ []) (fun text hne => (tiles text hne).1) hpiece

end Text

end TemplateDocs

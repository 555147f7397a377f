import TemplateDocs.Cli.Console
import TemplateDocs.Text.Blank

/-!
# Legible consoles

A console may break a text wherever it likes, as long as it loses nothing but blanks
there.  It is legible if every report starts with its code, if the message stands
behind the sign of its severity, and if the advice comes last.  The plain console is
legible (`Console.legible_plain`).
-/

namespace TemplateDocs

namespace Cli

/-- A text comes in pieces; between them and at its end blanks may be missing. -/
inductive Broken : Text → List Text → Prop
  | last {piece gap : Text} (hgap : Text.allBlank gap = true) : Broken (piece ++ gap) [piece]
  | cons {piece gap rest : Text} {pieces : List Text} (hgap : Text.allBlank gap = true)
      (h : Broken rest pieces) : Broken (piece ++ (gap ++ rest)) (piece :: pieces)

theorem Broken.extend {text piece : Text} {pieces : List Text}
    (h : Broken text (piece :: pieces)) (c : Char) :
    Broken (c :: text) ((c :: piece) :: pieces) := by
  cases h with
  | last hgap => exact @Broken.last (c :: piece) _ hgap
  | cons hgap h => exact @Broken.cons (c :: piece) _ _ _ hgap h

theorem broken_splitOn (text : Text) : Broken text (Text.splitOn '\n' text) := by
  induction text with
  | nil => exact @Broken.last [] [] rfl
  | cons c rest ih =>
      rw [Text.splitOn]
      by_cases hbreak : c = '\n'
      · rw [if_pos hbreak, hbreak]
        exact @Broken.cons [] ['\n'] rest _ rfl ih
      · rw [if_neg hbreak]
        cases hparts : Text.splitOn '\n' rest with
        | nil =>
            rw [hparts] at ih
            cases ih
        | cons part parts =>
            rw [hparts] at ih
            exact ih.extend c

/-- The lines hold a text, the first of them behind one lead and the others behind another. -/
def Wraps (first next text : Text) (lines : List Text) : Prop :=
  ∃ start pieces, Broken text (start :: pieces) ∧
    lines = (first ++ start) :: pieces.map (next ++ ·)

theorem wraps_led (first next text : Text) :
    Wraps first next text (Report.led first next text) := by
  have h := broken_splitOn text
  unfold Report.led
  cases hparts : Text.splitOn '\n' text with
  | nil =>
      rw [hparts] at h
      cases h
  | cons start pieces =>
      rw [hparts] at h
      exact ⟨start, pieces, h, rfl⟩

/-- The lines show a code, a message behind a sign, and the advice there is. -/
def Shows (sign bar : Char) (code message : Text) (help : Option Text) (lines : List Text) :
    Prop :=
  ∃ told advice, lines = [code, []] ++ told ++ advice ++ [[]] ∧
    Wraps [' ', ' ', sign, ' '] [' ', ' ', bar, ' '] message told ∧
    match help with
    | some help => Wraps "  help: ".toList "        ".toList help advice
    | none => advice = []

namespace Console

/-- Every report is shown in full, whatever its lines look like otherwise. -/
def Legible (console : Console) : Prop :=
  ∀ color report, Shows (Severity.sign color report.severity) (Report.bar color) report.code
    report.message report.help (console.report color report)

theorem legible_plain : plain.Legible := by
  intro color report
  refine ⟨_, _, rfl, wraps_led _ _ _, ?_⟩
  cases report.help with
  | some help => exact wraps_led _ _ help
  | none => rfl

end Console

end Cli

end TemplateDocs

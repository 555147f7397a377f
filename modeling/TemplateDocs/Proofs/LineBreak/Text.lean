import TemplateDocs.Position
import TemplateDocs.Template.Tag
import TemplateDocs.Text.Cut
import TemplateDocs.Text.Lines

/-!
# Line breaks of two characters

`withReturns` puts a carriage return in front of every line feed.  A reader that
treats the two characters alike, or looks for texts that hold neither, reads the
same pieces from both texts.
-/

namespace TemplateDocs

namespace Text

def withReturns (text : Text) : Text :=
  text.flatMap fun c => if c = '\n' then ['\r', '\n'] else [c]

/-- Every line feed stands alone: no carriage return, and no backslash right before it. -/
structure PlainBreaks (text : Text) : Prop where
  notMem : '\r' ∉ text
  unescaped : ¬ ['\\', '\n'] <:+: text

theorem PlainBreaks.of_infix {text part : Text} (h : PlainBreaks text) (hpart : part <:+: text) :
    PlainBreaks part where
  notMem := fun hmem => h.notMem (hpart.subset hmem)
  unescaped := fun hescaped => h.unescaped (hescaped.trans hpart)

theorem PlainBreaks.of_cons {c : Char} {rest : Text} (h : PlainBreaks (c :: rest)) :
    PlainBreaks rest :=
  h.of_infix (List.suffix_cons c rest).isInfix

@[simp] theorem withReturns_nil : withReturns [] = [] :=
  rfl

@[simp] theorem withReturns_break (rest : Text) :
    withReturns ('\n' :: rest) = '\r' :: '\n' :: withReturns rest :=
  rfl

theorem withReturns_cons {c : Char} (h : c ≠ '\n') (rest : Text) :
    withReturns (c :: rest) = c :: withReturns rest := by
  simp [withReturns, h]

@[simp] theorem withReturns_append (first second : Text) :
    withReturns (first ++ second) = withReturns first ++ withReturns second :=
  List.flatMap_append

theorem withReturns_of_notMem {text : Text} (h : '\n' ∉ text) : withReturns text = text := by
  induction text with
  | nil => rfl
  | cons c rest ih =>
      rw [List.mem_cons, not_or] at h
      rw [withReturns_cons (Ne.symm h.1), ih h.2]

theorem withReturns_ne_nil {text : Text} (h : text ≠ []) : withReturns text ≠ [] := by
  obtain ⟨c, rest, rfl⟩ := List.exists_cons_of_ne_nil h
  by_cases hc : c = '\n'
  · subst hc
    exact List.cons_ne_nil _ _
  · rw [withReturns_cons hc]
    exact List.cons_ne_nil _ _

/-! ### Fixed texts without breaks -/

def IsUnbroken (text : Text) : Prop :=
  ∀ c ∈ text, c ≠ '\r' ∧ c ≠ '\n'

instance (text : Text) : Decidable (IsUnbroken text) :=
  List.decidableBAll (fun c => c ≠ '\r' ∧ c ≠ '\n') text

theorem IsUnbroken.withReturns_eq {text : Text} (h : IsUnbroken text) : withReturns text = text :=
  withReturns_of_notMem fun hmem => (h _ hmem).2 rfl

theorem after?_withReturns {lead : Text} (hlead : IsUnbroken lead) (text : Text) :
    after? lead (withReturns text) = (after? lead text).map withReturns := by
  induction lead generalizing text with
  | nil => rfl
  | cons expected lead ih =>
      obtain ⟨hreturn, hfeed⟩ := hlead expected List.mem_cons_self
      have hrest : IsUnbroken lead := fun c hc => hlead c (List.mem_cons_of_mem expected hc)
      cases text with
      | nil => rfl
      | cons c rest =>
          by_cases hc : c = '\n'
          · subst hc
            simp [after?, hreturn, hfeed]
          · rw [withReturns_cons hc]
            by_cases hexpected : expected = c
            · simp [after?, hexpected, ih hrest]
            · simp [after?, hexpected]

theorem startsWith_withReturns {lead : Text} (hlead : IsUnbroken lead) (text : Text) :
    startsWith lead (withReturns text) = startsWith lead text := by
  simp [startsWith, after?_withReturns hlead]

theorem after?_cons_of_ne {expected c : Char} (h : expected ≠ c) (lead rest : Text) :
    after? (expected :: lead) (c :: rest) = none := by
  simp [after?, h]

theorem splitAt?_withReturns {c : Char} {mark : Text} (hmark : IsUnbroken (c :: mark))
    (text : Text) :
    splitAt? (c :: mark) (withReturns text) =
      (splitAt? (c :: mark) text).map (Prod.map withReturns withReturns) := by
  obtain ⟨hreturn, hfeed⟩ := hmark c List.mem_cons_self
  induction text with
  | nil => rfl
  | cons d rest ih =>
      by_cases hd : d = '\n'
      · subst hd
        rw [withReturns_break]
        simp only [splitAt?, after?_cons_of_ne hreturn, after?_cons_of_ne hfeed, ih,
          Option.map_map]
        rfl
      · have hafter := after?_withReturns hmark (d :: rest)
        rw [withReturns_cons hd] at hafter ⊢
        simp only [splitAt?, hafter]
        cases after? (c :: mark) (d :: rest) with
        | some tail => rfl
        | none =>
            simp only [Option.map_none, ih, Option.map_map]
            congr 1
            funext found
            simp [withReturns_cons hd]

/-! ### Readers that treat the two characters alike -/

section Uniform

variable {p : Char → Bool}

theorem takeWhile_withReturns (h : p '\r' = p '\n') (text : Text) :
    (withReturns text).takeWhile p = withReturns (text.takeWhile p) := by
  induction text with
  | nil => rfl
  | cons c rest ih =>
      by_cases hc : c = '\n'
      · subst hc
        cases hp : p '\n' with
        | true => simp [h, hp, ih]
        | false => simp [h, hp]
      · cases hp : p c with
        | true => simp [withReturns_cons hc, hp, ih]
        | false => simp [withReturns_cons hc, hp]

theorem dropWhile_withReturns (h : p '\r' = p '\n') (text : Text) :
    (withReturns text).dropWhile p = withReturns (text.dropWhile p) := by
  induction text with
  | nil => rfl
  | cons c rest ih =>
      by_cases hc : c = '\n'
      · subst hc
        cases hp : p '\n' with
        | true => simp [h, hp, ih]
        | false => simp [h, hp]
      · cases hp : p c with
        | true => simp [withReturns_cons hc, hp, ih]
        | false => simp [withReturns_cons hc, hp]

theorem notMem_takeWhile (h : p '\n' = false) (text : Text) : '\n' ∉ text.takeWhile p := by
  intro hmem
  have hp : p '\n' = true := List.all_eq_true.mp List.all_takeWhile '\n' hmem
  rw [h] at hp
  cases hp

theorem takeWhile_withReturns_of_false (hreturn : p '\r' = false) (hfeed : p '\n' = false)
    (text : Text) : (withReturns text).takeWhile p = text.takeWhile p := by
  rw [takeWhile_withReturns (hreturn.trans hfeed.symm),
    withReturns_of_notMem (notMem_takeWhile hfeed text)]

end Uniform

@[simp] theorem takeWhile_isGap_withReturns (text : Text) :
    (withReturns text).takeWhile isGap = withReturns (text.takeWhile isGap) :=
  takeWhile_withReturns rfl text

@[simp] theorem dropWhile_isGap_withReturns (text : Text) :
    (withReturns text).dropWhile isGap = withReturns (text.dropWhile isGap) :=
  dropWhile_withReturns rfl text

theorem allBlank_withReturns (text : Text) : allBlank (withReturns text) = allBlank text := by
  have hreturn : isBlank '\r' = true := rfl
  have hfeed : isBlank '\n' = true := rfl
  unfold allBlank
  induction text with
  | nil => rfl
  | cons c rest ih =>
      by_cases hc : c = '\n'
      · subst hc
        simp [hreturn, hfeed, ih]
      · simp [withReturns_cons hc, ih]

/-- A return and a feed end one line, as the feed alone does. -/
theorem lines_withReturns {text : Text} (h : '\r' ∉ text) :
    lines (withReturns text) = lines text := by
  induction text with
  | nil => rfl
  | cons c rest ih =>
      rw [List.mem_cons, not_or] at h
      have hreturn : ¬ c = '\r' := Ne.symm h.1
      by_cases hc : c = '\n'
      · subst hc
        simp [lines, ih h.2]
      · simp [withReturns_cons hc, lines, hc, hreturn, ih h.2]

theorem Tiles.cut_withReturns {α : Type} {next : Text → α × Text} {lexeme : α → Text}
    (tiles : Tiles next lexeme) {change : α → α}
    (hnext : ∀ text, PlainBreaks text →
      next (withReturns text) = (next text).map change withReturns)
    {text : Text} (h : PlainBreaks text) :
    cut next (withReturns text) = (cut next text).map change := by
  induction hlength : text.length using Nat.strongRecOn generalizing text with
  | ind length ih =>
      subst hlength
      by_cases hne : text = []
      · subst hne
        rfl
      · have hrest : PlainBreaks (next text).2 :=
          h.of_infix ⟨lexeme (next text).1, [], by rw [List.append_nil, (tiles text hne).2]⟩
        rw [tiles.cut_of_ne_nil (withReturns_ne_nil hne), tiles.cut_of_ne_nil hne, hnext text h,
          List.map_cons]
        exact congrArg (change (next text).1 :: ·) (ih _ (tiles.length_lt hne) hrest rfl)

end Text

theorem Tag.ne_of_isQuote {quote : Char} (h : isQuote quote = true) :
    '\r' ≠ quote ∧ '\n' ≠ quote := by
  constructor <;> rintro rfl <;> cases h

/--
A stretch leads to the same position with and without returns, whatever follows it:
no return is the last character of the stretch, so each one stands before its feed.
-/
theorem Position.advance_withReturns {text : Text} (h : '\r' ∉ text) (position : Position)
    (following other : Option Char) :
    position.advance text.withReturns other = position.advance text following := by
  induction text generalizing position with
  | nil => rfl
  | cons c rest ih =>
      rw [List.mem_cons, not_or] at h
      have hreturn : ¬ c = '\r' := Ne.symm h.1
      by_cases hc : c = '\n'
      · subst hc
        simp [advance, step, endsLine, ih h.2]
      · simp [Text.withReturns_cons hc, advance, step, endsLine, hc, hreturn, ih h.2]

end TemplateDocs

import TemplateDocs.Text.Blank

/-!
# Stretches of a text

A stretch of a text is given by its two offsets.  Stretches that follow each other
are put together, and a stretch is blank up to the first character that is not
(`solidFrom_eq_iff`).
-/

namespace TemplateDocs

namespace Text

/-- The offset of the first character from an offset on that is not blank, or else the end. -/
def solidFrom (source : Text) (offset : Nat) : Nat :=
  offset + ((source.drop offset).takeWhile isBlank).length

theorem extract_add {source stretch rest : Text} {first middle : Nat}
    (h : source.drop middle = stretch ++ rest) (hle : first ≤ middle) :
    source.extract first (middle + stretch.length) =
      source.extract first middle ++ stretch := by
  have hlength : middle + stretch.length - first = (middle - first) + stretch.length := by omega
  have hdrop : (source.drop first).drop (middle - first) = stretch ++ rest := by
    rw [List.drop_drop, Nat.add_sub_cancel' hle, h]
  rw [List.extract_eq_take_drop, List.extract_eq_take_drop, hlength, List.take_add, hdrop,
    List.take_left]

theorem allBlank_extract_add {source stretch rest : Text} {first middle : Nat}
    (h : source.drop middle = stretch ++ rest) (hle : first ≤ middle) :
    allBlank (source.extract first (middle + stretch.length)) =
      (allBlank (source.extract first middle) && allBlank stretch) := by
  rw [extract_add h hle, allBlank, List.all_append]
  rfl

theorem allBlank_extract_self (source : Text) (offset : Nat) :
    allBlank (source.extract offset offset) = true := by
  rw [List.extract_eq_take_drop, Nat.sub_self, List.take_zero]
  rfl

theorem allBlank_extract_of_drop {source stretch rest : Text} {first last : Nat}
    (h : source.drop first = stretch ++ rest) (hle : first + stretch.length ≤ last) :
    allBlank (source.extract first last) =
      (allBlank stretch && allBlank (source.extract (first + stretch.length) last)) := by
  have hlength : last - first = stretch.length + (last - (first + stretch.length)) := by omega
  have hrest : source.drop (first + stretch.length) = rest := by
    rw [← List.drop_drop, h, List.drop_left]
  rw [List.extract_eq_take_drop, List.extract_eq_take_drop, hrest, h, hlength, List.take_add,
    List.take_left, List.drop_left, allBlank, List.all_append]
  rfl

theorem solidFrom_eq_iff {source rest : Text} {c : Char} {first last : Nat}
    (h : source.drop last = c :: rest) (hc : isBlank c = false) :
    solidFrom source first = last ↔
      first ≤ last ∧ allBlank (source.extract first last) = true := by
  constructor
  · intro hfrom
    subst hfrom
    refine ⟨Nat.le_add_right _ _, ?_⟩
    have hblanks : (source.drop first).take ((source.drop first).takeWhile isBlank).length =
        (source.drop first).takeWhile isBlank :=
      (List.prefix_iff_eq_take.mp (List.takeWhile_prefix _)).symm
    rw [List.extract_eq_take_drop, solidFrom, Nat.add_sub_cancel_left, hblanks]
    exact List.all_takeWhile
  · rintro ⟨hle, hblank⟩
    have hdrop : source.drop first = source.extract first last ++ c :: rest := by
      rw [← h, List.extract_eq_take_drop]
      conv => lhs; rw [← List.take_append_drop (last - first) (source.drop first)]
      rw [List.drop_drop, Nat.add_sub_cancel' hle]
    have hall : ∀ d ∈ source.extract first last, isBlank d = true :=
      List.all_eq_true.mp hblank
    have htaken : (source.drop first).takeWhile isBlank = source.extract first last := by
      rw [hdrop, List.takeWhile_append_of_pos hall, List.takeWhile_cons_of_neg (by simp [hc]),
        List.append_nil]
    have hlast : last ≤ source.length := by
      have hlength := congrArg List.length h
      rw [List.length_drop, List.length_cons] at hlength
      omega
    rw [solidFrom, htaken, List.extract_eq_take_drop, List.length_take, List.length_drop]
    omega

end Text

end TemplateDocs

import TemplateDocs.Position

/-!
# Positions of offsets

The position of an offset moves over every stretch of the source as the stretch
itself says (`ofOffset_add`), so positions have the order of their offsets
(`ofOffset_lt_ofOffset`).
-/

namespace TemplateDocs

namespace Position

theorem not_lt_of_lt {a b : Position} (h : a < b) : ¬ b < a := fun hba =>
  lt_irrefl a (lt_trans h hba)

theorem lt_of_lt_of_not_lt {a b c : Position} (hab : a < b) (hbc : ¬ c < b) : a < c := by
  rw [lt_def] at *
  omega

@[simp] theorem ofOffset_zero (source : Text) : ofOffset source 0 = origin := by
  simp [ofOffset, advance]

theorem ofOffset_add {source stretch rest : Text} {offset : Nat}
    (h : source.drop offset = stretch ++ rest) :
    ofOffset source (offset + stretch.length) =
      (ofOffset source offset).advance stretch rest.head? := by
  have htake : source.take (offset + stretch.length) = source.take offset ++ stretch := by
    rw [List.take_add, h, List.take_left']
    rfl
  have hdrop : source.drop (offset + stretch.length) = rest := by
    rw [← List.drop_drop, h, List.drop_left]
  unfold ofOffset
  rw [htake, hdrop, advance_append, h, List.head?_append]

theorem ofOffset_lt_ofOffset {source : Text} {first second : Nat} (hlt : first < second)
    (hle : second ≤ source.length) : ofOffset source first < ofOffset source second := by
  have hsplit : source.drop first =
      (source.drop first).take (second - first) ++ source.drop second := by
    conv => lhs; rw [← List.take_append_drop (second - first) (source.drop first)]
    rw [List.drop_drop, Nat.add_sub_cancel' (Nat.le_of_lt hlt)]
  have hlength : ((source.drop first).take (second - first)).length = second - first := by
    rw [List.length_take, List.length_drop]
    omega
  have hne : (source.drop first).take (second - first) ≠ [] := by
    intro hnil
    rw [hnil, List.length_nil] at hlength
    omega
  have hadd := ofOffset_add hsplit
  rw [hlength, Nat.add_sub_cancel' (Nat.le_of_lt hlt)] at hadd
  rw [hadd]
  exact lt_advance hne

end Position

end TemplateDocs

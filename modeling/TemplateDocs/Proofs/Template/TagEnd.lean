import TemplateDocs.Template.Tag

/-!
# The end of a tag

The scan for the end of a tag goes over a text or stops inside it (`Scan.pass?`).  A tag
ends at the `>` behind a text if the scan goes over the whole text and stands outside all
quotes and brackets then (`close?_append_eq_some_iff`), whatever is written behind.
-/

namespace TemplateDocs

namespace Tag

/-- Where a scan stands behind a text, or nothing if the tag ends inside it. -/
def Scan.pass? : Scan → Text → Option Scan
  | scan, [] => some scan
  | scan, c :: text =>
      if scan = .plain 0 && c = '>' then none else (scan.next c).pass? text

theorem Scan.pass?_append (scan : Scan) (text behind : Text) :
    scan.pass? (text ++ behind) = (scan.pass? text).bind (·.pass? behind) := by
  induction text generalizing scan with
  | nil => rfl
  | cons c text ih =>
      simp only [List.cons_append, pass?]
      split
      · rfl
      · exact ih (scan.next c)

theorem close?_append_eq_some_iff {scan : Scan} {text behind : Text} :
    close? scan (text ++ '>' :: behind) = some (text, behind) ↔
      scan.pass? text = some (.plain 0) := by
  induction text generalizing scan with
  | nil =>
      by_cases hscan : scan = .plain 0
      · simp [close?, Scan.pass?, hscan]
      · simp [close?, Scan.pass?, hscan]
  | cons c text ih =>
      by_cases hend : (scan = .plain 0 && c = '>') = true
      · simp [close?, Scan.pass?, hend]
      · simp [close?, Scan.pass?, hend, ← ih, Prod.ext_iff]

/-- A scan passes a text if no `>` in it stands outside all quotes and brackets. -/
theorem Scan.pass?_eq_some_iff {scan later : Scan} {text : Text} :
    scan.pass? text = some later ↔
      text.foldl Scan.next scan = later ∧
        ∀ earlier more, text = earlier ++ '>' :: more →
          earlier.foldl Scan.next scan ≠ .plain 0 := by
  induction text generalizing scan with
  | nil => simp [pass?]
  | cons c text ih =>
      rw [pass?, List.foldl_cons]
      by_cases hend : (scan = .plain 0 && c = '>') = true
      · rw [if_pos hend]
        simp only [Bool.and_eq_true, decide_eq_true_eq] at hend
        constructor
        · intro h
          cases h
        · intro h
          exact absurd hend.1 (h.2 [] text (by rw [hend.2]; rfl))
      · rw [if_neg hend, ih]
        refine and_congr_right fun _ =>
          ⟨fun h earlier more hsplit => ?_, fun h earlier more hsplit => ?_⟩
        · cases earlier with
          | nil =>
              intro hscan
              exact hend (by simp [(List.cons.inj hsplit).1, show scan = .plain 0 from hscan])
          | cons d earlier =>
              cases hsplit
              exact h earlier more rfl
        · exact h (c :: earlier) more (by rw [hsplit]; rfl)

theorem split?_eq_some_iff {text body rest : Text} :
    split? text = some (body, rest) ↔
      text = body ++ '>' :: rest ∧ body.foldl Scan.next (.plain 0) = .plain 0 ∧
        ∀ earlier more, body = earlier ++ '>' :: more →
          earlier.foldl Scan.next (.plain 0) ≠ .plain 0 := by
  constructor
  · intro h
    have htext := eq_append_of_split? h
    rw [htext] at h
    exact ⟨htext, Scan.pass?_eq_some_iff.mp (close?_append_eq_some_iff.mp h)⟩
  · intro h
    rw [h.1]
    exact close?_append_eq_some_iff.mpr (Scan.pass?_eq_some_iff.mpr h.2)

theorem close?_eq_none_iff_pass? {scan : Scan} {text : Text} :
    close? scan text = none ↔ scan.pass? text = some (text.foldl Scan.next scan) := by
  induction text generalizing scan with
  | nil => exact ⟨fun _ => rfl, fun _ => rfl⟩
  | cons c text ih =>
      rw [close?, Scan.pass?, List.foldl_cons]
      split
      · simp
      · rw [Option.map_eq_none_iff, ih]

theorem split?_eq_none_iff {text : Text} :
    split? text = none ↔
      ∀ body rest, text = body ++ '>' :: rest → body.foldl Scan.next (.plain 0) ≠ .plain 0 := by
  rw [split?, close?_eq_none_iff_pass?, Scan.pass?_eq_some_iff]
  exact and_iff_right rfl

/-- Where a tag ends does not depend on what stands behind it. -/
theorem split?_append_of_split? {text behind : Text}
    (h : split? (text ++ '>' :: behind) = some (text, behind)) (other : Text) :
    split? (text ++ '>' :: other) = some (text, other) :=
  close?_append_eq_some_iff.mpr (close?_append_eq_some_iff.mp h)

def isQuiet (c : Char) : Bool :=
  !isQuote c && !opensGroup c && !closesGroup c

theorem isQuiet_of_all {p : Char → Bool}
    (hp : ['"', '\'', '(', '[', '\x7b', ')', ']', '\x7d'].all (!p ·) = true) {c : Char}
    (h : p c = true) : isQuiet c = true := by
  have hne {d : Char} (hd : p d = false) : c ≠ d := by
    intro hc
    rw [← hc, h] at hd
    cases hd
  simp only [List.all_cons, List.all_nil, Bool.and_eq_true, Bool.not_eq_true'] at hp
  rcases hp with ⟨h0, h1, h2, h3, h4, h5, h6, h7, -⟩
  simp [isQuiet, isQuote, opensGroup, closesGroup, hne h0, hne h1, hne h2, hne h3, hne h4, hne h5,
    hne h6, hne h7]

theorem Scan.pass?_of_isQuiet {text : Text} (h : ∀ c ∈ text, isQuiet c = true) (depth : Nat) :
    (Scan.plain depth).pass? text =
      if depth != 0 || !text.contains '>' then some (.plain depth) else none := by
  induction text with
  | nil => simp [pass?]
  | cons c text ih =>
      have hquiet := h c List.mem_cons_self
      simp only [isQuiet, Bool.and_eq_true, Bool.not_eq_true'] at hquiet
      have hnext : (Scan.plain depth).next c = .plain depth := by
        simp [next, hquiet.1.1, hquiet.1.2, hquiet.2]
      rw [pass?, hnext, ih fun d hd => h d (List.mem_cons_of_mem c hd)]
      by_cases hdepth : depth = 0
      · by_cases hc : c = '>'
        · simp [hdepth, hc]
        · simp [hdepth, hc, Ne.symm hc]
      · simp [hdepth]

end Tag

end TemplateDocs

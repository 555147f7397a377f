import TemplateDocs.Proofs.Concatenation.Item
import TemplateDocs.Proofs.Template.TagEnd

/-!
# Items in front of a comment

An item that is found in front of a comment is complete before the comment starts, so it
does not depend on what the comment says, nor on what stands behind it.  With another body
the comment is found in its place, and everything else as before (`scan_replace`).
-/

namespace TemplateDocs

namespace Text

theorem exists_splitAt? (mark before behind : Text) :
    ∃ found rest, splitAt? mark (before ++ mark ++ behind) = some (found, rest) ∧
      found.length ≤ before.length := by
  induction before with
  | nil =>
      have hafter : after? mark (mark ++ behind) = some behind := after?_append mark behind
      refine ⟨[], behind, ?_, Nat.le_refl 0⟩
      rw [List.nil_append]
      generalize mark ++ behind = text at hafter
      cases text <;> simp [splitAt?, hafter]
  | cons c before ih =>
      rcases ih with ⟨found, rest, hsplit, hle⟩
      simp only [List.cons_append, splitAt?]
      cases after? mark (c :: (before ++ mark ++ behind)) with
      | some tail => exact ⟨[], tail, rfl, Nat.zero_le _⟩
      | none =>
          refine ⟨c :: found, rest, ?_, Nat.succ_le_succ hle⟩
          rw [hsplit]
          rfl

end Text

namespace Tag

/-- The first end of a comment behind the text is the one that is put there. -/
def IsCommentBody (body : Text) : Prop :=
  ∀ before behind, body ++ commentClose = before ++ commentClose ++ behind → behind = []

theorem isCommentBody_iff {body : Text} :
    IsCommentBody body ↔ Text.splitAt? commentClose (body ++ commentClose) = some (body, []) := by
  constructor
  · intro h
    rcases Text.exists_splitAt? commentClose body [] with ⟨found, rest, hsplit, -⟩
    rw [List.append_nil] at hsplit
    have heq := Text.eq_append_of_splitAt? hsplit
    have hrest := h found rest heq
    subst hrest
    rw [List.append_nil] at heq
    rw [hsplit, List.append_cancel_right heq]
  · intro h before behind heq
    rcases Text.exists_splitAt? commentClose before behind with ⟨found, rest, hsplit, hle⟩
    rw [← heq, h, Option.some.injEq, Prod.mk.injEq] at hsplit
    have hlength := congrArg List.length heq
    rw [List.length_append, List.length_append, List.length_append, hsplit.1] at hlength
    exact List.length_eq_zero_iff.mp (by omega)

end Tag

namespace Item

theorem next_comment {body : Text} (h : Tag.IsCommentBody body) (behind : Text) :
    next ((Leaf.comment body).lexeme ++ behind) = (leaf (.comment body), behind) := by
  have hsplit := Text.splitAt?_append (Tag.isCommentBody_iff.mp h) behind
  have hlexeme : (Leaf.comment body).lexeme ++ behind =
      Tag.commentOpen ++ (body ++ Tag.commentClose ++ behind) := by
    simp [Leaf.lexeme]
  rw [hlexeme, next, if_pos (by rfl), tagItem_commentOpen, hsplit]
  rfl

theorem isNeutral_of_mem_closing {kind : DefinitionKind} {gap : Text}
    (hgap : ∀ c ∈ gap, Text.isGap c = true) {c : Char} (hc : c ∈ closingLead kind ++ gap) :
    isNeutral c = true := by
  rcases List.mem_append.mp hc with hc | hc
  · have hall : (closingLead kind).all isNeutral = true := by cases kind <;> rfl
    exact List.all_eq_true.mp hall c hc
  · have hblank := hgap c hc
    simp only [Text.isGap, Bool.or_eq_true, decide_eq_true_eq] at hblank
    rcases hblank with ((rfl | rfl) | rfl) | rfl <;> rfl

theorem split?_openingLead (kind : DefinitionKind) (inside : Text) :
    Tag.split? (openingLead kind ++ inside) =
      (Tag.split? inside).map fun found => (openingLead kind ++ found.1, found.2) := by
  apply split?_append_of_isNeutral
  intro c hc
  exact isNeutral_of_mem (.opening kind) (.inr ⟨kind, rfl⟩) hc

theorem split?_of_tagItem {text : Text} (hcomment : Text.after? Tag.commentOpen text = none) :
    (∃ body, Tag.split? text = some (body, (tagItem text).2)) ∨
      Tag.split? text = none ∧ ¬ Complete (tagItem text) := by
  rcases tagItem_cases text with h | ⟨kind, h⟩ | ⟨kind, h⟩ | h
  · simp [comment?, hcomment] at h
  · simp only [closing?, Option.bind_eq_some_iff] at h
    rcases h with ⟨inside, hinside, h⟩
    split at h
    · next rest hrest =>
        have hgap : ∀ c ∈ inside.takeWhile Text.isGap, Text.isGap c = true :=
          List.all_eq_true.mp List.all_takeWhile
        have htext : text = closingLead kind ++ inside.takeWhile Text.isGap ++ '>' :: rest := by
          rw [Text.eq_append_of_after? hinside, List.append_assoc, ← hrest,
            List.takeWhile_append_dropWhile]
        have hneutral : ∀ c ∈ closingLead kind ++ inside.takeWhile Text.isGap,
            isNeutral c = true := fun c hc => isNeutral_of_mem_closing hgap hc
        left
        rw [← Option.some.inj h, htext, split?_append_of_isNeutral hneutral]
        exact ⟨_, rfl⟩
    · cases h
  · simp only [opening?, Option.bind_eq_some_iff] at h
    rcases h with ⟨inside, hinside, h⟩
    rw [Text.eq_append_of_after? hinside, split?_openingLead, ← Text.eq_append_of_after? hinside]
    split at h
    · split at h
      · next header rest hsplit =>
          left
          rw [← Option.some.inj h, hsplit]
          exact ⟨_, rfl⟩
      · next hsplit =>
          right
          rw [← Option.some.inj h, hsplit]
          simp [Complete, isSealed]
    · cases h
  · rw [h, otherTag]
    cases hsplit : Tag.split? text with
    | some found => exact .inl ⟨found.1, rfl⟩
    | none => simp [Complete, isSealed]

theorem complete_comment {inside rest behind : Text} {item : Item} (hrest : rest ≠ [])
    (h : tagItem (Tag.commentOpen ++ (inside ++ behind)) = (item, rest ++ behind)) :
    Complete (tagItem (Tag.commentOpen ++ inside)) := by
  rw [tagItem_commentOpen] at h ⊢
  cases hsplit : Text.splitAt? Tag.commentClose (inside ++ behind) with
  | none =>
      rw [hsplit] at h
      simp_all
  | some found =>
      rw [hsplit] at h
      have htail : found.2 = rest ++ behind := congrArg Prod.snd h
      have heq := Text.eq_append_of_splitAt? hsplit
      rw [htail, ← List.append_assoc] at heq
      rcases Text.exists_splitAt? Tag.commentClose found.1 rest with ⟨body, tail, hbody, -⟩
      rw [List.append_cancel_right heq, hbody]
      exact .inl rfl

theorem complete_tag {text rest behind : Text} {item : Item} (hrest : rest ≠ [])
    (hcomment : Text.after? Tag.commentOpen text = none)
    (hmore : Text.after? Tag.commentOpen (text ++ behind) = none)
    (h : tagItem (text ++ behind) = (item, rest ++ behind)) : Complete (tagItem text) := by
  have hsplit : ∃ body, Tag.split? text = some (body, rest) := by
    rcases split?_of_tagItem hmore with ⟨body, hbody⟩ | ⟨-, hnot⟩
    · rw [h] at hbody
      have heq := Tag.eq_append_of_split? hbody
      rw [← List.cons_append, ← List.append_assoc] at heq
      rw [heq, List.append_assoc, List.cons_append] at hbody
      rw [List.append_cancel_right heq]
      exact ⟨body, Tag.split?_append_of_split? hbody rest⟩
    · rw [h] at hnot
      exact absurd (.inr (List.append_ne_nil_of_left_ne_nil hrest behind)) hnot
  rcases hsplit with ⟨body, hbody⟩
  rcases split?_of_tagItem hcomment with ⟨other, hother⟩ | ⟨hnone, -⟩
  · rw [hbody, Option.some.injEq, Prod.mk.injEq] at hother
    right
    rw [← hother.2]
    exact hrest
  · rw [hbody] at hnone
    cases hnone

theorem textRun_append_commentOpen_ne_nil (front : Text) :
    (textRun (front ++ Tag.commentOpen)).2 ≠ [] := by
  induction front with
  | nil => decide
  | cons c front ih =>
      rw [List.cons_append, textRun]
      split
      · simp
      · exact ih

/-- What is found in front of a comment is complete where the comment starts. -/
theorem complete_next {front rest behind : Text} {item : Item} (hne : front ≠ [])
    (h : next (front ++ Tag.commentOpen ++ behind) = (item, rest ++ Tag.commentOpen ++ behind)) :
    Complete (next (front ++ Tag.commentOpen)) := by
  have hmem : '<' ∈ (front ++ Tag.commentOpen).tail := by
    rw [List.tail_append_of_ne_nil hne]
    exact List.mem_append_right _ (by decide)
  have hrest : rest ++ Tag.commentOpen ≠ [] := by simp [Tag.commentOpen]
  have hsettled : front ++ Tag.commentOpen <+: Tag.commentOpen →
      front ++ Tag.commentOpen = Tag.commentOpen := by
    intro hshort
    have hlength := hshort.length_le
    have hpos := List.length_pos_iff.mpr hne
    rw [List.length_append] at hlength
    omega
  have hafter := Text.after?_append_of_settled hsettled behind
  unfold next at h ⊢
  rw [Tag.startsHere_append hmem] at h
  cases hstarts : Tag.startsHere (front ++ Tag.commentOpen) with
  | false => exact .inr (textRun_append_commentOpen_ne_nil front)
  | true =>
      rw [hstarts, if_pos rfl] at h
      rw [if_pos rfl]
      cases hlead : Text.after? Tag.commentOpen (front ++ Tag.commentOpen) with
      | some inside =>
          rw [Text.eq_append_of_after? hlead, List.append_assoc] at h
          rw [Text.eq_append_of_after? hlead]
          exact complete_comment hrest h
      | none =>
          rw [hlead] at hafter
          exact complete_tag hrest hlead hafter h

/-- An item in front of a comment stays the same with anything behind the start of the comment. -/
theorem next_append_commentOpen {front rest behind : Text} {item : Item} (hne : front ≠ [])
    (h : next (front ++ Tag.commentOpen ++ behind) = (item, rest ++ Tag.commentOpen ++ behind))
    (other : Text) :
    next (front ++ Tag.commentOpen ++ other) = (item, rest ++ Tag.commentOpen ++ other) := by
  have hcomplete := complete_next hne h
  rw [next_append hcomplete] at h ⊢
  generalize next (front ++ Tag.commentOpen) = found at h
  have hrest : found.2 = rest ++ Tag.commentOpen := List.append_cancel_right (congrArg Prod.snd h)
  have hitem : found.1 = item := congrArg Prod.fst h
  rw [Prod.map, hrest, hitem]
  rfl

theorem next_eq_of_scan {item : Item} {items : List Item} {rest : Text}
    (h : scan (item.lexeme ++ rest) = item :: items) :
    next (item.lexeme ++ rest) = (item, rest) ∧ scan rest = items := by
  have hne : item.lexeme ++ rest ≠ [] := by
    intro hnil
    rw [hnil] at h
    cases h
  have hlexeme := lexeme_append_next (item.lexeme ++ rest)
  rw [scan_of_ne_nil hne, List.cons.injEq] at h
  rw [h.1] at hlexeme
  have hrest := List.append_cancel_left hlexeme
  exact ⟨Prod.ext h.1 hrest, by rw [← hrest, h.2]⟩

theorem scan_append_commentOpen {items others : List Item} {behind : Text}
    (h : scan (items.flatMap lexeme ++ Tag.commentOpen ++ behind) = items ++ others)
    (other : Text) :
    scan (items.flatMap lexeme ++ Tag.commentOpen ++ other) =
      items ++ scan (Tag.commentOpen ++ other) := by
  induction items with
  | nil => rfl
  | cons item items ih =>
      have hmem : item ∈ scan ((item :: items).flatMap lexeme ++ Tag.commentOpen ++ behind) := by
        rw [h]
        exact List.mem_cons_self
      have hitem := lexeme_ne_nil_of_mem_scan hmem
      have hfront : (item :: items).flatMap lexeme ≠ [] := by simp [hitem]
      have hsplit (behind : Text) : (item :: items).flatMap lexeme ++ Tag.commentOpen ++ behind =
          item.lexeme ++ (items.flatMap lexeme ++ Tag.commentOpen ++ behind) := by
        simp
      rw [hsplit] at h
      have hnext := next_eq_of_scan h
      rw [← hsplit] at hnext
      rw [scan_of_ne_nil (by simp [hitem]), next_append_commentOpen hfront hnext.1, ih hnext.2]
      rfl

/-- With another body a comment is found in its place, and everything else as before. -/
theorem scan_replace {before after : List Item} {body other behind : Text}
    (h : scan (before.flatMap lexeme ++ (Leaf.comment body).lexeme ++ behind) =
      before ++ leaf (.comment body) :: after)
    (hother : Tag.IsCommentBody other) :
    scan (before.flatMap lexeme ++ (Leaf.comment other).lexeme ++ behind) =
      before ++ leaf (.comment other) :: after := by
  have hlexeme (body : Text) : before.flatMap lexeme ++ (Leaf.comment body).lexeme ++ behind =
      before.flatMap lexeme ++ Tag.commentOpen ++ (body ++ Tag.commentClose ++ behind) := by
    simp [Leaf.lexeme]
  have hcomment (body : Text) : Tag.commentOpen ++ (body ++ Tag.commentClose ++ behind) =
      (Leaf.comment body).lexeme ++ behind := by
    simp [Leaf.lexeme]
  rw [hlexeme] at h ⊢
  have hsame := scan_append_commentOpen h (body ++ Tag.commentClose ++ behind)
  have hafter : scan behind = after := by
    rw [h, hcomment] at hsame
    have hscan : scan ((leaf (.comment body)).lexeme ++ behind) = leaf (.comment body) :: after :=
      (List.append_cancel_left hsame).symm
    exact (next_eq_of_scan hscan).2
  have hne : (Leaf.comment other).lexeme ++ behind ≠ [] := by
    simp [Leaf.lexeme, Tag.commentOpen]
  rw [scan_append_commentOpen h, hcomment, scan_of_ne_nil hne, next_comment hother, hafter]

end Item

end TemplateDocs

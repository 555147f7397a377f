import TemplateDocs.Proofs.Tree.Tiling

/-!
# Document order and positions

In a parsed tree a node with a larger number starts later, and starts no earlier
than any leaf before it ends (`start_lt_of_parse`, `stop_le_of_parse`).
-/

namespace TemplateDocs

namespace Outline

theorem SpannedBy.bounds {spans : Nat → Nat × Nat} {first offset : Nat} {outline : Outline}
    (h : outline.SpannedBy spans first offset) {id : Nat} (hle : first ≤ id)
    (hlt : id < first + outline.count) :
    offset ≤ (spans id).1 ∧ (spans id).2 ≤ offset + outline.source.length := by
  induction outline generalizing first offset with
  | nil => exact absurd hlt (Nat.not_lt.mpr hle)
  | leaf part start stop next ih =>
      obtain ⟨hspan, hnext⟩ := h
      rw [count] at hlt
      rw [source, List.length_append]
      by_cases hid : id = first
      · subst hid
        rw [hspan]
        constructor <;> simp only <;> omega
      · have hbounds := ih hnext (by omega) (by omega)
        omega
  | definition opening inside closing next ihInside ihNext =>
      obtain ⟨hspan, hinside, hnext⟩ := h
      rw [count] at hlt
      simp only [source, List.length_append]
      by_cases hid : id = first
      · subst hid
        rw [hspan]
        constructor <;> simp only <;> omega
      · by_cases hid : id < first + inside.count + 1
        · have hbounds := ihInside hinside (by omega) (by omega)
          omega
        · have hbounds := ihNext hnext (by omega) (by omega)
          omega

/-- Later parts start later, and behind the leaves before them. -/
theorem ordered {source : Text} {tree : Tree} {spans : Nat → Nat × Nat}
    {parent first offset : Nat} {outline : Outline}
    (hstands : outline.StandsIn tree parent first)
    (hspanned : outline.SpannedBy spans first offset)
    (hplaced : outline.PlacedAt source offset) {earlier later : Nat} (hle : first ≤ earlier)
    (hlt : earlier < later) (hlater : later < first + outline.count) :
    (spans earlier).1 < (spans later).1 ∧
      ((∀ definition, tree.content? earlier ≠ some (.definition definition)) →
        (spans earlier).2 ≤ (spans later).1) := by
  induction outline generalizing parent first offset with
  | nil =>
      rw [count] at hlater
      omega
  | leaf part start stop next ih =>
      obtain ⟨hnode, hstandsNext⟩ := hstands
      obtain ⟨hspan, hspannedNext⟩ := hspanned
      obtain ⟨hleaf, hplacedNext⟩ := hplaced
      rw [count] at hlater
      by_cases hid : earlier = first
      · subst hid
        have hbounds := hspannedNext.bounds (by omega) (by omega : later < _)
        have hpos : 0 < part.lexeme.length := List.length_pos_iff.mpr hleaf.ne_nil
        rw [hspan]
        exact ⟨by simp only; omega, fun _ => hbounds.1⟩
      · exact ih hstandsNext hspannedNext hplacedNext (by omega) (by omega)
  | definition opening inside closing next ihInside ihNext =>
      obtain ⟨hnode, hstandsInside, hstandsNext⟩ := hstands
      obtain ⟨hspan, hspannedInside, hspannedNext⟩ := hspanned
      obtain ⟨hkind, ⟨headerStop, hopening⟩, hplacedInside, hclosing, hplacedNext⟩ := hplaced
      rw [count] at hlater
      have hpos : 0 < opening.lexeme.length := List.length_pos_iff.mpr hopening.ne_nil
      by_cases hid : earlier = first
      · subst hid
        refine ⟨?_, fun hleaf => absurd ?_ (hleaf (definitionOf opening inside closing))⟩
        · rw [hspan]
          by_cases hinner : later < earlier + inside.count + 1
          · have hbounds := hspannedInside.bounds (by omega) (by omega : later < _)
            simp only
            omega
          · have hbounds := hspannedNext.bounds (by omega) (by omega : later < _)
            simp only
            omega
        · simp [Tree.content?, hnode]
      · by_cases hinner : later < first + inside.count + 1
        · exact ihInside hstandsInside hspannedInside hplacedInside (by omega) (by omega)
        · by_cases hinside : earlier < first + inside.count + 1
          · have hpart := partAt hstandsInside hspannedInside hplacedInside
              (by omega : _ ≤ earlier) (by omega)
            have hne := Tree.ne_nil_of_partAt hpart
            have hearlier := hspannedInside.bounds (by omega) (by omega : earlier < _)
            have hbounds := hspannedNext.bounds (by omega) (by omega : later < _)
            constructor
            · omega
            · intro _
              omega
          · exact ihNext hstandsNext hspannedNext hplacedNext (by omega) (by omega)

end Outline

namespace Tree

variable {source : Text} {tree : Tree}

theorem spans_of_parse (h : parse source = .ok tree) :
    ∃ spans : Nat → Nat × Nat,
      (∀ id node, 0 < id → tree.node? id = some node →
        node.start = .ofOffset source (spans id).1 ∧
          node.stop = .ofOffset source (spans id).2 ∧
          (spans id).1 < (spans id).2 ∧ (spans id).2 ≤ source.length) ∧
      ∀ earlier later, 0 < earlier → earlier < later → later < tree.size →
        (spans earlier).1 < (spans later).1 ∧
          ((∀ definition, tree.content? earlier ≠ some (.definition definition)) →
            (spans earlier).2 ≤ (spans later).1) := by
  obtain ⟨outline, houtline, rfl⟩ := parse_eq_ok_iff.mp h
  refine ⟨outline.span 1 0, fun id node hpos hnode => ?_, fun earlier later hpos hlt hlater => ?_⟩
  · have hpart := partAt_of_parse houtline hpos (lt_size_of_node? hnode)
    obtain ⟨hstart, hstop⟩ := located_of_partAt hpart hnode
    exact ⟨hstart, hstop, ne_nil_of_partAt hpart⟩
  · rw [size_ofOutline] at hlater
    exact Outline.ordered (standsIn_ofOutline outline) (outline.spannedBy_span 1 0)
      (Outline.placedAt_of_parse houtline) hpos hlt (by omega)

theorem start_lt_stop_of_parse (h : parse source = .ok tree) {id : Nat} {node : Node}
    (hpos : 0 < id) (hnode : tree.node? id = some node) : node.start < node.stop := by
  obtain ⟨spans, hspans, -⟩ := spans_of_parse h
  obtain ⟨hstart, hstop, hlt, hle⟩ := hspans id node hpos hnode
  rw [hstart, hstop]
  exact Position.ofOffset_lt_ofOffset hlt hle

section Order

variable {earlier later : Nat} {first second : Node}

theorem start_lt_of_parse (h : parse source = .ok tree) (hpos : 0 < earlier)
    (hlt : earlier < later) (hfirst : tree.node? earlier = some first)
    (hsecond : tree.node? later = some second) : first.start < second.start := by
  obtain ⟨spans, hspans, horder⟩ := spans_of_parse h
  obtain ⟨hstart, -⟩ := hspans earlier first hpos hfirst
  obtain ⟨hstart', -, hne, hle⟩ := hspans later second (by omega) hsecond
  have hbefore := (horder earlier later hpos hlt (lt_size_of_node? hsecond)).1
  rw [hstart, hstart']
  exact Position.ofOffset_lt_ofOffset hbefore (by omega)

theorem stop_le_of_parse (h : parse source = .ok tree) (hpos : 0 < earlier)
    (hlt : earlier < later) (hfirst : tree.node? earlier = some first)
    (hsecond : tree.node? later = some second)
    (hleaf : ∀ definition, first.content ≠ .definition definition) :
    ¬ second.start < first.stop := by
  obtain ⟨spans, hspans, horder⟩ := spans_of_parse h
  obtain ⟨-, hstop, -⟩ := hspans earlier first hpos hfirst
  obtain ⟨hstart, -, hne, hle⟩ := hspans later second (by omega) hsecond
  have hbefore := (horder earlier later hpos hlt (lt_size_of_node? hsecond)).2 fun definition => by
    rw [content?, hfirst]
    simpa using hleaf definition
  rw [hstart, hstop]
  rcases Nat.lt_or_eq_of_le hbefore with hbefore | hbefore
  · exact Position.not_lt_of_lt (Position.ofOffset_lt_ofOffset hbefore (by omega))
  · rw [hbefore]
    exact Position.lt_irrefl _

end Order

end Tree

end TemplateDocs

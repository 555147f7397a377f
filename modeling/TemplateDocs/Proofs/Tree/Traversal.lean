import Mathlib.Data.List.Nodup
import Mathlib.Data.List.Perm.Basic
import TemplateDocs.Proofs.Tree.Growth
import TemplateDocs.Proofs.Tree.Order

/-!
# Document order

The nodes of a tree are walked with a stack: the node on top is taken off, and its children
are put there in its place.  In a tree that has grown by pushes this walk comes to an end,
passes every node once, and lists the nodes as the recursion over the tree does, each before
the nodes below it and these child by child (`preorder_eq_listing`).
-/

namespace TemplateDocs

namespace Tree

variable {tree : Tree}

theorem Rooted.measure_lt (h : tree.Rooted) {id child : Nat} (hchild : child ∈ tree.children id) :
    tree.size - child < tree.size - id := by
  have hparent := (h.mem_children id child).mp hchild
  have hlt := h.lt_of_parent? hparent
  have hsize := lt_size_of_parent? hparent
  omega

/-- A node and all nodes below it, depth first and from left to right. -/
def listing (tree : Tree) (h : tree.Rooted) (id : Nat) : List Nat :=
  id :: (tree.children id).attach.flatMap fun child => tree.listing h child.val
termination_by tree.size - id
decreasing_by exact h.measure_lt child.property

theorem listing_eq (h : tree.Rooted) (id : Nat) :
    tree.listing h id = id :: (tree.children id).flatMap (tree.listing h) := by
  rw [listing, List.flatMap_subtype (g := tree.listing h) (fun _ _ => rfl), List.unattach_attach]

theorem Rooted.induction (h : tree.Rooted) {P : Nat → Prop}
    (step : ∀ id, (∀ child ∈ tree.children id, P child) → P id) (id : Nat) : P id := by
  induction hmeasure : tree.size - id using Nat.strongRecOn generalizing id with
  | ind measure ih =>
      refine step id fun child hchild => ih (tree.size - child) ?_ child rfl
      exact hmeasure ▸ h.measure_lt hchild

/-! ## The walk -/

theorem walk_nil (tree : Tree) (fuel : Nat) : tree.walk fuel [] = [] := by
  cases fuel <;> rfl

theorem walk_flatMap {lists : Nat → List Nat} {ids : List Nat}
    (h : ∀ id ∈ ids, ∀ fuel waiting, tree.walk ((lists id).length + fuel) (id :: waiting) =
      lists id ++ tree.walk fuel waiting) (fuel : Nat) (waiting : List Nat) :
    tree.walk ((ids.flatMap lists).length + fuel) (ids ++ waiting) =
      ids.flatMap lists ++ tree.walk fuel waiting := by
  induction ids with
  | nil => simp
  | cons id rest ih =>
      have hrest := ih fun other hother => h other (List.mem_cons_of_mem id hother)
      rw [List.flatMap_cons, List.length_append, Nat.add_assoc, List.cons_append,
        h id List.mem_cons_self, hrest, List.append_assoc]

theorem walk_listing (h : tree.Rooted) (id fuel : Nat) (waiting : List Nat) :
    tree.walk ((tree.listing h id).length + fuel) (id :: waiting) =
      tree.listing h id ++ tree.walk fuel waiting := by
  induction id using h.induction generalizing fuel waiting with
  | step id ih =>
      rw [listing_eq, List.length_cons, Nat.add_right_comm, walk, walk_flatMap ih,
        List.cons_append]

/-! ## Every node once -/

theorem mem_listing_self (h : tree.Rooted) (id : Nat) : id ∈ tree.listing h id := by
  rw [listing_eq]
  exact List.mem_cons_self

/-- A node of a listing is the one it starts with, or the parent is listed as well. -/
theorem parent_mem_listing (h : tree.Rooted) {id outer : Nat} (hid : id ∈ tree.listing h outer) :
    id = outer ∨ ∃ parent ∈ tree.listing h outer, tree.parent? id = some parent := by
  induction outer using h.induction with
  | step outer ih =>
      rw [listing_eq] at hid
      rcases List.mem_cons.mp hid with rfl | hbelow
      · exact .inl rfl
      · obtain ⟨child, hchild, hid⟩ := List.mem_flatMap.mp hbelow
        refine .inr ?_
        rcases ih child hchild hid with rfl | ⟨parent, hmem, hparent⟩
        · exact ⟨outer, mem_listing_self h outer, (h.mem_children outer id).mp hchild⟩
        · refine ⟨parent, ?_, hparent⟩
          rw [listing_eq]
          exact List.mem_cons_of_mem outer (List.mem_flatMap.mpr ⟨child, hchild, hmem⟩)

theorem child_mem_listing (h : tree.Rooted) {id parent outer : Nat}
    (hmem : parent ∈ tree.listing h outer) (hparent : tree.parent? id = some parent) :
    id ∈ tree.listing h outer := by
  induction outer using h.induction with
  | step outer ih =>
      rw [listing_eq] at hmem ⊢
      refine List.mem_cons_of_mem outer (List.mem_flatMap.mpr ?_)
      rcases List.mem_cons.mp hmem with rfl | hbelow
      · exact ⟨id, (h.mem_children parent id).mpr hparent, mem_listing_self h id⟩
      · obtain ⟨child, hchild, hmem⟩ := List.mem_flatMap.mp hbelow
        exact ⟨child, hchild, ih child hchild hmem⟩

theorem le_of_mem_listing (h : tree.Rooted) {id outer : Nat} (hid : id ∈ tree.listing h outer) :
    outer ≤ id := by
  induction id using Nat.strongRecOn with
  | ind id ih =>
      rcases parent_mem_listing h hid with rfl | ⟨parent, hmem, hparent⟩
      · exact Nat.le_refl _
      · have hlt := h.lt_of_parent? hparent
        have hle := ih parent hlt hmem
        omega

theorem disjoint_listing (h : tree.Rooted) {parent first second : Nat}
    (hfirst : tree.parent? first = some parent) (hsecond : tree.parent? second = some parent)
    (hne : first ≠ second) : (tree.listing h first).Disjoint (tree.listing h second) := by
  intro id hid hid'
  -- Up from parent to parent: the way from the node leads into both listings.
  induction id using Nat.strongRecOn with
  | ind id ih =>
      rcases parent_mem_listing h hid with rfl | ⟨above, habove, hparent⟩
      · rcases parent_mem_listing h hid' with rfl | ⟨above, habove, hparent⟩
        · exact hne rfl
        · rw [hfirst, Option.some.injEq] at hparent
          have hle := le_of_mem_listing h habove
          have hlt := h.lt_of_parent? hsecond
          omega
      · rcases parent_mem_listing h hid' with rfl | ⟨other, hother, hparent'⟩
        · rw [hsecond, Option.some.injEq] at hparent
          have hle := le_of_mem_listing h habove
          have hlt := h.lt_of_parent? hfirst
          omega
        · rw [hparent, Option.some.injEq] at hparent'
          exact ih above (h.lt_of_parent? hparent) habove (hparent' ▸ hother)

theorem nodup_listing (h : tree.Rooted) (id : Nat) : (tree.listing h id).Nodup := by
  induction id using h.induction with
  | step id ih =>
      rw [listing_eq, List.nodup_cons, List.nodup_flatMap]
      refine ⟨fun hmem => ?_, ih, ?_⟩
      · obtain ⟨child, hchild, hid⟩ := List.mem_flatMap.mp hmem
        have hlt := h.lt_of_parent? ((h.mem_children id child).mp hchild)
        exact Nat.not_lt.mpr (le_of_mem_listing h hid) hlt
      · refine (h.nodup_children id).imp_of_mem fun hfirst hsecond hne => ?_
        exact disjoint_listing h ((h.mem_children id _).mp hfirst)
          ((h.mem_children id _).mp hsecond)
          hne

theorem mem_listing_zero (h : tree.Rooted) {id : Nat} : id ∈ tree.listing h 0 ↔ id < tree.size := by
  constructor
  · intro hid
    rcases parent_mem_listing h hid with rfl | ⟨parent, -, hparent⟩
    · exact h.pos
    · exact lt_size_of_parent? hparent
  · intro hid
    induction id using Nat.strongRecOn with
    | ind id ih =>
        rcases Nat.eq_zero_or_pos id with rfl | hpos
        · exact mem_listing_self h 0
        · obtain ⟨parent, hlt, hparent⟩ := h.parent id hpos hid
          exact child_mem_listing h (ih parent hlt (Nat.lt_trans hlt hid)) hparent

theorem listing_zero_perm (h : tree.Rooted) : (tree.listing h 0).Perm (List.range tree.size) := by
  rw [List.perm_ext_iff_of_nodup (nodup_listing h 0) List.nodup_range]
  intro id
  rw [mem_listing_zero h, List.mem_range]

/-- However long it is let run, the walk over a tree lists its nodes once and stops. -/
theorem walk_eq_listing (h : tree.Rooted) {fuel : Nat} (hfuel : tree.size ≤ fuel) :
    tree.walk fuel [0] = tree.listing h 0 := by
  have hlength : (tree.listing h 0).length = tree.size := by
    rw [(listing_zero_perm h).length_eq, List.length_range]
  have hwalk := walk_listing h 0 (fuel - tree.size) []
  rw [hlength, Nat.add_sub_cancel' hfuel, walk_nil, List.append_nil] at hwalk
  exact hwalk

theorem preorder_eq_listing (h : tree.Rooted) : tree.preorder = tree.listing h 0 :=
  walk_eq_listing h (Nat.le_refl _)

/-! ## Grown trees and parsed trees -/

/-- The order of a tree: where its nodes are filed, and how they are walked. -/
structure Arena (tree : Tree) : Prop where
  /-- Every node but the root is filed once, under a parent before it, and is found there. -/
  filed : ∀ id, 0 < id → id < tree.size →
    ∃ parent index, parent < id ∧ tree.parent? id = some parent ∧
      (∀ other, (tree.children other).count id = if other = parent then 1 else 0) ∧
      tree.indexInParent? id = some index ∧ (tree.children parent)[index]? = some id
  /-- Nothing else is filed, and the root has no place. -/
  proper : ∀ parent id, id ∈ tree.children parent → 0 < id ∧ id < tree.size
  root : tree.indexInParent? 0 = none
  ascending : ∀ id, (tree.children id).Pairwise (· < ·)
  /-- The walk from the root ends by itself: let run on, it adds nothing. -/
  ends : ∀ fuel, tree.size ≤ fuel → tree.walk fuel [0] = tree.preorder
  once : ∀ id, tree.preorder.count id = if id < tree.size then 1 else 0
  depthFirst : ∃ h : tree.Rooted, tree.preorder = tree.listing h 0

theorem Rooted.exists_indexInParent? (h : tree.Rooted) {id parent : Nat}
    (hparent : tree.parent? id = some parent) :
    ∃ index, tree.indexInParent? id = some index ∧ (tree.children parent)[index]? = some id := by
  have hmem : id ∈ tree.children parent := (h.mem_children parent id).mpr hparent
  rw [indexInParent?, hparent, Option.bind_some]
  cases hindex : (tree.children parent).idxOf? id with
  | none => exact absurd hmem (List.idxOf?_eq_none_iff.mp hindex)
  | some index =>
      obtain ⟨hlt, hget, -⟩ := List.idxOf?_eq_some_iff.mp hindex
      exact ⟨index, rfl, by rw [List.getElem?_eq_getElem hlt, hget]⟩

theorem Rooted.arena (h : tree.Rooted) : tree.Arena where
  filed := by
    intro id hpos hlt
    obtain ⟨parent, hbefore, hparent⟩ := h.parent id hpos hlt
    obtain ⟨index, hindex, hfound⟩ := h.exists_indexInParent? hparent
    exact ⟨parent, index, hbefore, hparent, h.count_children hparent, hindex, hfound⟩
  proper := by
    intro parent id hid
    have hparent := (h.mem_children parent id).mp hid
    exact ⟨Nat.lt_of_le_of_lt (Nat.zero_le parent) (h.lt_of_parent? hparent),
      lt_size_of_parent? hparent⟩
  root := by
    rw [indexInParent?, h.root, Option.bind_none]
  ascending := h.ascending
  ends := fun fuel hfuel => (walk_eq_listing h hfuel).trans (preorder_eq_listing h).symm
  once := by
    intro id
    rw [preorder_eq_listing h, (nodup_listing h 0).count]
    simp only [mem_listing_zero h]
  depthFirst := ⟨h, preorder_eq_listing h⟩

def start? (tree : Tree) (id : Nat) : Option Position :=
  (tree.node? id).map Node.start

theorem pairwise_start_of_parse {source : Text} (h : parse source = .ok tree) :
    ((tree.preorder.filter (0 < ·)).filterMap tree.start?).Pairwise (· < ·) := by
  obtain ⟨outline, -, htree⟩ := parse_eq_ok_iff.mp h
  have hpreorder : tree.preorder = List.range tree.size := htree ▸ preorder_ofOutline outline
  rw [hpreorder, List.pairwise_filterMap, List.pairwise_filter]
  refine List.pairwise_lt_range.imp fun {earlier later} hlt hpos _ first hfirst second hsecond => ?_
  obtain ⟨node, hnode, rfl⟩ := Option.map_eq_some_iff.mp hfirst
  obtain ⟨other, hother, rfl⟩ := Option.map_eq_some_iff.mp hsecond
  exact start_lt_of_parse h (of_decide_eq_true hpos) hlt hnode hother

/--
However nodes are put into a tree, each under a node that is there, they are filed once and
walked once, depth first, and the root ends with the last of them.  In a parsed tree, document
order is the order of the numbers and that of the starts.
-/
theorem grown_and_parsed_trees_in_order :
    (∀ pushes, empty.Admits pushes →
      (empty.grow pushes).size = pushes.length + 1 ∧ (empty.grow pushes).Arena ∧
        ∃ root, (empty.grow pushes).node? 0 = some root ∧
          root.stop.IsLatest (.origin :: pushes.map Push.stop)) ∧
    ∀ source tree, parse source = .ok tree →
      tree.Arena ∧ tree.preorder = List.range tree.size ∧
        ((tree.preorder.filter (0 < ·)).filterMap tree.start?).Pairwise (· < ·) := by
  refine ⟨fun pushes hpushes => ⟨?_, (rooted_empty.grow hpushes).arena, ?_⟩,
    fun source tree h => ?_⟩
  · rw [size_grow, size_empty, Nat.add_comm]
  · have hroot : empty.node? 0 = some rootNode := rfl
    exact isLatest_stop_grow hroot pushes
  · obtain ⟨outline, -, htree⟩ := parse_eq_ok_iff.mp h
    obtain ⟨pushes, hpushes, hgrown⟩ := exists_pushes_of_parse h
    exact ⟨hgrown ▸ (rooted_empty.grow hpushes).arena, htree ▸ preorder_ofOutline outline,
      pairwise_start_of_parse h⟩

/-- A child that comes late, an end that lies behind all later ones, and a parsed definition. -/
theorem grown_and_parsed_trees_in_order_nested :
    (∃ pushes : List Push, pushes.map Push.parent = [0, 1, 0, 1] ∧ empty.Admits pushes ∧
      (empty.grow pushes).Arena ∧ (empty.grow pushes).preorder = [0, 1, 2, 4, 3] ∧
      ∃ root, (empty.grow pushes).node? 0 = some root ∧
        root.stop.IsLatest [⟨1, 1⟩, ⟨3, 2⟩, ⟨1, 4⟩, ⟨2, 9⟩, ⟨3, 1⟩]) ∧
    ∃ tree, parse "<#macro m>a<#-- b --></#macro>c".toList = .ok tree ∧ tree.Arena ∧
      tree.preorder = [0, 1, 2, 3, 4] ∧
      ((tree.preorder.filter (0 < ·)).filterMap tree.start?).Pairwise (· < ·) := by
  constructor
  · let pushes : List Push :=
      [⟨0, .comment [], ⟨1, 1⟩, ⟨3, 2⟩⟩, ⟨1, .text ['a'], ⟨1, 2⟩, ⟨1, 4⟩⟩,
        ⟨0, .text [], ⟨2, 1⟩, ⟨2, 9⟩⟩, ⟨1, .text ['b'], ⟨2, 1⟩, ⟨3, 1⟩⟩]
    have hpushes : empty.Admits pushes := by simp [pushes, Admits]
    obtain ⟨-, harena, hroot⟩ := grown_and_parsed_trees_in_order.1 pushes hpushes
    exact ⟨pushes, rfl, hpushes, harena, by decide +kernel, hroot⟩
  · have hsize : (parse "<#macro m>a<#-- b --></#macro>c".toList).toOption.map size =
        some 5 := by
      decide +kernel
    cases htree : parse "<#macro m>a<#-- b --></#macro>c".toList with
    | error fault =>
        rw [htree] at hsize
        cases hsize
    | ok tree =>
        obtain ⟨harena, hpreorder, hstarts⟩ := grown_and_parsed_trees_in_order.2 _ tree htree
        rw [htree] at hsize
        have htotal : tree.size = 5 := Option.some.inj hsize
        rw [htotal] at hpreorder
        exact ⟨tree, rfl, harena, hpreorder, hstarts⟩

end Tree

end TemplateDocs

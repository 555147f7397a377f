import TemplateDocs.Proofs.Template.FirstFault
import TemplateDocs.Proofs.Template.Location
import TemplateDocs.Proofs.Template.Token
import TemplateDocs.Proofs.Tree.Layout

/-!
# The language of templates

A source has a tree exactly when its items, walked token by token without a look
at how they nest, come to their ends, have their names and derive from the grammar
of templates.  The tree is then that of the derivation, and otherwise the fault is
that of the leftmost item that offends, or of the innermost definition that is
left open when none does.
-/

namespace TemplateDocs

namespace Tree

theorem exists_derives_spread_iff {source : Text} {items : List Item} :
    (∃ outline, Outline.Derives (Piece.spread source 0 items) outline) ↔
      (∀ item ∈ items, item.isTerminated = true) ∧ (∀ item ∈ items, item.isNamed = true) ∧
        Item.Balanced items := by
  rw [Outline.exists_derives_iff, Piece.map_item_spread]
  constructor
  · rintro ⟨hbalanced, hnamed⟩
    exact ⟨hbalanced.isTerminated, hnamed, hbalanced⟩
  · rintro ⟨-, hnamed, hbalanced⟩
    exact ⟨hbalanced, hnamed⟩

theorem parse_eq_ok_iff_derives {source : Text} {tree : Tree} :
    parse source = .ok tree ↔
      ∃ outline, Outline.Derives (Piece.spread source 0 (Item.scan source)) outline ∧
        ofOutline outline = tree := by
  simp only [parse_eq_ok_iff, Outline.parse_eq_ok_iff, Piece.locate_scan]

/-- The nodes of a tree: the root, and then the parts of an outline in their order. -/
structure LaysOut (tree : Tree) (outline : Outline) : Prop where
  size : tree.size = outline.count + 1
  root : tree.node? 0 =
    some { rootNode with
      children := (outline.topIds 1).toArray
      stop := outline.latest .origin }
  parts : outline.StandsIn tree 0 1

theorem laysOut_ofOutline (outline : Outline) : (ofOutline outline).LaysOut outline :=
  ⟨size_ofOutline outline, node?_zero_ofOutline outline, standsIn_ofOutline outline⟩

theorem LaysOut.eq_ofOutline {tree : Tree} {outline : Outline} (h : tree.LaysOut outline) :
    tree = ofOutline outline := by
  have hof := laysOut_ofOutline outline
  apply ext_node?
  intro id
  rcases Nat.eq_zero_or_pos id with rfl | hpos
  · rw [h.root, hof.root]
  · by_cases hlt : id < 1 + outline.count
    · exact hof.parts.node?_eq h.parts hpos hlt
    · have hsize := h.size
      have hsize' := hof.size
      rw [node?_eq_none (by omega), node?_eq_none (by omega)]

theorem parse_eq_ok_iff_laysOut {source : Text} {tree : Tree} :
    parse source = .ok tree ↔
      ∃ outline, Outline.Derives (Piece.spread source 0 (Item.scan source)) outline ∧
        tree.LaysOut outline := by
  rw [parse_eq_ok_iff_derives]
  constructor
  · rintro ⟨outline, hderives, rfl⟩
    exact ⟨outline, hderives, laysOut_ofOutline outline⟩
  · rintro ⟨outline, hderives, hlays⟩
    exact ⟨outline, hderives, hlays.eq_ofOutline.symm⟩

/-- The parser accepts its grammar and otherwise reports the leftmost fault. -/
theorem parse_follows_grammar (source : Text) :
    ∃ items, (∀ other, Item.Walks [] source other ↔ other = items) ∧
      ((∃ tree, parse source = .ok tree) ↔
        (∀ item ∈ items, item.isTerminated = true) ∧ (∀ item ∈ items, item.isNamed = true) ∧
          Item.Balanced items) ∧
      (∀ tree, parse source = .ok tree ↔
        ∃ outline, Outline.Derives (Piece.spread source 0 items) outline ∧
          tree.LaysOut outline) ∧
      ∀ fault, parse source = .error fault ↔
        Piece.LeftmostOffence (Piece.spread source 0 items) fault ∨
          Piece.Clean (Piece.spread source 0 items) ∧
            Piece.LeavesOpen (Piece.spread source 0 items) fault := by
  refine ⟨Item.scan source, fun other => Item.walks_iff, ?_,
    fun tree => parse_eq_ok_iff_laysOut, fun fault => ?_⟩
  · rw [← @exists_derives_spread_iff source]
    simp only [parse_eq_ok_iff_derives]
    constructor
    · rintro ⟨tree, outline, hderives, -⟩
      exact ⟨outline, hderives⟩
    · rintro ⟨outline, hderives⟩
      exact ⟨ofOutline outline, outline, hderives, rfl⟩
  · rw [parse_eq_error_iff, Outline.parse_eq_error_iff, Piece.locate_scan]

end Tree

end TemplateDocs

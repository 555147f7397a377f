import TemplateDocs.Proofs.Template.Grammar
import TemplateDocs.Proofs.Template.Location

/-!
# Outlines in their source

The outline of a source stands in it from its start to its end: every leaf and
every tag of a definition is what the scan finds at its offset, and nothing is
left over (`placedAt_of_parse`, `source_of_parse`).
-/

namespace TemplateDocs

theorem Closing.item_lexeme_piece (closing : Closing) :
    closing.piece.item.lexeme = closing.lexeme :=
  rfl

namespace Outline

/-- The parts of an outline stand in the source one behind the other from an offset on. -/
def PlacedAt (source : Text) (offset : Nat) : Outline → Prop
  | nil => True
  | leaf part start stop next =>
      Piece.StandsAt source offset ⟨.leaf part, start, stop⟩ ∧
        next.PlacedAt source (offset + part.lexeme.length)
  | definition opening inside closing next =>
      closing.kind = opening.kind ∧
        (∃ headerStop, Piece.StandsAt source offset
          ⟨.opening opening.kind opening.header, opening.start, headerStop⟩) ∧
        inside.PlacedAt source (offset + opening.lexeme.length) ∧
        closing.piece.StandsAt source
          (offset + opening.lexeme.length + inside.source.length) ∧
        next.PlacedAt source
          (offset + opening.lexeme.length + inside.source.length + closing.lexeme.length)

theorem Derives.placedAt {source : Text} {offset : Nat} {pieces rest : List Piece}
    {outline : Outline} (h : Derives pieces outline)
    (hfill : Piece.FillsFrom source offset (pieces ++ rest)) :
    outline.PlacedAt source offset ∧
      Piece.FillsFrom source (offset + outline.source.length) rest := by
  induction h generalizing offset rest with
  | nil => exact ⟨trivial, hfill⟩
  | leaf hnext ih =>
      obtain ⟨hleaf, hrest⟩ := hfill
      obtain ⟨hplaced, hbehind⟩ := ih hrest
      refine ⟨⟨hleaf, hplaced⟩, ?_⟩
      rw [Outline.source, List.length_append, ← Nat.add_assoc]
      exact hbehind
  | @definition kind header signature start headerStop inner behind inside next closing hkind
      hsignature hinside hnext ihInside ihNext =>
      rw [List.cons_append, List.append_assoc, List.cons_append] at hfill
      obtain ⟨hopening, hinner⟩ := hfill
      obtain ⟨hplacedInside, hclosing, hbehind⟩ := ihInside hinner
      obtain ⟨hplacedNext, hrest⟩ := ihNext hbehind
      refine ⟨⟨hkind, ⟨headerStop, hopening⟩, hplacedInside, hclosing, hplacedNext⟩, ?_⟩
      simp only [Outline.source, List.length_append, ← Nat.add_assoc]
      exact hrest

theorem placedAt_of_parse {source : Text} {outline : Outline}
    (h : parse source = .ok outline) : outline.PlacedAt source 0 := by
  rw [parse_eq_ok_iff, Piece.locate_scan] at h
  have hfill := Piece.fillsFrom_spread_scan source
  rw [← List.append_nil (Piece.spread source 0 (Item.scan source))] at hfill
  exact (h.placedAt hfill).1

theorem source_of_parse {source : Text} {outline : Outline}
    (h : parse source = .ok outline) : outline.source = source := by
  rw [parse_eq_ok_iff] at h
  rw [← h.flatMap_lexeme, Piece.map_item_locate, Item.flatMap_lexeme_scan]

theorem PlacedAt.drop_eq {source : Text} {offset : Nat} {outline : Outline}
    (h : outline.PlacedAt source offset) :
    source.drop offset = outline.source ++ source.drop (offset + outline.source.length) := by
  induction outline generalizing offset with
  | nil => rfl
  | leaf part start stop next ih =>
      obtain ⟨hleaf, hnext⟩ := h
      have hdrop : source.drop offset =
          part.lexeme ++ source.drop (offset + part.lexeme.length) := hleaf.drop_eq
      rw [hdrop, ih hnext, Outline.source, List.length_append, Nat.add_assoc,
        List.append_assoc]
  | definition opening inside closing next ihInside ihNext =>
      obtain ⟨-, ⟨headerStop, hopening⟩, hinside, hclosing, hnext⟩ := h
      have hopen : source.drop offset =
          opening.lexeme ++ source.drop (offset + opening.lexeme.length) := hopening.drop_eq
      have hclose := hclosing.drop_eq
      rw [Closing.item_lexeme_piece] at hclose
      rw [hopen, ihInside hinside, hclose, ihNext hnext, Outline.source]
      simp only [List.length_append, List.append_assoc, Nat.add_assoc]

end Outline

end TemplateDocs

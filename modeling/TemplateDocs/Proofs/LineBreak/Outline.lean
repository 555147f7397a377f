import TemplateDocs.Proofs.LineBreak.Header
import TemplateDocs.Proofs.LineBreak.Item
import TemplateDocs.Template.Outline

/-!
# Line breaks in outlines

Items nest in the same way with and without returns and stand at the same lines
and columns, so the outline is the same up to returns, or the first fault is.
-/

namespace TemplateDocs

open Text

def Fault.withReturns : Fault → Fault
  | unclosedDefinition kind name start => unclosedDefinition kind name.withReturns start
  | unexpectedClosing tag start => unexpectedClosing tag.withReturns start
  | fault => fault

namespace Piece

def withReturns (piece : Piece) : Piece :=
  { piece with item := piece.item.withReturns }

theorem locate_withReturns {items : List Item} (h : ∀ item ∈ items, PlainBreaks item.lexeme)
    (start : Position) :
    locate start (items.map Item.withReturns) = (locate start items).map withReturns := by
  induction items generalizing start with
  | nil => rfl
  | cons item rest ih =>
      have hitem : '\r' ∉ item.lexeme := (h item List.mem_cons_self).notMem
      have hrest : ∀ item ∈ rest, PlainBreaks item.lexeme := fun item hmem =>
        h item (List.mem_cons_of_mem _ hmem)
      have hstop (following other : Option Char) :
          start.advance item.withReturns.lexeme other = start.advance item.lexeme following := by
        rw [Item.lexeme_withReturns]
        exact Position.advance_withReturns hitem start following other
      simp only [locate, List.map_cons, withReturns]
      rw [hstop (rest.head?.bind fun after => after.lexeme.head?), ih hrest]

end Piece

def Signature.withReturns (signature : Signature) : Signature :=
  { signature with name := signature.name.withReturns }

theorem Header.signature?_withReturns (header : Header) :
    header.withReturns.signature? = header.signature?.map Signature.withReturns := by
  simp only [Header.signature?, Header.withReturns, Option.map_map]
  rfl

def Opening.withReturns (opening : Opening) : Opening :=
  { opening with
    header := opening.header.withReturns
    signature := opening.signature.withReturns }

def Closing.withReturns (closing : Closing) : Closing :=
  { closing with gap := closing.gap.withReturns }

theorem Opening.lexeme_withReturns (opening : Opening) :
    opening.withReturns.lexeme = opening.lexeme.withReturns :=
  Item.lexeme_withReturns (.opening opening.kind opening.header)

theorem Closing.lexeme_withReturns (closing : Closing) :
    closing.withReturns.lexeme = closing.lexeme.withReturns :=
  Item.lexeme_withReturns (.closing closing.kind closing.gap)

def Outline.withReturns : Outline → Outline
  | nil => nil
  | leaf part start stop next => leaf part.withReturns start stop next.withReturns
  | definition opening inside closing next =>
      definition opening.withReturns inside.withReturns closing.withReturns next.withReturns

namespace Levels

def withReturns : Levels → Levels
  | done outline => done outline.withReturns
  | closed outline closing rest =>
      closed outline.withReturns closing.withReturns rest.withReturns
  | failed fault => failed fault.withReturns

theorem mapFirst_withReturns (change other : Outline → Outline)
    (h : ∀ outline, (change outline).withReturns = other outline.withReturns) (levels : Levels) :
    levels.withReturns.mapFirst other = (levels.mapFirst change).withReturns := by
  cases levels with
  | done outline => simp [mapFirst, withReturns, h]
  | closed outline closing rest => simp [mapFirst, withReturns, h]
  | failed fault => rfl

theorem unexpected_withReturns (closing : Closing) :
    unexpected closing.withReturns = (unexpected closing).withReturns := by
  rw [unexpected, Closing.lexeme_withReturns]
  rfl

theorem enclose_withReturns (opening : Opening) (levels : Levels) :
    levels.withReturns.enclose opening.withReturns = (levels.enclose opening).withReturns := by
  cases levels with
  | done outline => rfl
  | closed inside closing rest =>
      have hkinds : closing.withReturns.kind = opening.withReturns.kind ↔
          closing.kind = opening.kind := Iff.rfl
      by_cases hkind : closing.kind = opening.kind
      · rw [withReturns, enclose, enclose, if_pos hkind, if_pos (hkinds.mpr hkind)]
        exact mapFirst_withReturns (.definition opening inside closing)
          (.definition opening.withReturns inside.withReturns closing.withReturns)
          (fun _ => rfl) rest
      · rw [withReturns, enclose, enclose, if_neg hkind, if_neg (mt hkinds.mp hkind),
          unexpected_withReturns]
        rfl
  | failed fault => rfl

/-- One item in front of a run: the header of an opening tag is read alike. -/
theorem add_withReturns {piece : Piece} (h : PlainBreaks piece.item.lexeme) (levels : Levels) :
    levels.withReturns.add piece.withReturns = (levels.add piece).withReturns := by
  obtain ⟨item, start, stop⟩ := piece
  cases item with
  | leaf part =>
      exact mapFirst_withReturns (.leaf part start stop) (.leaf part.withReturns start stop)
        (fun _ => rfl) levels
  | closing kind gap => rfl
  | openComment rest => rfl
  | openHeader kind rest => rfl
  | opening kind header =>
      have hheader : PlainBreaks header :=
        h.of_infix ⟨Item.openingLead kind, ['>'], rfl⟩
      simp only [add, Piece.withReturns, Item.withReturns, Header.parse_withReturns hheader,
        Header.signature?_withReturns]
      cases (Header.parse header).signature? with
      | none => rfl
      | some signature => exact enclose_withReturns ⟨kind, header, signature, start⟩ levels

theorem ofPieces_withReturns {pieces : List Piece}
    (h : ∀ piece ∈ pieces, PlainBreaks piece.item.lexeme) :
    ofPieces (pieces.map Piece.withReturns) = (ofPieces pieces).withReturns := by
  induction pieces with
  | nil => rfl
  | cons piece rest ih =>
      have hrest : ∀ piece ∈ rest, PlainBreaks piece.item.lexeme := fun piece hmem =>
        h piece (List.mem_cons_of_mem _ hmem)
      rw [List.map_cons, ofPieces, ofPieces, ih hrest, add_withReturns (h piece List.mem_cons_self)]

theorem outline_withReturns (levels : Levels) :
    levels.withReturns.outline =
      (levels.outline.map Outline.withReturns).mapError Fault.withReturns := by
  cases levels with
  | done outline => rfl
  | closed outline closing rest =>
      rw [withReturns, Levels.outline, unexpected_withReturns]
      rfl
  | failed fault => rfl

end Levels

theorem Item.plainBreaks_of_mem_scan {source : Text} (h : PlainBreaks source) {item : Item}
    (hitem : item ∈ scan source) : PlainBreaks item.lexeme := by
  have hinfix : item.lexeme <:+: (scan source).flatMap lexeme := by
    obtain ⟨before, behind, hscan⟩ := List.append_of_mem hitem
    rw [hscan, List.flatMap_append, List.flatMap_cons, ← List.append_assoc]
    exact ⟨before.flatMap lexeme, behind.flatMap lexeme, rfl⟩
  rw [flatMap_lexeme_scan] at hinfix
  exact h.of_infix hinfix

theorem Outline.parse_withReturns {source : Text} (h : PlainBreaks source) :
    parse source.withReturns =
      ((parse source).map Outline.withReturns).mapError Fault.withReturns := by
  have hitems : ∀ item ∈ Item.scan source, PlainBreaks item.lexeme := fun item hmem =>
    Item.plainBreaks_of_mem_scan h hmem
  have hpieces : ∀ piece ∈ Piece.locate .origin (Item.scan source),
      PlainBreaks piece.item.lexeme := by
    intro piece hpiece
    have hmem : piece.item ∈ (Piece.locate .origin (Item.scan source)).map Piece.item :=
      List.mem_map_of_mem hpiece
    rw [Piece.map_item_locate] at hmem
    exact hitems _ hmem
  rw [parse, parse, Item.scan_withReturns h, Piece.locate_withReturns hitems,
    Levels.ofPieces_withReturns hpieces, Levels.outline_withReturns]

end TemplateDocs

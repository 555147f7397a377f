import TemplateDocs.Template.Outline

/-!
# The grammar of templates

A template is a run of leaves and definitions, and a definition is an opening
tag, a template, and a closing tag of the same kind.  `Item.Balanced` is this
grammar on the items of a source without a look at names and positions, and
`Outline.Derives` gives a derivation its outline.

Main statement: the items of a source read from their end amount to an outline
exactly when the outline is that of a derivation (`ofPieces_eq_done_iff`).
-/

namespace TemplateDocs

namespace Item

/-- The runs of items in which every tag that opens or closes a definition has its partner. -/
inductive Balanced : List Item → Prop where
  | nil : Balanced []
  | leaf (part : Leaf) {rest : List Item} (hrest : Balanced rest) :
      Balanced (leaf part :: rest)
  | definition (kind : DefinitionKind) (header gap : Text) {inside rest : List Item}
      (hinside : Balanced inside) (hrest : Balanced rest) :
      Balanced (opening kind header :: (inside ++ closing kind gap :: rest))

theorem Balanced.append {first second : List Item} (hfirst : Balanced first)
    (hsecond : Balanced second) : Balanced (first ++ second) := by
  induction hfirst with
  | nil => exact hsecond
  | leaf part hrest ih => exact .leaf part ih
  | definition kind header gap hinside hrest ihInside ihRest =>
      simpa using Balanced.definition kind header gap hinside ihRest

def isTerminated : Item → Bool
  | openComment _ | openHeader _ _ => false
  | _ => true

def isNamed : Item → Bool
  | opening _ header => (Header.parse header).name.isSome
  | _ => true

theorem Balanced.isTerminated {items : List Item} (h : Balanced items) :
    ∀ item ∈ items, item.isTerminated = true := by
  induction h with
  | nil => simp
  | leaf part hrest ih => simpa [Item.isTerminated] using ih
  | definition kind header gap hinside hrest ihInside ihRest =>
      intro item hitem
      simp only [List.mem_cons, List.mem_append] at hitem
      rcases hitem with rfl | hitem | rfl | hitem
      · rfl
      · exact ihInside item hitem
      · rfl
      · exact ihRest item hitem

end Item

def Closing.piece (closing : Closing) : Piece :=
  ⟨.closing closing.kind closing.gap, closing.start, closing.stop⟩

namespace Outline

def append : Outline → Outline → Outline
  | nil, behind => behind
  | leaf part start stop next, behind => leaf part start stop (next.append behind)
  | definition opening inside closing next, behind =>
      definition opening inside closing (next.append behind)

@[simp] theorem append_nil (outline : Outline) : outline.append nil = outline := by
  induction outline with
  | nil => rfl
  | leaf part start stop next ih => rw [append, ih]
  | definition opening inside closing next ihInside ihNext => rw [append, ihNext]

/-- The outline is that of a derivation of the pieces. -/
inductive Derives : List Piece → Outline → Prop where
  | nil : Derives [] nil
  | leaf {part : Leaf} {start stop : Position} {rest : List Piece} {next : Outline}
      (hnext : Derives rest next) :
      Derives (⟨.leaf part, start, stop⟩ :: rest) (leaf part start stop next)
  | definition {kind : DefinitionKind} {header : Text} {signature : Signature}
      {start headerStop : Position} {inner rest : List Piece} {inside next : Outline}
      {closing : Closing} (hkind : closing.kind = kind)
      (hsignature : (Header.parse header).signature? = some signature)
      (hinside : Derives inner inside) (hnext : Derives rest next) :
      Derives (⟨.opening kind header, start, headerStop⟩ :: (inner ++ closing.piece :: rest))
        (definition ⟨kind, header, signature, start⟩ inside closing next)

theorem Derives.flatMap_lexeme {pieces : List Piece} {outline : Outline}
    (h : Derives pieces outline) :
    (pieces.map Piece.item).flatMap Item.lexeme = outline.source := by
  induction h with
  | nil => rfl
  | leaf hnext ih => simp [source, Item.lexeme, ih]
  | definition hkind hsignature hinside hnext ihInside ihNext =>
      simp [source, Opening.lexeme, Closing.lexeme, Closing.piece, ihInside, ihNext]

theorem Derives.balanced {pieces : List Piece} {outline : Outline}
    (h : Derives pieces outline) : Item.Balanced (pieces.map Piece.item) := by
  induction h with
  | nil => exact .nil
  | leaf hnext ih => exact .leaf _ ih
  | definition hkind hsignature hinside hnext ihInside ihNext =>
      subst hkind
      simpa [Closing.piece] using Item.Balanced.definition _ _ _ ihInside ihNext

theorem Derives.isNamed {pieces : List Piece} {outline : Outline}
    (h : Derives pieces outline) : ∀ piece ∈ pieces, piece.item.isNamed = true := by
  induction h with
  | nil => simp
  | leaf hnext ih => simpa [Item.isNamed] using ih
  | definition hkind hsignature hinside hnext ihInside ihNext =>
      intro piece hpiece
      simp only [List.mem_cons, List.mem_append] at hpiece
      rcases hpiece with rfl | hpiece | rfl | hpiece
      · simp only [Header.signature?, Option.map_eq_some_iff] at hsignature
        obtain ⟨name, hname, -⟩ := hsignature
        simp [Item.isNamed, hname]
      · exact ihInside piece hpiece
      · rfl
      · exact ihNext piece hpiece

theorem exists_derives {items : List Item} (h : Item.Balanced items) {pieces : List Piece}
    (hpieces : pieces.map Piece.item = items)
    (hnamed : ∀ item ∈ items, item.isNamed = true) : ∃ outline, Derives pieces outline := by
  induction h generalizing pieces with
  | nil =>
      rw [List.map_eq_nil_iff.mp hpieces]
      exact ⟨nil, .nil⟩
  | leaf part hrest ih =>
      obtain ⟨⟨item, start, stop⟩, tail, rfl, hitem, htail⟩ := List.map_eq_cons_iff.mp hpieces
      cases hitem
      obtain ⟨next, hnext⟩ := ih htail fun item hitem => hnamed item (by simp [hitem])
      exact ⟨leaf part start stop next, .leaf hnext⟩
  | definition kind header gap hinside hrest ihInside ihRest =>
      obtain ⟨⟨item, start, stop⟩, tail, rfl, hitem, htail⟩ := List.map_eq_cons_iff.mp hpieces
      cases hitem
      obtain ⟨inner, behind, rfl, hinner, hbehind⟩ := List.map_eq_append_iff.mp htail
      obtain ⟨⟨item, closeStart, closeStop⟩, rest, rfl, hclose, hrest⟩ :=
        List.map_eq_cons_iff.mp hbehind
      cases hclose
      obtain ⟨inside, hderives⟩ :=
        ihInside hinner fun item hitem => hnamed item (by simp [hitem])
      obtain ⟨next, hnext⟩ := ihRest hrest fun item hitem => hnamed item (by simp [hitem])
      have hname : (Header.parse header).name.isSome = true :=
        hnamed (.opening kind header) (by simp)
      obtain ⟨name, hname⟩ := Option.isSome_iff_exists.mp hname
      have hsignature : (Header.parse header).signature? =
          some ⟨name, (Header.parse header).arguments, (Header.parse header).catchAll⟩ := by
        rw [Header.signature?, hname]
        rfl
      let closing : Closing := ⟨kind, gap, closeStart, closeStop⟩
      have hkind : closing.kind = kind := rfl
      exact ⟨_, .definition hkind hsignature hderives hnext⟩

/-- Pieces have a derivation when they are balanced and every opening tag has a name. -/
theorem exists_derives_iff {pieces : List Piece} :
    (∃ outline, Derives pieces outline) ↔
      Item.Balanced (pieces.map Piece.item) ∧
        ∀ item ∈ pieces.map Piece.item, item.isNamed = true := by
  constructor
  · rintro ⟨outline, h⟩
    refine ⟨h.balanced, fun item hitem => ?_⟩
    obtain ⟨piece, hpiece, rfl⟩ := List.mem_map.mp hitem
    exact h.isNamed piece hpiece
  · rintro ⟨hbalanced, hnamed⟩
    exact exists_derives hbalanced rfl hnamed

end Outline

namespace Levels

open Outline (Derives)

theorem mapFirst_mapFirst (first second : Outline → Outline) (levels : Levels) :
    (levels.mapFirst first).mapFirst second = levels.mapFirst fun outline =>
      second (first outline) := by
  cases levels <;> rfl

theorem ofPieces_append {pieces : List Piece} {outline : Outline}
    (h : Derives pieces outline) (rest : List Piece) :
    ofPieces (pieces ++ rest) = (ofPieces rest).mapFirst outline.append := by
  induction h generalizing rest with
  | nil => cases hrest : ofPieces rest <;> simp [hrest, mapFirst, Outline.append]
  | leaf hnext ih =>
      rw [List.cons_append, ofPieces, ih rest]
      simp only [add, mapFirst_mapFirst, Outline.append]
  | @definition kind header signature start headerStop inner behind inside next closing hkind
      hsignature hinside hnext ihInside ihNext =>
      have hclose : ofPieces (closing.piece :: (behind ++ rest)) =
          closed .nil closing (ofPieces (behind ++ rest)) := rfl
      rw [List.cons_append, List.append_assoc, List.cons_append, ofPieces, ihInside, hclose]
      have hinner : (closed .nil closing (ofPieces (behind ++ rest))).mapFirst inside.append =
          closed inside closing (ofPieces (behind ++ rest)) := by
        simp [mapFirst]
      rw [hinner]
      simp only [add, hsignature, enclose, hkind, if_true, ihNext rest, mapFirst_mapFirst,
        Outline.append]

/-- What the levels of a run say about its pieces. -/
def Reads (pieces : List Piece) : Levels → Prop
  | done outline => Derives pieces outline
  | closed outline closing rest =>
      ∃ first behind, pieces = first ++ closing.piece :: behind ∧
        Derives first outline ∧ ofPieces behind = rest
  | failed _ => True

theorem Reads.leaf {rest : List Piece} {levels : Levels} (h : levels.Reads rest)
    (part : Leaf) (start stop : Position) :
    (levels.mapFirst (.leaf part start stop)).Reads (⟨.leaf part, start, stop⟩ :: rest) := by
  cases levels with
  | done outline => exact Derives.leaf h
  | closed outline closing behind =>
      obtain ⟨first, after, rfl, hfirst, hbehind⟩ := h
      exact ⟨_, after, by rw [List.cons_append], .leaf hfirst, hbehind⟩
  | failed fault => trivial

theorem Reads.definition {kind : DefinitionKind} {header : Text} {signature : Signature}
    {start headerStop : Position} {inner rest : List Piece} {inside : Outline}
    {closing : Closing} {levels : Levels} (hkind : closing.kind = kind)
    (hsignature : (Header.parse header).signature? = some signature)
    (hinside : Derives inner inside) (h : levels.Reads rest) :
    (levels.mapFirst (.definition ⟨kind, header, signature, start⟩ inside closing)).Reads
      (⟨.opening kind header, start, headerStop⟩ :: (inner ++ closing.piece :: rest)) := by
  cases levels with
  | done outline => exact Derives.definition hkind hsignature hinside h
  | closed outline other behind =>
      obtain ⟨first, after, rfl, hfirst, hbehind⟩ := h
      exact ⟨⟨.opening kind header, start, headerStop⟩ :: (inner ++ closing.piece :: first),
        after, by simp, .definition hkind hsignature hinside hfirst, hbehind⟩
  | failed fault => trivial

/-- Levels read from the end of a run are derivations with closing tags between them. -/
theorem reads_ofPieces (pieces : List Piece) : (ofPieces pieces).Reads pieces := by
  -- An opening tag goes on behind its closing tag, so the induction is on the length.
  induction hlength : pieces.length using Nat.strongRecOn generalizing pieces with
  | ind length ih =>
    subst hlength
    cases pieces with
    | nil => exact Derives.nil
    | cons piece rest =>
        have hrest := ih rest.length (by simp) rest rfl
        obtain ⟨item, start, stop⟩ := piece
        cases item with
        | leaf part => exact hrest.leaf part start stop
        | closing kind gap => exact ⟨[], rest, rfl, .nil, rfl⟩
        | openComment body => trivial
        | openHeader kind body => trivial
        | opening kind header =>
            simp only [ofPieces, add]
            cases hsignature : (Header.parse header).signature? with
            | none => trivial
            | some signature =>
                cases hlevels : ofPieces rest with
                | done outline => trivial
                | failed fault => trivial
                | closed inside closing behind =>
                    rw [hlevels] at hrest
                    obtain ⟨inner, after, rfl, hinside, rfl⟩ := hrest
                    simp only [enclose]
                    split
                    · next hkind =>
                        have hafter := ih after.length (by simp; omega) after rfl
                        exact Reads.definition hkind hsignature hinside hafter
                    · trivial

theorem ofPieces_eq_done_iff {pieces : List Piece} {outline : Outline} :
    ofPieces pieces = done outline ↔ Derives pieces outline := by
  constructor
  · intro h
    have hreads := reads_ofPieces pieces
    rw [h] at hreads
    exact hreads
  · intro h
    have happend := ofPieces_append h []
    rw [List.append_nil] at happend
    rw [happend]
    simp [ofPieces, mapFirst]

theorem outline_eq_ok_iff {levels : Levels} {outline : Outline} :
    levels.outline = .ok outline ↔ levels = done outline := by
  cases levels <;> simp [Levels.outline]

end Levels

namespace Outline

theorem parse_eq_ok_iff {source : Text} {outline : Outline} :
    parse source = .ok outline ↔
      Derives (Piece.locate .origin (Item.scan source)) outline := by
  rw [parse, Levels.outline_eq_ok_iff, Levels.ofPieces_eq_done_iff]

end Outline

end TemplateDocs

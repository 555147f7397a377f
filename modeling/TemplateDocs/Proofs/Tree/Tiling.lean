import Mathlib.Data.List.Chain
import TemplateDocs.Proofs.Template.Placement
import TemplateDocs.Proofs.Tree.Layout

/-!
# Trees and their sources

A tree loses nothing of its source: each node but the root has a stretch of the
source, the stretches of the root's children fill the source, those of the
children of a definition fill what stands between its two tags, and each content
is the text of its stretch (`Tiling`).
-/

namespace TemplateDocs

namespace Leaf

theorem eq_text_of_content {part : Leaf} {run : Text} (h : part.content = .text run) :
    part = .text run := by
  cases part <;> cases h
  rfl

theorem eq_comment_of_content {part : Leaf} {body : Text} (h : part.content = .comment body) :
    part = .comment body := by
  cases part <;> cases h
  rfl

end Leaf

namespace Outline

/-- The stretch of each part of an outline that starts at an offset, by the part's number. -/
def span (first offset : Nat) : Outline → Nat → Nat × Nat
  | nil, _ => (0, 0)
  | leaf part _ _ next, id =>
      if id = first then
        (offset, offset + part.lexeme.length)
      else
        next.span (first + 1) (offset + part.lexeme.length) id
  | definition opening inside closing next, id =>
      let inner := offset + opening.lexeme.length
      let outer := inner + inside.source.length
      if id = first then
        (offset, outer + closing.lexeme.length)
      else if id < first + inside.count + 1 then
        inside.span (first + 1) inner id
      else
        next.span (first + inside.count + 1) (outer + closing.lexeme.length) id

/-- The numbered stretches are those of the parts of the outline. -/
def SpannedBy (spans : Nat → Nat × Nat) (first offset : Nat) : Outline → Prop
  | nil => True
  | leaf part _ _ next =>
      spans first = (offset, offset + part.lexeme.length) ∧
        next.SpannedBy spans (first + 1) (offset + part.lexeme.length)
  | definition opening inside closing next =>
      let inner := offset + opening.lexeme.length
      let outer := inner + inside.source.length
      spans first = (offset, outer + closing.lexeme.length) ∧
        inside.SpannedBy spans (first + 1) inner ∧
        next.SpannedBy spans (first + inside.count + 1) (outer + closing.lexeme.length)

theorem spannedBy_of_eq_span {spans : Nat → Nat × Nat} {first offset : Nat}
    {outline : Outline}
    (h : ∀ id, first ≤ id → id < first + outline.count →
      spans id = outline.span first offset id) :
    outline.SpannedBy spans first offset := by
  induction outline generalizing first offset with
  | nil => trivial
  | leaf part start stop next ih =>
      simp only [count, span] at h
      refine ⟨?_, ih fun id hle hlt => ?_⟩
      · rw [h first (by omega) (by omega), if_pos rfl]
      · rw [h id (by omega) (by omega), if_neg (by omega)]
  | definition opening inside closing next ihInside ihNext =>
      simp only [count, span] at h
      refine ⟨?_, ihInside fun id hle hlt => ?_, ihNext fun id hle hlt => ?_⟩
      · rw [h first (by omega) (by omega), if_pos rfl]
      · rw [h id (by omega) (by omega), if_neg (by omega), if_pos (by omega)]
      · rw [h id (by omega) (by omega), if_neg (by omega), if_neg (by omega)]

theorem spannedBy_span (outline : Outline) (first offset : Nat) :
    outline.SpannedBy (outline.span first offset) first offset :=
  spannedBy_of_eq_span fun _ _ _ => rfl

end Outline

namespace Tree

/-- The stretches of the listed nodes follow each other from one offset to another. -/
def Tiles (spans : Nat → Nat × Nat) : List Nat → Nat → Nat → Prop
  | [], start, stop => start = stop
  | id :: rest, start, stop => (spans id).1 = start ∧ Tiles spans rest (spans id).2 stop

def isText (tree : Tree) (id : Nat) : Bool :=
  match tree.content? id with
  | some (.text _) => true
  | _ => false

/--
The stretches of a source that the nodes of its tree, the root apart, stand for.
A stretch is given by its two offsets in the characters of the source.
-/
structure Tiling (source : Text) (tree : Tree) (spans : Nat → Nat × Nat) : Prop where
  /-- Every stretch holds a character of the source. -/
  ne_nil : ∀ id, 0 < id → id < tree.size →
    (spans id).1 < (spans id).2 ∧ (spans id).2 ≤ source.length
  /-- The positions of a node are those of the two ends of its stretch. -/
  located : ∀ id node, 0 < id → tree.node? id = some node →
    node.start = .ofOffset source (spans id).1 ∧ node.stop = .ofOffset source (spans id).2
  /-- The children of the root fill the source. -/
  root : Tiles spans (tree.children 0) 0 source.length
  /-- The children of a definition fill what stands between its two tags. -/
  inside : ∀ id definition, tree.content? id = some (.definition definition) →
    ∃ header gap inner outer, (spans id).1 < inner ∧ inner ≤ outer ∧ outer < (spans id).2 ∧
      Item.next (source.drop (spans id).1) =
        (.opening definition.kind header, source.drop inner) ∧
      Item.next (source.drop outer) =
        (.closing definition.kind gap, source.drop (spans id).2) ∧
      Tiles spans (tree.children id) inner outer
  /-- Only the root and definitions have children. -/
  childless : ∀ id, tree.children id ≠ [] →
    id = 0 ∨ ∃ definition, tree.content? id = some (.definition definition)
  text_eq : ∀ id run, tree.content? id = some (.text run) →
    run = source.extract (spans id).1 (spans id).2
  comment_eq : ∀ id body, tree.content? id = some (.comment body) →
    (spans id).1 + 4 ≤ (spans id).2 - 3 ∧
      source.extract (spans id).1 ((spans id).1 + 4) = Tag.commentOpen ∧
      body = source.extract ((spans id).1 + 4) ((spans id).2 - 3) ∧
      source.extract ((spans id).2 - 3) (spans id).2 = Tag.commentClose
  source_eq : ∀ id definition, tree.content? id = some (.definition definition) →
    definition.source = source.extract (spans id).1 (spans id).2
  /-- No text stands right behind another text. -/
  separated : ∀ id, (tree.children id).IsChain fun first second =>
    ¬ (tree.isText first = true ∧ tree.isText second = true)

end Tree

namespace Outline

/-- What a node stands for: a leaf, or a definition with its inside below it. -/
inductive PartAt (source : Text) (tree : Tree) (spans : Nat → Nat × Nat) (id : Nat) : Prop where
  | leaf (part : Leaf) (start stop : Position) (parent offset : Nat)
      (hnode : tree.node? id = some ⟨part.content, start, stop, some parent, #[]⟩)
      (hspan : spans id = (offset, offset + part.lexeme.length))
      (hleaf : Piece.StandsAt source offset ⟨.leaf part, start, stop⟩)
  | definition (opening : Opening) (inside : Outline) (closing : Closing)
      (headerStop : Position) (parent offset : Nat)
      (hkind : closing.kind = opening.kind)
      (hnode : tree.node? id =
        some ⟨.definition (definitionOf opening inside closing), opening.start, closing.stop,
          some parent, (inside.topIds (id + 1)).toArray⟩)
      (hspan : spans id =
        (offset, offset + opening.lexeme.length + inside.source.length + closing.lexeme.length))
      (hopening : Piece.StandsAt source offset
        ⟨.opening opening.kind opening.header, opening.start, headerStop⟩)
      (hclosing : closing.piece.StandsAt source
        (offset + opening.lexeme.length + inside.source.length))
      (hstands : inside.StandsIn tree id (id + 1))
      (hspanned : inside.SpannedBy spans (id + 1) (offset + opening.lexeme.length))
      (hplaced : inside.PlacedAt source (offset + opening.lexeme.length))

/-- Every number of an outline is that of one of its parts, at whatever level. -/
theorem partAt {source : Text} {tree : Tree} {spans : Nat → Nat × Nat}
    {parent first offset : Nat} {outline : Outline}
    (hstands : outline.StandsIn tree parent first)
    (hspanned : outline.SpannedBy spans first offset)
    (hplaced : outline.PlacedAt source offset) {id : Nat} (hle : first ≤ id)
    (hlt : id < first + outline.count) : PartAt source tree spans id := by
  induction outline generalizing parent first offset with
  | nil => exact absurd hlt (Nat.not_lt.mpr hle)
  | leaf part start stop next ih =>
      obtain ⟨hnode, hstandsNext⟩ := hstands
      obtain ⟨hspan, hspannedNext⟩ := hspanned
      obtain ⟨hleaf, hplacedNext⟩ := hplaced
      rw [count] at hlt
      by_cases hid : id = first
      · subst hid
        exact .leaf part start stop parent offset hnode hspan hleaf
      · exact ih hstandsNext hspannedNext hplacedNext (by omega) (by omega)
  | definition opening inside closing next ihInside ihNext =>
      obtain ⟨hnode, hstandsInside, hstandsNext⟩ := hstands
      obtain ⟨hspan, hspannedInside, hspannedNext⟩ := hspanned
      obtain ⟨hkind, ⟨headerStop, hopening⟩, hplacedInside, hclosing, hplacedNext⟩ := hplaced
      rw [count] at hlt
      by_cases hid : id = first
      · subst hid
        exact .definition opening inside closing headerStop parent offset hkind hnode hspan
          hopening hclosing hstandsInside hspannedInside hplacedInside
      · by_cases hinside : id < first + inside.count + 1
        · exact ihInside hstandsInside hspannedInside hplacedInside (by omega) (by omega)
        · exact ihNext hstandsNext hspannedNext hplacedNext (by omega) (by omega)

theorem SpannedBy.tiles {spans : Nat → Nat × Nat} {first offset : Nat} {outline : Outline}
    (h : outline.SpannedBy spans first offset) :
    Tree.Tiles spans (outline.topIds first) offset (offset + outline.source.length) := by
  induction outline generalizing first offset with
  | nil => rfl
  | leaf part start stop next ih =>
      obtain ⟨hspan, hnext⟩ := h
      refine ⟨by rw [hspan], ?_⟩
      rw [hspan, source, List.length_append, ← Nat.add_assoc]
      exact ih hnext
  | definition opening inside closing next ihInside ihNext =>
      obtain ⟨hspan, -, hnext⟩ := h
      refine ⟨by rw [hspan], ?_⟩
      rw [hspan]
      simp only [source, List.length_append, ← Nat.add_assoc]
      exact ihNext hnext

theorem not_isText_of_head? {source : Text} {tree : Tree} {parent first offset before : Nat}
    {outline : Outline} {run : Text} {start stop : Position}
    (hstands : outline.StandsIn tree parent first) (hplaced : outline.PlacedAt source offset)
    (htext : Piece.StandsAt source before ⟨.leaf (.text run), start, stop⟩)
    (hoffset : offset = before + run.length) {id : Nat}
    (hid : (outline.topIds first).head? = some id) : tree.isText id = false := by
  cases outline with
  | nil => cases hid
  | definition opening inside closing next =>
      obtain ⟨hnode, -⟩ := hstands
      cases hid
      simp [Tree.isText, Tree.content?, hnode]
  | leaf part leafStart leafStop next =>
      obtain ⟨hnode, -⟩ := hstands
      obtain ⟨hleaf, -⟩ := hplaced
      cases hid
      cases part with
      | comment body => simp [Tree.isText, Tree.content?, hnode, Leaf.content]
      | tag lexeme => simp [Tree.isText, Tree.content?, hnode, Leaf.content]
      | text other =>
          subst hoffset
          have hbehind : source.drop (before + run.length) ≠ [] := by
            rw [hleaf.drop_eq]
            exact List.append_ne_nil_of_left_ne_nil hleaf.ne_nil _
          have hne := Item.next_ne_text_of_next_eq_text htext.scanned hbehind other
          exact absurd (congrArg Prod.fst hleaf.scanned) hne

theorem isChain_topIds {source : Text} {tree : Tree} {parent first offset : Nat}
    {outline : Outline} (hstands : outline.StandsIn tree parent first)
    (hplaced : outline.PlacedAt source offset) :
    (outline.topIds first).IsChain fun first second =>
      ¬ (tree.isText first = true ∧ tree.isText second = true) := by
  induction outline generalizing parent first offset with
  | nil => exact .nil
  | leaf part start stop next ih =>
      obtain ⟨hnode, hstandsNext⟩ := hstands
      obtain ⟨hleaf, hplacedNext⟩ := hplaced
      rw [topIds, List.isChain_cons]
      refine ⟨fun second hsecond htexts => ?_, ih hstandsNext hplacedNext⟩
      cases part with
      | comment body => simp [Tree.isText, Tree.content?, hnode, Leaf.content] at htexts
      | tag lexeme => simp [Tree.isText, Tree.content?, hnode, Leaf.content] at htexts
      | text run =>
          have hnot := not_isText_of_head? hstandsNext hplacedNext hleaf rfl hsecond
          rw [hnot] at htexts
          cases htexts.2
  | definition opening inside closing next ihInside ihNext =>
      obtain ⟨hnode, -, hstandsNext⟩ := hstands
      obtain ⟨-, -, -, -, hplacedNext⟩ := hplaced
      rw [topIds, List.isChain_cons]
      refine ⟨fun second hsecond htexts => ?_, ihNext hstandsNext hplacedNext⟩
      simp [Tree.isText, Tree.content?, hnode] at htexts

end Outline

namespace Tree

open Outline (PartAt)

theorem lt_size_of_node? {tree : Tree} {id : Nat} {node : Node}
    (h : tree.node? id = some node) : id < tree.size := by
  by_cases hlt : id < tree.size
  · exact hlt
  · rw [node?_eq_none (Nat.not_lt.mp hlt)] at h
    cases h

theorem partAt_of_parse {source : Text} {outline : Outline}
    (h : Outline.parse source = .ok outline) {id : Nat} (hpos : 0 < id)
    (hlt : id < (ofOutline outline).size) :
    PartAt source (ofOutline outline) (outline.span 1 0) id := by
  rw [size_ofOutline] at hlt
  exact Outline.partAt (standsIn_ofOutline outline) (outline.spannedBy_span 1 0)
    (Outline.placedAt_of_parse h) hpos (by omega)

theorem partAt_of_content? {source : Text} {outline : Outline}
    (h : Outline.parse source = .ok outline) {id : Nat} {content : Content}
    (hcontent : (ofOutline outline).content? id = some content)
    (hroot : content ≠ rootNode.content) :
    PartAt source (ofOutline outline) (outline.span 1 0) id := by
  obtain ⟨node, hnode, rfl⟩ := Option.map_eq_some_iff.mp hcontent
  apply partAt_of_parse h _ (lt_size_of_node? hnode)
  apply Nat.pos_of_ne_zero
  rintro rfl
  rw [node?_zero_ofOutline, Option.some.injEq] at hnode
  rw [← hnode] at hroot
  exact hroot rfl

section Parts

variable {source : Text} {tree : Tree} {spans : Nat → Nat × Nat} {id : Nat}

theorem ne_nil_of_partAt (h : PartAt source tree spans id) :
    (spans id).1 < (spans id).2 ∧ (spans id).2 ≤ source.length := by
  cases h with
  | leaf part start stop parent offset hnode hspan hleaf =>
      have hpos := List.length_pos_iff.mpr hleaf.ne_nil
      rw [hspan]
      exact ⟨Nat.lt_add_of_pos_right hpos, hleaf.within⟩
  | definition opening inside closing headerStop parent offset hkind hnode hspan hopening
      hclosing hstands hspanned hplaced =>
      have hpos : 0 < opening.lexeme.length := List.length_pos_iff.mpr hopening.ne_nil
      rw [hspan]
      refine ⟨?_, hclosing.within⟩
      simp only
      omega

theorem located_of_partAt (h : PartAt source tree spans id) {node : Node}
    (hnode : tree.node? id = some node) :
    node.start = .ofOffset source (spans id).1 ∧
      node.stop = .ofOffset source (spans id).2 := by
  cases h with
  | leaf part start stop parent offset hpart hspan hleaf =>
      rw [hpart, Option.some.injEq] at hnode
      rw [← hnode, hspan]
      exact ⟨hleaf.start_eq, hleaf.stop_eq⟩
  | definition opening inside closing headerStop parent offset hkind hpart hspan hopening
      hclosing hstands hspanned hplaced =>
      rw [hpart, Option.some.injEq] at hnode
      rw [← hnode, hspan]
      exact ⟨hopening.start_eq, hclosing.stop_eq⟩

theorem childless_of_partAt (h : PartAt source tree spans id) (hne : tree.children id ≠ []) :
    ∃ definition, tree.content? id = some (.definition definition) := by
  cases h with
  | leaf part start stop parent offset hnode hspan hleaf =>
      rw [children_eq_of_node? hnode] at hne
      exact absurd rfl hne
  | definition opening inside closing headerStop parent offset hkind hnode hspan hopening
      hclosing hstands hspanned hplaced =>
      exact ⟨Outline.definitionOf opening inside closing, by simp [content?, hnode]⟩

theorem leaf_of_partAt (h : PartAt source tree spans id) {content : Content}
    (hcontent : tree.content? id = some content)
    (hdefinition : ∀ definition, content ≠ .definition definition) :
    ∃ part : Leaf, part.content = content ∧
      (spans id).2 = (spans id).1 + part.lexeme.length ∧
      ∃ rest, source.drop (spans id).1 = part.lexeme ++ rest := by
  cases h with
  | leaf part start stop parent offset hnode hspan hleaf =>
      simp only [content?, hnode, Option.map_some, Option.some.injEq] at hcontent
      exact ⟨part, hcontent, by rw [hspan], _, by rw [hspan]; exact hleaf.drop_eq⟩
  | definition opening inside closing headerStop parent offset hkind hnode hspan hopening
      hclosing hstands hspanned hplaced =>
      simp only [content?, hnode, Option.map_some, Option.some.injEq] at hcontent
      exact absurd hcontent.symm (hdefinition _)

theorem text_of_partAt (h : PartAt source tree spans id) {run : Text}
    (hcontent : tree.content? id = some (.text run)) :
    run = source.extract (spans id).1 (spans id).2 := by
  obtain ⟨part, hpart, hspan, rest, hdrop⟩ := leaf_of_partAt h hcontent (by simp)
  rw [Leaf.eq_text_of_content hpart] at hspan hdrop
  rw [hspan]
  exact (Text.extract_of_drop_eq hdrop).symm

theorem comment_of_partAt (h : PartAt source tree spans id) {body : Text}
    (hcontent : tree.content? id = some (.comment body)) :
    (spans id).1 + 4 ≤ (spans id).2 - 3 ∧
      source.extract (spans id).1 ((spans id).1 + 4) = Tag.commentOpen ∧
      body = source.extract ((spans id).1 + 4) ((spans id).2 - 3) ∧
      source.extract ((spans id).2 - 3) (spans id).2 = Tag.commentClose := by
  obtain ⟨part, hpart, hspan, rest, hdrop⟩ := leaf_of_partAt h hcontent (by simp)
  rw [Leaf.eq_comment_of_content hpart] at hspan hdrop
  simp only [Leaf.lexeme, List.append_assoc] at hdrop
  have hlength : (spans id).2 = (spans id).1 + 4 + body.length + 3 := by
    simp only [Leaf.lexeme, Tag.commentOpen, Tag.commentClose, List.length_append,
      List.length_cons, List.length_nil] at hspan
    omega
  have hbody := Text.drop_add_of_drop_eq hdrop
  have hclose := Text.drop_add_of_drop_eq hbody
  rw [hlength, Nat.add_sub_cancel]
  exact ⟨Nat.le_add_right _ _, Text.extract_of_drop_eq hdrop,
    (Text.extract_of_drop_eq hbody).symm, Text.extract_of_drop_eq hclose⟩

theorem definition_of_partAt (h : PartAt source tree spans id) {definition : Definition}
    (hcontent : tree.content? id = some (.definition definition)) :
    definition.source = source.extract (spans id).1 (spans id).2 ∧
      ∃ header gap inner outer, (spans id).1 < inner ∧ inner ≤ outer ∧ outer < (spans id).2 ∧
        Item.next (source.drop (spans id).1) =
          (.opening definition.kind header, source.drop inner) ∧
        Item.next (source.drop outer) =
          (.closing definition.kind gap, source.drop (spans id).2) ∧
        Tiles spans (tree.children id) inner outer := by
  cases h with
  | leaf part start stop parent offset hnode hspan hleaf =>
      simp only [content?, hnode, Option.map_some, Option.some.injEq] at hcontent
      cases part <;> cases hcontent
  | definition opening inside closing headerStop parent offset hkind hnode hspan hopening
      hclosing hstands hspanned hplaced =>
      simp only [content?, hnode, Option.map_some, Option.some.injEq,
        Content.definition.injEq] at hcontent
      subst hcontent
      have hopen : source.drop offset =
          opening.lexeme ++ source.drop (offset + opening.lexeme.length) := hopening.drop_eq
      have hclose := hclosing.drop_eq
      rw [Closing.item_lexeme_piece] at hclose
      constructor
      · have hdrop : source.drop offset =
            (opening.lexeme ++ inside.source ++ closing.lexeme) ++
              source.drop (offset + opening.lexeme.length + inside.source.length +
                closing.lexeme.length) := by
          rw [hopen, hplaced.drop_eq, hclose]
          simp only [List.append_assoc]
        have hextract := Text.extract_of_drop_eq hdrop
        simp only [List.length_append, ← Nat.add_assoc] at hextract
        rw [hspan, hextract, Outline.definitionOf, Outline.sourceBefore_eq, List.append_assoc]
      · have hopenPos : 0 < opening.lexeme.length := List.length_pos_iff.mpr hopening.ne_nil
        have hclosePos : 0 < closing.lexeme.length := List.length_pos_iff.mpr hclosing.ne_nil
        have hclosingNext := hclosing.scanned
        rw [Closing.item_lexeme_piece, Closing.piece, hkind] at hclosingNext
        rw [hspan, children_eq_of_node? hnode]
        exact ⟨opening.header, closing.gap, offset + opening.lexeme.length,
          offset + opening.lexeme.length + inside.source.length, by omega, by omega, by omega,
          hopening.scanned, hclosingNext, hspanned.tiles⟩

theorem separated_of_partAt (h : PartAt source tree spans id) :
    (tree.children id).IsChain fun first second =>
      ¬ (tree.isText first = true ∧ tree.isText second = true) := by
  cases h with
  | leaf part start stop parent offset hnode hspan hleaf =>
      rw [children_eq_of_node? hnode]
      exact .nil
  | definition opening inside closing headerStop parent offset hkind hnode hspan hopening
      hclosing hstands hspanned hplaced =>
      rw [children_eq_of_node? hnode]
      exact Outline.isChain_topIds hstands hplaced

end Parts

theorem children_eq_nil_of_size_le {tree : Tree} {id : Nat} (h : tree.size ≤ id) :
    tree.children id = [] := by
  rw [children, node?_eq_none h]
  rfl

/-- The nodes of a parsed tree tile the source. -/
theorem exists_tiling {source : Text} {tree : Tree} (h : parse source = .ok tree) :
    ∃ spans, Tiling source tree spans := by
  obtain ⟨outline, houtline, rfl⟩ := parse_eq_ok_iff.mp h
  have hplaced := Outline.placedAt_of_parse houtline
  have hstands := standsIn_ofOutline outline
  refine ⟨outline.span 1 0, ?_, ?_, ?_, ?_, ?_, ?_, ?_, ?_, ?_⟩
  · intro id hpos hlt
    exact ne_nil_of_partAt (partAt_of_parse houtline hpos hlt)
  · intro id node hpos hnode
    exact located_of_partAt (partAt_of_parse houtline hpos (lt_size_of_node? hnode)) hnode
  · have htiles := (outline.spannedBy_span 1 0).tiles
    rw [Nat.zero_add, Outline.source_of_parse houtline] at htiles
    rw [children_zero_ofOutline]
    exact htiles
  · intro id definition hcontent
    exact (definition_of_partAt (partAt_of_content? houtline hcontent (by simp [rootNode]))
      hcontent).2
  · intro id hne
    rcases Nat.eq_zero_or_pos id with hzero | hpos
    · exact .inl hzero
    · have hlt : id < (ofOutline outline).size :=
        Nat.lt_of_not_le fun hle => hne (children_eq_nil_of_size_le hle)
      exact .inr (childless_of_partAt (partAt_of_parse houtline hpos hlt) hne)
  · intro id run hcontent
    exact text_of_partAt (partAt_of_content? houtline hcontent (by simp [rootNode])) hcontent
  · intro id body hcontent
    exact comment_of_partAt (partAt_of_content? houtline hcontent (by simp [rootNode])) hcontent
  · intro id definition hcontent
    exact (definition_of_partAt (partAt_of_content? houtline hcontent (by simp [rootNode]))
      hcontent).1
  · intro id
    rcases Nat.eq_zero_or_pos id with rfl | hpos
    · rw [children_zero_ofOutline]
      exact Outline.isChain_topIds hstands hplaced
    · by_cases hlt : id < (ofOutline outline).size
      · exact separated_of_partAt (partAt_of_parse houtline hpos hlt)
      · rw [children_eq_nil_of_size_le (Nat.not_lt.mp hlt)]
        exact .nil

/-- A comment, a nested tag and text on both sides of a definition are all kept. -/
theorem exists_tiling_nested : ∃ source tree spans,
    source = "a<#-- c -->\r\n<#macro m x>é<@y/>\n<#function f></#function></#macro >b".toList ∧
      parse source = .ok tree ∧ Tiling source tree spans := by
  obtain ⟨source, hsource⟩ : ∃ source : Text, source =
      "a<#-- c -->\r\n<#macro m x>é<@y/>\n<#function f></#function></#macro >b".toList :=
    ⟨_, rfl⟩
  have hparsed : (parse source).toOption.isSome = true := by
    rw [hsource]
    decide +kernel
  cases hparse : parse source with
  | error fault =>
      rw [hparse] at hparsed
      cases hparsed
  | ok tree =>
      obtain ⟨spans, htiling⟩ := exists_tiling hparse
      exact ⟨source, tree, spans, hsource, hparse, htiling⟩

end Tree

end TemplateDocs

import TemplateDocs.Index.Document
import TemplateDocs.Proofs.Template.Token
import TemplateDocs.Proofs.Text.Stretch
import TemplateDocs.Proofs.Tree.Order

/-!
# Comments right before definitions

A definition is documented by the nearest of its earlier siblings that is not blank
text.  In a parsed file this is a matter of the source alone: a comment at whatever
level is that sibling exactly when nothing but blanks stands between its end and the
start of the definition (`Outline.precedes_iff`), since a tag of another definition
between the two is not blank.
-/

namespace TemplateDocs

namespace Item

theorem startsHere_of_next_ne_text {text rest : Text} {item : Item}
    (h : next text = (item, rest)) (hitem : ∀ run, item ≠ leaf (.text run)) :
    Tag.startsHere text = true := by
  by_cases hstarts : Tag.startsHere text = true
  · exact hstarts
  · rw [next, if_neg hstarts, Prod.mk.injEq] at h
    exact absurd h.1.symm (hitem _)

theorem head?_of_startsHere {text : Text} (h : Tag.startsHere text = true) :
    text.head? = some '<' := by
  cases text with
  | nil => cases h
  | cons c rest =>
      by_cases hc : c = '<'
      · rw [hc]
        rfl
      · rw [RawToken.startsHere_cons_of_ne hc] at h
        cases h

end Item

theorem Piece.StandsAt.exists_cons {source : Text} {offset : Nat} {piece : Piece}
    (h : piece.StandsAt source offset) (hitem : ∀ run, piece.item ≠ .leaf (.text run)) :
    ∃ rest, piece.item.lexeme = '<' :: rest := by
  have hhead := Item.head?_of_startsHere (Item.startsHere_of_next_ne_text h.scanned hitem)
  rw [h.drop_eq, List.head?_append_of_ne_nil _ h.ne_nil] at hhead
  exact List.head?_eq_some_iff.mp hhead

theorem Piece.StandsAt.allBlank_eq_false {source : Text} {offset : Nat} {piece : Piece}
    (h : piece.StandsAt source offset) (hitem : ∀ run, piece.item ≠ .leaf (.text run)) :
    Text.allBlank piece.item.lexeme = false := by
  obtain ⟨rest, hrest⟩ := h.exists_cons hitem
  rw [hrest]
  rfl

namespace Tree

def IsComment (tree : Tree) (id : Nat) : Prop :=
  ∃ body, tree.content? id = some (.comment body)

/-- A comment ends at an offset or before it, and the rest up to the offset is blank. -/
structure Precedes (source : Text) (tree : Tree) (spans : Nat → Nat × Nat)
    (offset id : Nat) : Prop where
  comment : tree.IsComment id
  le : (spans id).2 ≤ offset
  blank : Text.allBlank (source.extract (spans id).2 offset) = true

/-- The comments before a number are those that end before an offset or there. -/
def CutAt (tree : Tree) (spans : Nat → Nat × Nat) (first offset : Nat) : Prop :=
  ∀ id, tree.IsComment id → ((spans id).2 ≤ offset ↔ id < first)

/-- Blank text lets the comment before it stand before what follows, and all else does not. -/
theorem precedes_add_iff {source stretch rest : Text} {tree : Tree}
    {spans : Nat → Nat × Nat} {offset id : Nat} (h : source.drop offset = stretch ++ rest)
    (hle : (spans id).2 ≤ offset) :
    Precedes source tree spans (offset + stretch.length) id ↔
      Precedes source tree spans offset id ∧ Text.allBlank stretch = true := by
  have hblank := Text.allBlank_extract_add h hle
  constructor
  · intro hbefore
    have hboth := hbefore.blank
    rw [hblank, Bool.and_eq_true] at hboth
    exact ⟨⟨hbefore.comment, hle, hboth.1⟩, hboth.2⟩
  · rintro ⟨hbefore, hstretch⟩
    refine ⟨hbefore.comment, by omega, ?_⟩
    rw [hblank, hbefore.blank, hstretch]
    rfl

theorem precedes_stretch_iff {source stretch rest : Text} {tree : Tree}
    {spans : Nat → Nat × Nat} {offset first last : Nat}
    (h : source.drop offset = stretch ++ rest) (hcut : CutAt tree spans first offset)
    (hend : CutAt tree spans last (offset + stretch.length))
    (hnone : ∀ id, tree.IsComment id → id < last → id < first) (id : Nat) :
    Precedes source tree spans (offset + stretch.length) id ↔
      Precedes source tree spans offset id ∧ Text.allBlank stretch = true := by
  constructor
  · intro hbefore
    have hlast : id < last := (hend id hbefore.comment).mp hbefore.le
    have hfirst : id < first := hnone id hbefore.comment hlast
    exact (precedes_add_iff h ((hcut id hbefore.comment).mpr hfirst)).mp hbefore
  · intro hbefore
    exact (precedes_add_iff h hbefore.1.le).mpr hbefore

theorem earlierSiblings_eq {tree : Tree} {id parent : Nat} {before behind : List Nat}
    (hparent : tree.parent? id = some parent)
    (hchildren : tree.children parent = before.reverse ++ id :: behind) (hid : id ∉ before) :
    tree.earlierSiblings id = before := by
  have hindex : (before.reverse ++ id :: behind).idxOf? id = some before.length := by
    rw [List.idxOf?_eq_some_iff]
    refine ⟨by simp, by simp, fun j hj heq => hid ?_⟩
    rw [List.getElem_append_left (by simpa using hj)] at heq
    exact heq ▸ List.mem_reverse.mp (List.getElem_mem _)
  simp only [earlierSiblings, indexInParent?, hparent, Option.bind_some, hchildren, hindex]
  rw [← List.length_reverse, List.take_left, List.reverse_reverse]

end Tree

namespace FileRecords

def nearestComment? (tree : Tree) (ids : List Nat) : Option Nat :=
  (firstSolid? tree ids).filter fun id => (commentText? tree id).isSome

theorem precedingComment?_eq {tree : Tree} {id : Nat} {before : List Nat}
    (h : tree.earlierSiblings id = before) :
    precedingComment? tree id = nearestComment? tree before := by
  rw [precedingComment?, h]
  rfl

theorem commentText?_eq_some_iff {tree : Tree} {id : Nat} {body : Text} :
    commentText? tree id = some body ↔ tree.content? id = some (.comment body) := by
  unfold commentText?
  cases tree.content? id with
  | none => simp
  | some content => cases content <;> simp [Content.comment?]

theorem isSome_commentText?_iff {tree : Tree} {id : Nat} :
    (commentText? tree id).isSome = true ↔ tree.IsComment id := by
  rw [Option.isSome_iff_exists]
  exact exists_congr fun body => commentText?_eq_some_iff

section Nearest

variable {tree : Tree} {id : Nat} (ids : List Nat)

theorem firstSolid?_cons (h : tree.isBlankText id = false) :
    firstSolid? tree (id :: ids) = some id := by
  simp [firstSolid?, h]

theorem firstSolid?_cons_blank (h : tree.isBlankText id = true) :
    firstSolid? tree (id :: ids) = firstSolid? tree ids := by
  simp [firstSolid?, h]

theorem nearestComment?_cons_blank (h : tree.isBlankText id = true) :
    nearestComment? tree (id :: ids) = nearestComment? tree ids := by
  rw [nearestComment?, firstSolid?_cons_blank ids h]
  rfl

theorem nearestComment?_cons_comment (h : tree.IsComment id) :
    nearestComment? tree (id :: ids) = some id := by
  obtain ⟨body, hbody⟩ := h
  have hsolid : tree.isBlankText id = false := by
    simp [Tree.isBlankText, hbody, Content.isBlankText]
  have hcomment : (commentText? tree id).isSome = true :=
    isSome_commentText?_iff.mpr ⟨body, hbody⟩
  rw [nearestComment?, firstSolid?_cons ids hsolid, Option.filter_some, if_pos hcomment]

theorem nearestComment?_cons_other (h : tree.isBlankText id = false)
    (hother : ¬ tree.IsComment id) : nearestComment? tree (id :: ids) = none := by
  have hcomment : ¬ (commentText? tree id).isSome = true := fun hcomment =>
    hother (isSome_commentText?_iff.mp hcomment)
  rw [nearestComment?, firstSolid?_cons ids h, Option.filter_some, if_neg hcomment]

end Nearest

end FileRecords

namespace Outline

open FileRecords
open TemplateDocs.Tree (Precedes CutAt)

section Walk

variable {source : Text} {tree : Tree} {spans : Nat → Nat × Nat}

theorem SpannedBy.cutAt {first offset : Nat} {outline : Outline}
    (hspanned : outline.SpannedBy spans first offset)
    (hproper : ∀ id, tree.IsComment id → (spans id).1 < (spans id).2)
    (hbefore : ∀ id, tree.IsComment id → id < first → (spans id).2 ≤ offset)
    (hend : CutAt tree spans (first + outline.count) (offset + outline.source.length)) :
    CutAt tree spans first offset := by
  intro id hid
  constructor
  · intro hle
    by_cases hfirst : id < first
    · exact hfirst
    · have hpos : (spans id).1 < (spans id).2 := hproper id hid
      by_cases hlast : id < first + outline.count
      · have hbounds := hspanned.bounds (Nat.not_lt.mp hfirst) hlast
        omega
      · have hbehind : ¬ (spans id).2 ≤ offset + outline.source.length := fun hle =>
          hlast ((hend id hid).mp hle)
        omega
  · exact hbefore id hid

theorem not_isComment_of_content? {id : Nat} {content : Content}
    (h : tree.content? id = some content) (hother : ∀ body, content ≠ .comment body) :
    ¬ tree.IsComment id := by
  rintro ⟨body, hbody⟩
  rw [hbody] at h
  exact hother body (Option.some.inj h).symm

/-- What a leaf changes: blank text changes nothing, and of the others only a comment counts. -/
theorem nearestComment?_leaf {part : Leaf} {start stop : Position} {first offset : Nat}
    {before : List Nat} (hcontent : tree.content? first = some part.content)
    (hspan : spans first = (offset, offset + part.lexeme.length))
    (hleaf : Piece.StandsAt source offset ⟨.leaf part, start, stop⟩)
    (hcut : CutAt tree spans first offset)
    (hend : CutAt tree spans (first + 1) (offset + part.lexeme.length))
    (hnearest : ∀ id,
      Precedes source tree spans offset id ↔ nearestComment? tree before = some id)
    (id : Nat) :
    Precedes source tree spans (offset + part.lexeme.length) id ↔
      nearestComment? tree (first :: before) = some id := by
  have hdrop : source.drop offset =
      part.lexeme ++ source.drop (offset + part.lexeme.length) := hleaf.drop_eq
  -- Apart from a comment, no leaf is itself in reach of what follows.
  have hothers (hnot : ¬ tree.IsComment first) (id : Nat) :
      Precedes source tree spans (offset + part.lexeme.length) id ↔
        Precedes source tree spans offset id ∧ Text.allBlank part.lexeme = true := by
    apply Tree.precedes_stretch_iff hdrop hcut hend
    intro other hother hlt
    have hne : other ≠ first := fun heq => hnot (heq ▸ hother)
    omega
  have hblankText : tree.isBlankText first = part.content.isBlankText := by
    simp [Tree.isBlankText, hcontent]
  cases part with
  | text run =>
      have hnot : ¬ tree.IsComment first :=
        not_isComment_of_content? hcontent (by simp [Leaf.content])
      rw [hothers hnot]
      cases hblank : Text.allBlank run with
      | true =>
          have hskip : tree.isBlankText first = true := hblankText.trans hblank
          rw [nearestComment?_cons_blank before hskip, ← hnearest]
          exact and_iff_left hblank
      | false =>
          have hsolid : tree.isBlankText first = false := hblankText.trans hblank
          rw [nearestComment?_cons_other before hsolid hnot]
          simp [Leaf.lexeme, hblank]
  | tag lexeme =>
      have hnot : ¬ tree.IsComment first :=
        not_isComment_of_content? hcontent (by simp [Leaf.content])
      have hsolid : Text.allBlank (Leaf.tag lexeme).lexeme = false :=
        hleaf.allBlank_eq_false (by simp)
      rw [hothers hnot, nearestComment?_cons_other before hblankText hnot]
      simp [hsolid]
  | comment body =>
      have hcomment : tree.IsComment first := ⟨body, hcontent⟩
      rw [nearestComment?_cons_comment before hcomment, Option.some.injEq]
      constructor
      · intro hbefore
        have hlt : id < first + 1 := (hend id hbefore.comment).mp hbefore.le
        by_cases hid : id < first
        · have hle : (spans id).2 ≤ offset := (hcut id hbefore.comment).mpr hid
          have hblank := ((Tree.precedes_add_iff hdrop hle).mp hbefore).2
          cases hblank
        · omega
      · rintro rfl
        refine ⟨hcomment, by rw [hspan], ?_⟩
        rw [hspan]
        exact Text.allBlank_extract_self _ _

/--
Where a walk over a tree stands before an outline.  `before` are the siblings before
the outline, the nearest first; of the comments that have ended, the one in reach is
the nearest sibling.
-/
structure Reached (source : Text) (tree : Tree) (spans : Nat → Nat × Nat)
    (parent first offset : Nat) (before : List Nat) (outline : Outline) : Prop where
  stands : outline.StandsIn tree parent first
  spanned : outline.SpannedBy spans first offset
  placed : outline.PlacedAt source offset
  children : tree.children parent = before.reverse ++ outline.topIds first
  siblings : ∀ id ∈ before, id < first
  proper : ∀ id, tree.IsComment id → (spans id).1 < (spans id).2
  ended : ∀ id, tree.IsComment id → id < first → (spans id).2 ≤ offset
  stop : CutAt tree spans (first + outline.count) (offset + outline.source.length)
  nearest : ∀ id, Precedes source tree spans offset id ↔ nearestComment? tree before = some id

theorem Reached.cutAt {parent first offset : Nat} {before : List Nat} {outline : Outline}
    (h : Reached source tree spans parent first offset before outline) :
    CutAt tree spans first offset :=
  h.spanned.cutAt h.proper h.ended h.stop

theorem lt_of_mem_cons {first last : Nat} {before : List Nat}
    (h : ∀ id ∈ before, id < first) (hlt : first < last) {id : Nat}
    (hid : id ∈ first :: before) : id < last := by
  rcases List.mem_cons.mp hid with rfl | hid
  · exact hlt
  · exact Nat.lt_trans (h id hid) hlt

theorem Reached.behindLeaf {parent first offset : Nat} {before : List Nat} {part : Leaf}
    {start stop : Position} {next : Outline}
    (h : Reached source tree spans parent first offset before (leaf part start stop next)) :
    Reached source tree spans parent (first + 1) (offset + part.lexeme.length)
      (first :: before) next := by
  obtain ⟨hnode, hstands⟩ := h.stands
  obtain ⟨hspan, hspanned⟩ := h.spanned
  obtain ⟨hleaf, hplaced⟩ := h.placed
  have hcontent : tree.content? first = some part.content := by simp [Tree.content?, hnode]
  have hended : ∀ id, tree.IsComment id → id < first + 1 →
      (spans id).2 ≤ offset + part.lexeme.length := by
    intro id hid hlt
    by_cases hfirst : id = first
    · rw [hfirst, hspan]
    · have hearlier := h.ended id hid (by omega)
      omega
  have hstop : CutAt tree spans (first + 1 + next.count)
      (offset + part.lexeme.length + next.source.length) := by
    have hstop := h.stop
    rw [count, Outline.source, List.length_append] at hstop
    rw [Nat.add_assoc offset, Nat.add_right_comm]
    exact hstop
  refine ⟨hstands, hspanned, hplaced, ?_, fun id => lt_of_mem_cons h.siblings (by omega),
    h.proper, hended, hstop, ?_⟩
  · rw [h.children, topIds, List.reverse_cons, List.append_assoc, List.singleton_append]
  · exact nearestComment?_leaf hcontent hspan hleaf h.cutAt
      (hspanned.cutAt h.proper hended hstop) h.nearest

section Definition

variable {parent first offset : Nat} {before : List Nat} {opening : Opening} {inside : Outline}
  {closing : Closing} {next : Outline}

theorem Reached.content?_definition
    (h : Reached source tree spans parent first offset before
      (definition opening inside closing next)) :
    tree.content? first = some (.definition (definitionOf opening inside closing)) := by
  obtain ⟨hnode, -⟩ := h.stands
  simp [Tree.content?, hnode]

theorem Reached.ended_inside
    (h : Reached source tree spans parent first offset before
      (definition opening inside closing next)) {id : Nat} (hid : tree.IsComment id)
    (hlt : id < first + 1) : id < first ∧ (spans id).2 ≤ offset := by
  have hne : id ≠ first := fun heq =>
    not_isComment_of_content? h.content?_definition (by simp) (heq ▸ hid)
  have hfirst : id < first := by omega
  exact ⟨hfirst, h.ended id hid hfirst⟩

theorem Reached.ended_closing
    (h : Reached source tree spans parent first offset before
      (definition opening inside closing next)) {id : Nat} (hid : tree.IsComment id)
    (hlt : id < first + inside.count + 1) :
    (spans id).2 ≤ offset + opening.lexeme.length + inside.source.length := by
  obtain ⟨-, hinside, -⟩ := h.spanned
  by_cases hfirst : id < first + 1
  · have hearlier := (h.ended_inside hid hfirst).2
    omega
  · exact (hinside.bounds (Nat.not_lt.mp hfirst) (by omega)).2

theorem Reached.stop_next
    (h : Reached source tree spans parent first offset before
      (definition opening inside closing next)) :
    CutAt tree spans (first + inside.count + 1 + next.count)
      (offset + opening.lexeme.length + inside.source.length + closing.lexeme.length +
        next.source.length) := by
  have hstop := h.stop
  have hcount : first + inside.count + 1 + next.count =
      first + (inside.count + next.count + 1) := by omega
  rw [hcount]
  simp only [count, Outline.source, List.length_append] at hstop
  simpa only [Nat.add_assoc] using hstop

theorem Reached.cutAt_next
    (h : Reached source tree spans parent first offset before
      (definition opening inside closing next)) :
    CutAt tree spans (first + inside.count + 1)
      (offset + opening.lexeme.length + inside.source.length + closing.lexeme.length) := by
  obtain ⟨-, -, hnext⟩ := h.spanned
  apply hnext.cutAt h.proper _ h.stop_next
  intro id hid hlt
  have hearlier := h.ended_closing hid hlt
  omega

theorem Reached.cutAt_closing
    (h : Reached source tree spans parent first offset before
      (definition opening inside closing next)) :
    CutAt tree spans (first + inside.count + 1)
      (offset + opening.lexeme.length + inside.source.length) := by
  intro id hid
  constructor
  · intro hle
    exact (h.cutAt_next id hid).mp (by omega)
  · exact h.ended_closing hid

/-- The opening tag stands between the inside of a definition and all comments before it. -/
theorem Reached.intoDefinition
    (h : Reached source tree spans parent first offset before
      (definition opening inside closing next)) :
    Reached source tree spans first (first + 1) (offset + opening.lexeme.length) [] inside := by
  obtain ⟨hnode, hstands, -⟩ := h.stands
  obtain ⟨hspan, hspanned, -⟩ := h.spanned
  obtain ⟨-, ⟨headerStop, hopening⟩, hplaced, -, -⟩ := h.placed
  have hended : ∀ id, tree.IsComment id → id < first + 1 →
      (spans id).2 ≤ offset + opening.lexeme.length := by
    intro id hid hlt
    have hearlier := (h.ended_inside hid hlt).2
    omega
  have hstop : CutAt tree spans (first + 1 + inside.count)
      (offset + opening.lexeme.length + inside.source.length) := by
    rw [Nat.add_right_comm]
    exact h.cutAt_closing
  refine ⟨hstands, hspanned, hplaced, ?_, by simp, h.proper, hended, hstop, fun id => ?_⟩
  · rw [Tree.children_eq_of_node? hnode]
    rfl
  · have hdrop : source.drop offset =
        opening.lexeme ++ source.drop (offset + opening.lexeme.length) := hopening.drop_eq
    have hblank : Text.allBlank opening.lexeme = false := hopening.allBlank_eq_false (by simp)
    have hreach := Tree.precedes_stretch_iff hdrop h.cutAt
      (hspanned.cutAt h.proper hended hstop)
      (fun other hother hlt => (h.ended_inside hother hlt).1) id
    simp [hreach, hblank, nearestComment?, firstSolid?]

/-- The closing tag stands between all comments before it and what follows a definition. -/
theorem Reached.behindDefinition
    (h : Reached source tree spans parent first offset before
      (definition opening inside closing next)) :
    Reached source tree spans parent (first + inside.count + 1)
      (offset + opening.lexeme.length + inside.source.length + closing.lexeme.length)
      (first :: before) next := by
  obtain ⟨hnode, -, hstands⟩ := h.stands
  obtain ⟨hspan, -, hspanned⟩ := h.spanned
  obtain ⟨-, -, -, hclosing, hplaced⟩ := h.placed
  have hcontent := h.content?_definition
  have hsolid : tree.isBlankText first = false := by
    simp [Tree.isBlankText, hcontent, Content.isBlankText]
  refine ⟨hstands, hspanned, hplaced, ?_, fun id => lt_of_mem_cons h.siblings (by omega),
    h.proper, fun id hid => (h.cutAt_next id hid).mpr, h.stop_next, fun id => ?_⟩
  · rw [h.children, topIds, List.reverse_cons, List.append_assoc, List.singleton_append]
  · have hdrop := hclosing.drop_eq
    rw [Closing.item_lexeme_piece] at hdrop
    have hblank : Text.allBlank closing.lexeme = false :=
      hclosing.allBlank_eq_false (by simp [Closing.piece])
    have hreach := Tree.precedes_stretch_iff hdrop h.cutAt_closing h.cutAt_next
      (fun other hother hlt => hlt) id
    rw [nearestComment?_cons_other before hsolid (not_isComment_of_content? hcontent (by simp))]
    simp [hreach, hblank]

theorem Reached.precedingComment?_eq
    (h : Reached source tree spans parent first offset before
      (definition opening inside closing next)) :
    precedingComment? tree first = nearestComment? tree before := by
  obtain ⟨hnode, -⟩ := h.stands
  have hparent : tree.parent? first = some parent := by simp [Tree.parent?, hnode]
  have hself : first ∉ before := fun hmem => Nat.lt_irrefl first (h.siblings first hmem)
  exact FileRecords.precedingComment?_eq
    (Tree.earlierSiblings_eq hparent h.children hself)

end Definition

/--
A comment is the one right before a definition exactly when only blanks stand between
the two.
-/
theorem precedes_iff {parent first offset : Nat} {before : List Nat} {outline : Outline}
    (h : Reached source tree spans parent first offset before outline) {id : Nat}
    (hle : first ≤ id) (hlt : id < first + outline.count) {definition : Definition}
    (hdefinition : tree.content? id = some (.definition definition)) (comment : Nat) :
    Precedes source tree spans (spans id).1 comment ↔
      precedingComment? tree id = some comment := by
  induction outline generalizing parent first offset before with
  | nil => exact absurd hlt (Nat.not_lt.mpr hle)
  | leaf part start stop next ih =>
      obtain ⟨hnode, -⟩ := h.stands
      have hne : id ≠ first := by
        rintro rfl
        simp only [Tree.content?, hnode, Option.map_some, Option.some.injEq] at hdefinition
        cases part <;> cases hdefinition
      rw [count] at hlt
      exact ih h.behindLeaf (by omega) (by omega)
  | definition opening inside closing next ihInside ihNext =>
      rw [count] at hlt
      by_cases hid : id = first
      · subst hid
        obtain ⟨hspan, -⟩ := h.spanned
        rw [hspan, h.precedingComment?_eq]
        exact h.nearest comment
      · by_cases hinside : id < first + inside.count + 1
        · exact ihInside h.intoDefinition (by omega) (by omega)
        · exact ihNext h.behindDefinition (by omega) (by omega)

end Walk

end Outline

end TemplateDocs

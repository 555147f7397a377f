import TemplateDocs.Proofs.Record.Documentation
import TemplateDocs.Proofs.Tree.Traversal

/-!
# One comment, one definition

In a tree that has grown by pushes, of whatever shape, a definition is documented by the
nearest sibling before it that is not blank text, when that is a marked comment.  So no
comment documents two definitions (`FileRecords.nearestBefore_unique`), and the comment that
describes the file documents none.
-/

namespace TemplateDocs

namespace Tree

def IsDefinition (tree : Tree) (id : Nat) : Prop :=
  ∃ definition, tree.content? id = some (.definition definition)

/-- Of the siblings before a node, the nearest one that is not blank text. -/
def NearestBefore (tree : Tree) (near id : Nat) : Prop :=
  ∃ parent before between behind,
    tree.children parent = before ++ near :: (between ++ id :: behind) ∧
      (∀ sibling ∈ between, tree.isBlankText sibling = true) ∧ tree.isBlankText near = false

def Leads (tree : Tree) (id : Nat) : Prop :=
  ∃ before behind, tree.children 0 = before ++ id :: behind ∧
    (∀ sibling ∈ before, tree.isBlankText sibling = true) ∧ tree.isBlankText id = false

def AttachedTo (tree : Tree) (marker : Char) (comment id : Nat) (text : Text) : Prop :=
  tree.NearestBefore comment id ∧ tree.content? comment = some (.comment (marker :: text))

theorem IsDefinition.isBlankText_eq {tree : Tree} {id : Nat} (h : tree.IsDefinition id) :
    tree.isBlankText id = false := by
  obtain ⟨definition, hdefinition⟩ := h
  simp [isBlankText, hdefinition, Content.isBlankText]

theorem Rooted.mem_definitions {tree : Tree} (h : tree.Rooted) {id : Nat}
    {definition : Definition} :
    (id, definition) ∈ tree.definitions ↔
      tree.content? id = some (.definition definition) := by
  rw [mem_definitions_iff, and_iff_right_of_imp]
  intro hcontent
  obtain ⟨node, hnode, -⟩ := Option.map_eq_some_iff.mp hcontent
  rw [preorder_eq_listing h, mem_listing_zero h]
  exact lt_size_of_node? hnode

theorem map_fst_definitions (tree : Tree) :
    tree.definitions.map Prod.fst =
      tree.preorder.filter fun id => ((tree.content? id).bind Content.definition?).isSome := by
  rw [definitions, List.map_filterMap, ← List.filterMap_eq_filter]
  congr 1
  funext id
  cases hfound : (tree.content? id).bind Content.definition? <;> simp [Option.guard, hfound]

end Tree

namespace FileRecords

open TemplateDocs.Tree (Rooted NearestBefore Leads AttachedTo IsDefinition IsComment)

variable {tree : Tree}

theorem firstSolid?_eq_some_iff {ids : List Nat} {id : Nat} :
    firstSolid? tree ids = some id ↔
      ∃ before behind, ids = before ++ id :: behind ∧
        (∀ sibling ∈ before, tree.isBlankText sibling = true) ∧ tree.isBlankText id = false := by
  simp only [firstSolid?, List.find?_eq_some_iff_append, Bool.not_eq_true', Bool.not_not]
  constructor
  · rintro ⟨hid, before, behind, hids, hbefore⟩
    exact ⟨before, behind, hids, hbefore, hid⟩
  · rintro ⟨before, behind, hids, hbefore, hid⟩
    exact ⟨hid, before, behind, hids, hbefore⟩

theorem earlierSiblings_of_children (h : tree.Rooted) {id parent : Nat}
    {before behind : List Nat} (hchildren : tree.children parent = before ++ id :: behind) :
    tree.earlierSiblings id = before.reverse := by
  have hmem : id ∈ tree.children parent := by
    rw [hchildren]
    exact List.mem_append_right before List.mem_cons_self
  have hnodup := h.nodup_children parent
  rw [hchildren] at hnodup
  have hid : id ∉ before.reverse := by
    rw [List.mem_reverse]
    exact fun hbefore => (List.nodup_append.mp hnodup).2.2 id hbefore id List.mem_cons_self rfl
  rw [← List.reverse_reverse before] at hchildren
  exact Tree.earlierSiblings_eq ((h.mem_children parent id).mp hmem) hchildren hid

theorem firstSolid?_earlierSiblings_iff (h : tree.Rooted) {near id : Nat} :
    firstSolid? tree (tree.earlierSiblings id) = some near ↔ tree.NearestBefore near id := by
  constructor
  · intro hfound
    cases hparent : tree.parent? id with
    | none =>
        rw [Tree.earlierSiblings, hparent] at hfound
        cases hfound
    | some parent =>
        obtain ⟨all, behind, hchildren⟩ :=
          List.append_of_mem ((h.mem_children parent id).mpr hparent)
        rw [earlierSiblings_of_children h hchildren, firstSolid?_eq_some_iff] at hfound
        obtain ⟨between, before, hall, hblank, hnear⟩ := hfound
        rw [List.reverse_eq_iff] at hall
        refine ⟨parent, before.reverse, between.reverse, behind, ?_, ?_, hnear⟩
        · rw [hchildren, hall]
          simp
        · exact fun sibling hsibling => hblank sibling (List.mem_reverse.mp hsibling)
  · rintro ⟨parent, before, between, behind, hchildren, hblank, hnear⟩
    have hall : tree.children parent = (before ++ near :: between) ++ id :: behind := by
      rw [hchildren, List.append_assoc, List.cons_append]
    rw [earlierSiblings_of_children h hall, firstSolid?_eq_some_iff]
    refine ⟨between.reverse, before.reverse, by simp, ?_, hnear⟩
    exact fun sibling hsibling => hblank sibling (List.mem_reverse.mp hsibling)

/-- Of the nodes behind a sibling, the first one that is not blank text has it nearest. -/
theorem firstSolid?_behind (h : tree.Rooted) {near id parent : Nat} {before rest : List Nat}
    (hnear : tree.NearestBefore near id) (hid : tree.isBlankText id = false)
    (hchildren : tree.children parent = before ++ near :: rest) :
    firstSolid? tree rest = some id := by
  obtain ⟨other, first, between, behind, hsplit, hblank, -⟩ := hnear
  have hmem : near ∈ tree.children other := by
    rw [hsplit]
    exact List.mem_append_right first List.mem_cons_self
  have hmem' : near ∈ tree.children parent := by
    rw [hchildren]
    exact List.mem_append_right before List.mem_cons_self
  have hparent : other = parent := by
    rw [h.mem_children] at hmem hmem'
    exact Option.some.inj (hmem.symm.trans hmem')
  -- A sibling stands in one place of its row only, so the two rows behind it are one.
  have hnodup := h.nodup_children parent
  rw [hchildren, List.nodup_append] at hnodup
  have hbefore : near ∉ before := fun hbefore =>
    hnodup.2.2 near hbefore near List.mem_cons_self rfl
  have hrest : near ∉ rest := (List.nodup_cons.mp hnodup.2.1).1
  rw [hparent, hchildren, List.append_cons_inj_of_notMem hbefore hrest] at hsplit
  exact firstSolid?_eq_some_iff.mpr ⟨between, behind, hsplit.2.2, hblank, hid⟩

theorem nearestBefore_unique (h : tree.Rooted) {near first second : Nat}
    (hfirst : tree.NearestBefore near first) (hsecond : tree.NearestBefore near second)
    (hdefinition : tree.IsDefinition first) (hother : tree.IsDefinition second) :
    first = second := by
  have hplace : tree.NearestBefore near first := hfirst
  obtain ⟨parent, before, between, behind, hchildren, -, -⟩ := hplace
  have hfound := firstSolid?_behind h hfirst hdefinition.isBlankText_eq hchildren
  rw [firstSolid?_behind h hsecond hother.isBlankText_eq hchildren, Option.some.injEq] at hfound
  exact hfound.symm

theorem precedingComment?_iff (h : tree.Rooted) {comment id : Nat} :
    precedingComment? tree id = some comment ↔
      tree.NearestBefore comment id ∧ tree.IsComment comment := by
  rw [precedingComment?, Option.filter_eq_some_iff, firstSolid?_earlierSiblings_iff h,
    isSome_commentText?_iff]

theorem attached?_iff (h : tree.Rooted) {marker : Char} {id : Nat} {body : Text} :
    attached? marker tree id = some body ↔
      ∃ comment text, tree.AttachedTo marker comment id text ∧ body = marker :: text := by
  rw [attached?_eq_some_iff]
  simp only [precedingComment?_iff h]
  constructor
  · rintro ⟨⟨comment, ⟨hnear, -⟩, hbody⟩, text, rfl⟩
    exact ⟨comment, text, ⟨hnear, hbody⟩, rfl⟩
  · rintro ⟨comment, text, ⟨hnear, hbody⟩, rfl⟩
    exact ⟨⟨comment, ⟨hnear, _, hbody⟩, hbody⟩, text, rfl⟩

/-- What documents a node: the marked comment right before it, or else nothing. -/
structure DocumentedBy (marker : Char) (tree : Tree) (id : Nat) (doc : DocComment) : Prop where
  attached : ∀ comment text, tree.AttachedTo marker comment id text → doc = DocComment.parse text
  otherwise : (∀ comment text, ¬ tree.AttachedTo marker comment id text) → doc = .empty

theorem documentedBy_attached? (h : tree.Rooted) (marker : Char) (id : Nat) :
    DocumentedBy marker tree id
      (((attached? marker tree id).map (DocComment.parseMarked marker)).getD .empty) := by
  constructor
  · intro comment text hattached
    have hbody := (attached?_iff h).mpr ⟨comment, text, hattached, rfl⟩
    rw [hbody, Option.map_some, Option.getD_some, parseMarked_cons]
  · intro hnone
    have hbody : attached? marker tree id = none := by
      rw [Option.eq_none_iff_forall_ne_some]
      intro body hbody
      obtain ⟨comment, text, hattached, -⟩ := (attached?_iff h).mp hbody
      exact hnone comment text hattached
    rw [hbody, Option.map_none, Option.getD_none]

def Describes (marker : Char) (tree : Tree) (regions : List Region) (filename : Text) (id : Nat)
    (record : Record) : Prop :=
  ∃ node definition doc, tree.node? id = some node ∧ node.content = .definition definition ∧
    record = ⟨definition.name, definition.kind, definition.arguments, definition.catchAll,
      definition.source, filename, (Region.find? regions node.start).map Region.name, doc⟩ ∧
    DocumentedBy marker tree id doc

theorem describes_recordOf (h : tree.Rooted) (marker : Char) (regions : List Region)
    (filename : Text) {id : Nat} {definition : Definition}
    (hdefinition : tree.content? id = some (.definition definition)) :
    Describes marker tree regions filename id
      (recordOf marker tree regions filename id definition) := by
  obtain ⟨node, hnode, hcontent⟩ := Option.map_eq_some_iff.mp hdefinition
  refine ⟨node, definition, _, hnode, hcontent, ?_, documentedBy_attached? h marker id⟩
  rw [recordOf, hnode, Option.bind_some]

/-- The records of a file and its description, with no comment used for two of them. -/
structure Attaches (marker : Char) (tree : Tree) (regions : List Region) (filename : Text)
    (found : FileRecords) : Prop where
  records : ∃ ids : List Nat, ids.Sublist tree.preorder ∧ ids.Nodup ∧
    (∀ id, id ∈ ids ↔ tree.IsDefinition id) ∧
    List.Forall₂ (Describes marker tree regions filename) ids found.records
  /-- No comment is attached to two definitions. -/
  once : ∀ comment first second text other,
    tree.AttachedTo marker comment first text → tree.AttachedTo marker comment second other →
    tree.IsDefinition first → tree.IsDefinition second → first = second
  /-- The file is described by its leading marked comment, if that is attached to nothing. -/
  description : ∀ doc, found.description = some doc ↔
    ∃ comment text, tree.Leads comment ∧
      tree.content? comment = some (.comment (marker :: text)) ∧
      (∀ id, tree.IsDefinition id → ∀ other, ¬ tree.AttachedTo marker comment id other) ∧
      doc = DocComment.parse text
  /-- A leading comment that is attached to a definition does not describe the file. -/
  claimed : ∀ comment id text, tree.Leads comment → tree.IsDefinition id →
    tree.AttachedTo marker comment id text → found.description = none

theorem description_collect_iff (h : tree.Rooted) (marker : Char) (regions : List Region)
    (filename : Text) (doc : DocComment) :
    (collect marker tree regions filename).description = some doc ↔
      ∃ comment text, tree.Leads comment ∧
        tree.content? comment = some (.comment (marker :: text)) ∧
        (∀ id, tree.IsDefinition id → ∀ other, ¬ tree.AttachedTo marker comment id other) ∧
        doc = DocComment.parse text := by
  have htaken {comment : Nat} {text : Text}
      (hbody : tree.content? comment = some (.comment (marker :: text))) :
      comment ∉ tree.definitions.filterMap (fun entry => precedingComment? tree entry.1) ↔
        ∀ id, tree.IsDefinition id → ∀ other, ¬ tree.AttachedTo marker comment id other := by
    simp only [List.mem_filterMap, not_exists, not_and, Prod.forall, h.mem_definitions,
      precedingComment?_iff h]
    constructor
    · rintro hfree id ⟨definition, hdefinition⟩ other ⟨hnear, -⟩
      exact hfree id definition hdefinition hnear ⟨_, hbody⟩
    · intro hfree id definition hdefinition hnear _
      exact hfree id ⟨definition, hdefinition⟩ text ⟨hnear, hbody⟩
  rw [collect, description?_eq_some_iff]
  refine exists_congr fun comment => exists_congr fun text => ?_
  rw [firstSolid?_eq_some_iff]
  constructor
  · rintro ⟨hleads, hfree, hbody, hdoc⟩
    exact ⟨hleads, hbody, (htaken hbody).mp hfree, hdoc⟩
  · rintro ⟨hleads, hbody, hfree, hdoc⟩
    exact ⟨hleads, (htaken hbody).mpr hfree, hbody, hdoc⟩

theorem leads_unique {first second : Nat} (hfirst : tree.Leads first)
    (hsecond : tree.Leads second) : first = second := by
  have hfound := firstSolid?_eq_some_iff.mpr hfirst
  rw [firstSolid?_eq_some_iff.mpr hsecond, Option.some.injEq] at hfound
  exact hfound.symm

/--
Whatever the shape of a tree, its definitions have one record each, documented by the marked
comment right before them, and no comment serves two definitions or a definition and the
file.
-/
theorem collect_attaches_once {pushes : List Tree.Push} (h : Tree.empty.Admits pushes)
    (marker : Char) (regions : List Region) (filename : Text) :
    Attaches marker (Tree.empty.grow pushes) regions filename
      (collect marker (Tree.empty.grow pushes) regions filename) := by
  have hrooted : (Tree.empty.grow pushes).Rooted := Tree.rooted_empty.grow h
  refine ⟨⟨(Tree.empty.grow pushes).definitions.map Prod.fst, ?_, ?_, ?_, ?_⟩, ?_,
    description_collect_iff hrooted marker regions filename, ?_⟩
  · rw [Tree.map_fst_definitions]
    exact List.filter_sublist
  · rw [Tree.map_fst_definitions, Tree.preorder_eq_listing hrooted]
    exact (Tree.nodup_listing hrooted 0).filter _
  · intro id
    simp only [List.mem_map, Prod.exists, exists_and_right, exists_eq_right,
      hrooted.mem_definitions]
    rfl
  · refine List.forall₂_map_left_iff.mpr (List.forall₂_map_right_iff.mpr
      (List.forall₂_same.mpr fun entry hentry => ?_))
    exact describes_recordOf hrooted marker regions filename (hrooted.mem_definitions.mp hentry)
  · intro comment first second text other hfirst hsecond
    exact nearestBefore_unique hrooted hfirst.1 hsecond.1
  · intro comment id text hleads hdefinition hattached
    rw [Option.eq_none_iff_forall_ne_some]
    intro doc hdoc
    obtain ⟨first, -, hfirst, -, hfree, -⟩ :=
      (description_collect_iff hrooted marker regions filename doc).mp hdoc
    rw [leads_unique hfirst hleads] at hfree
    exact hfree id hdefinition text hattached

/-- A leading comment that two blank texts part from its definition, and a nested definition. -/
theorem collect_attaches_once_nested : ∃ pushes : List Tree.Push, Tree.empty.Admits pushes ∧
    (collect '-' (Tree.empty.grow pushes) [] []).records.map
        (fun record => (record.name, record.doc.comment)) =
      [("outer".toList, " One.".toList), ("inner".toList, " Two.".toList), ("last".toList, [])] ∧
    (collect '-' (Tree.empty.grow pushes) [] []).description = none ∧
    Attaches '-' (Tree.empty.grow pushes) [] [] (collect '-' (Tree.empty.grow pushes) [] []) := by
  let place : Position := .origin
  let definition (name : String) : Content := .definition ⟨name.toList, .macroDef, [], none, []⟩
  let pushes : List Tree.Push :=
    [⟨0, .comment "- One.".toList, place, place⟩, ⟨0, .text [' '], place, place⟩,
      ⟨0, .text ['\n'], place, place⟩, ⟨0, definition "outer", place, place⟩,
      ⟨4, .comment "- Two.".toList, place, place⟩, ⟨4, definition "inner", place, place⟩,
      ⟨0, definition "last", place, place⟩]
  have hpushes : Tree.empty.Admits pushes := by simp [pushes, Tree.Admits]
  exact ⟨pushes, hpushes, by decide +kernel, by decide +kernel,
    collect_attaches_once hpushes '-' [] []⟩

end FileRecords

end TemplateDocs

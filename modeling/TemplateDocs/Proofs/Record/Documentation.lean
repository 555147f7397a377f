import Mathlib.Data.List.Forall2
import TemplateDocs.Proofs.Record.Adjacency
import TemplateDocs.Proofs.Region.Scope

/-!
# Documentation by adjacency

What documents a definition, and what documents the file, is read off the source: the
comment that only blanks part from the start of the definition, and the comment that
the file starts with, blanks aside, unless a definition comes next.
-/

namespace TemplateDocs

namespace Position

theorem ofOffset_inj {source : Text} {first second : Nat} (hfirst : first ≤ source.length)
    (hsecond : second ≤ source.length) (h : ofOffset source first = ofOffset source second) :
    first = second := by
  rcases Nat.lt_trichotomy first second with hlt | heq | hlt
  · have hless := ofOffset_lt_ofOffset hlt hsecond
    rw [h] at hless
    exact absurd hless (lt_irrefl _)
  · exact heq
  · have hless := ofOffset_lt_ofOffset hlt hfirst
    rw [h] at hless
    exact absurd hless (lt_irrefl _)

end Position

namespace Outline

open FileRecords
open TemplateDocs.Tree (CutAt)

theorem firstSolid?_topIds_iff {source : Text} {tree : Tree} {spans : Nat → Nat × Nat}
    {parent first offset : Nat} {outline : Outline}
    (hstands : outline.StandsIn tree parent first)
    (hspanned : outline.SpannedBy spans first offset)
    (hplaced : outline.PlacedAt source offset) {id : Nat} (hid : tree.IsComment id)
    (hle : first ≤ id) (hlt : id < first + outline.count) :
    firstSolid? tree (outline.topIds first) = some id ↔
      Text.allBlank (source.extract offset (spans id).1) = true := by
  induction outline generalizing parent first offset with
  | nil => exact absurd hlt (Nat.not_lt.mpr hle)
  | leaf part start stop next ih =>
      obtain ⟨hnode, hstandsNext⟩ := hstands
      obtain ⟨hspan, hspannedNext⟩ := hspanned
      obtain ⟨hleaf, hplacedNext⟩ := hplaced
      have hcontent : tree.content? first = some part.content := by simp [Tree.content?, hnode]
      have hblankText : tree.isBlankText first = part.content.isBlankText := by
        simp [Tree.isBlankText, hcontent]
      have hdrop : source.drop offset =
          part.lexeme ++ source.drop (offset + part.lexeme.length) := hleaf.drop_eq
      rw [count] at hlt
      rw [topIds]
      by_cases hfirst : id = first
      · subst hfirst
        obtain ⟨body, hbody⟩ := hid
        have hsolid : tree.isBlankText id = false := by
          simp [Tree.isBlankText, hbody, Content.isBlankText]
        rw [firstSolid?_cons _ hsolid, hspan]
        exact iff_of_true rfl (Text.allBlank_extract_self source offset)
      · have hbounds := hspannedNext.bounds (by omega) (by omega : id < _)
        have hblank := Text.allBlank_extract_of_drop hdrop hbounds.1
        -- A leaf that is not blank keeps the comment from being the first.
        have hsolid (hsolid : tree.isBlankText first = false)
            (hlexeme : Text.allBlank part.lexeme = false) :
            firstSolid? tree (first :: next.topIds (first + 1)) = some id ↔
              Text.allBlank (source.extract offset (spans id).1) = true := by
          rw [firstSolid?_cons _ hsolid, hblank, hlexeme]
          simp [Ne.symm hfirst]
        cases part with
        | text run =>
            cases hrun : Text.allBlank run with
            | true =>
                have hskip : tree.isBlankText first = true := hblankText.trans hrun
                rw [firstSolid?_cons_blank _ hskip,
                  ih hstandsNext hspannedNext hplacedNext (by omega) (by omega), hblank]
                simp [Leaf.lexeme, hrun]
            | false => exact hsolid (hblankText.trans hrun) hrun
        | comment body => exact hsolid hblankText rfl
        | tag lexeme => exact hsolid hblankText (hleaf.allBlank_eq_false (by simp))
  | definition opening inside closing next ihInside ihNext =>
      obtain ⟨hnode, -, -⟩ := hstands
      obtain ⟨hspan, hspannedInside, hspannedNext⟩ := hspanned
      obtain ⟨-, ⟨headerStop, hopening⟩, -⟩ := hplaced
      have hcontent : tree.content? first =
          some (.definition (definitionOf opening inside closing)) := by
        simp [Tree.content?, hnode]
      have hne : first ≠ id := fun heq => not_isComment_of_content? hcontent (by simp) (heq ▸ hid)
      have hsolid : tree.isBlankText first = false := by
        simp [Tree.isBlankText, hcontent, Content.isBlankText]
      have hdrop : source.drop offset =
          opening.lexeme ++ source.drop (offset + opening.lexeme.length) := hopening.drop_eq
      have hlexeme : Text.allBlank opening.lexeme = false :=
        hopening.allBlank_eq_false (by simp)
      rw [count] at hlt
      have hbehind : offset + opening.lexeme.length ≤ (spans id).1 := by
        by_cases hinside : id < first + inside.count + 1
        · exact (hspannedInside.bounds (by omega) (by omega)).1
        · have hbounds := hspannedNext.bounds (by omega) (by omega : id < _)
          omega
      rw [topIds, firstSolid?_cons _ hsolid, Text.allBlank_extract_of_drop hdrop hbehind, hlexeme]
      simp [hne]

end Outline

namespace Tree

def StartsAt (source : Text) (tree : Tree) (id offset : Nat) : Prop :=
  offset ≤ source.length ∧
    ∃ node, tree.node? id = some node ∧ node.start = .ofOffset source offset

def StopsAt (source : Text) (tree : Tree) (id offset : Nat) : Prop :=
  offset ≤ source.length ∧
    ∃ node, tree.node? id = some node ∧ node.stop = .ofOffset source offset

/-- A comment with this text ends at the offset or before it, with only blanks between. -/
def CommentBefore (source : Text) (tree : Tree) (offset : Nat) (body : Text) : Prop :=
  ∃ id stop, tree.content? id = some (.comment body) ∧ tree.StopsAt source id stop ∧
    stop ≤ offset ∧ Text.allBlank (source.extract stop offset) = true

section Parts

variable {source : Text} {tree : Tree} {spans : Nat → Nat × Nat} {id offset : Nat}

theorem exists_node_of_partAt (h : Outline.PartAt source tree spans id) :
    ∃ node, tree.node? id = some node := by
  cases h with
  | leaf part start stop parent offset hnode hspan hleaf => exact ⟨_, hnode⟩
  | definition opening inside closing headerStop parent offset hkind hnode hspan hopening
      hclosing hstands hspanned hplaced => exact ⟨_, hnode⟩

theorem startsAt_iff (h : Outline.PartAt source tree spans id) :
    tree.StartsAt source id offset ↔ offset = (spans id).1 := by
  obtain ⟨node, hnode⟩ := exists_node_of_partAt h
  obtain ⟨hstart, -⟩ := located_of_partAt h hnode
  obtain ⟨hlt, hle⟩ := ne_nil_of_partAt h
  constructor
  · rintro ⟨hoffset, other, hother, hposition⟩
    rw [hnode, Option.some.injEq] at hother
    rw [← hother, hstart] at hposition
    exact (Position.ofOffset_inj (by omega) hoffset hposition).symm
  · rintro rfl
    exact ⟨by omega, node, hnode, hstart⟩

theorem stopsAt_iff (h : Outline.PartAt source tree spans id) :
    tree.StopsAt source id offset ↔ offset = (spans id).2 := by
  obtain ⟨node, hnode⟩ := exists_node_of_partAt h
  obtain ⟨-, hstop⟩ := located_of_partAt h hnode
  obtain ⟨-, hle⟩ := ne_nil_of_partAt h
  constructor
  · rintro ⟨hoffset, other, hother, hposition⟩
    rw [hnode, Option.some.injEq] at hother
    rw [← hother, hstop] at hposition
    exact (Position.ofOffset_inj hle hoffset hposition).symm
  · rintro rfl
    exact ⟨hle, node, hnode, hstop⟩

theorem drop_eq_cons_of_partAt (h : Outline.PartAt source tree spans id)
    (htext : ∀ run, tree.content? id ≠ some (.text run)) :
    ∃ rest, source.drop (spans id).1 = '<' :: rest := by
  have hcons {offset : Nat} {piece : Piece} (hpiece : piece.StandsAt source offset)
      (hitem : ∀ run, piece.item ≠ .leaf (.text run)) :
      ∃ rest, source.drop offset = '<' :: rest := by
    obtain ⟨rest, hrest⟩ := hpiece.exists_cons hitem
    rw [hpiece.drop_eq, hrest]
    exact ⟨_, rfl⟩
  cases h with
  | leaf part start stop parent offset hnode hspan hleaf =>
      rw [hspan]
      apply hcons hleaf
      rintro run heq
      cases heq
      exact htext run (by simp [content?, hnode, Leaf.content])
  | definition opening inside closing headerStop parent offset hkind hnode hspan hopening
      hclosing hstands hspanned hplaced =>
      rw [hspan]
      exact hcons hopening (by simp)

end Parts

end Tree

namespace FileRecords

open TemplateDocs.Tree (IsComment Precedes StartsAt StopsAt CommentBefore ofOutline rootNode)

section Parsed

variable {source : Text} {outline : Outline}

theorem partAt_of_isComment (h : Outline.parse source = .ok outline) {id : Nat}
    (hid : (ofOutline outline).IsComment id) :
    Outline.PartAt source (ofOutline outline) (outline.span 1 0) id := by
  obtain ⟨body, hbody⟩ := hid
  exact Tree.partAt_of_content? h hbody (by simp [rootNode])

theorem bounds_of_content? {id : Nat} {content : Content}
    (hcontent : (ofOutline outline).content? id = some content)
    (hroot : content ≠ rootNode.content) : 1 ≤ id ∧ id < 1 + outline.count := by
  obtain ⟨node, hnode, rfl⟩ := Option.map_eq_some_iff.mp hcontent
  have hlt := Tree.lt_size_of_node? hnode
  rw [Tree.size_ofOutline] at hlt
  refine ⟨Nat.pos_of_ne_zero ?_, by omega⟩
  rintro rfl
  rw [Tree.node?_zero_ofOutline, Option.some.injEq] at hnode
  rw [← hnode] at hroot
  exact hroot rfl

theorem bounds_of_isComment {id : Nat} (hid : (ofOutline outline).IsComment id) :
    1 ≤ id ∧ id < 1 + outline.count := by
  obtain ⟨body, hbody⟩ := hid
  exact bounds_of_content? hbody (by simp [rootNode])

theorem reached_of_parse (h : Outline.parse source = .ok outline) :
    Outline.Reached source (ofOutline outline) (outline.span 1 0) 0 1 0 [] outline := by
  have hproper : ∀ id, (ofOutline outline).IsComment id →
      (outline.span 1 0 id).1 < (outline.span 1 0 id).2 := fun id hid =>
    (Tree.ne_nil_of_partAt (partAt_of_isComment h hid)).1
  refine ⟨Tree.standsIn_ofOutline outline, outline.spannedBy_span 1 0,
    Outline.placedAt_of_parse h, Tree.children_zero_ofOutline outline, by simp, hproper,
    ?_, ?_, ?_⟩
  · intro id hid hlt
    have hbounds := bounds_of_isComment hid
    omega
  · intro id hid
    have hwithin := (Tree.ne_nil_of_partAt (partAt_of_isComment h hid)).2
    rw [Nat.zero_add, Outline.source_of_parse h]
    exact iff_of_true hwithin (bounds_of_isComment hid).2
  · intro id
    constructor
    · intro hbefore
      have hpos := hproper id hbefore.comment
      have hle := hbefore.le
      omega
    · intro hnone
      cases hnone

theorem precedingComment?_of_parse (h : Outline.parse source = .ok outline) {id : Nat}
    {definition : Definition}
    (hdefinition : (ofOutline outline).content? id = some (.definition definition))
    (comment : Nat) :
    precedingComment? (ofOutline outline) id = some comment ↔
      Precedes source (ofOutline outline) (outline.span 1 0) (outline.span 1 0 id).1
        comment := by
  obtain ⟨hle, hlt⟩ := bounds_of_content? hdefinition (by simp [rootNode])
  exact (Outline.precedes_iff (reached_of_parse h) hle hlt hdefinition comment).symm

theorem commentBefore_iff (h : Outline.parse source = .ok outline) {offset : Nat}
    {body : Text} :
    CommentBefore source (ofOutline outline) offset body ↔
      ∃ id, (ofOutline outline).content? id = some (.comment body) ∧
        Precedes source (ofOutline outline) (outline.span 1 0) offset id := by
  constructor
  · rintro ⟨id, stop, hbody, hstop, hle, hblank⟩
    have hcomment : (ofOutline outline).IsComment id := ⟨body, hbody⟩
    rw [Tree.stopsAt_iff (partAt_of_isComment h hcomment)] at hstop
    subst hstop
    exact ⟨id, hbody, hcomment, hle, hblank⟩
  · rintro ⟨id, hbody, hcomment, hle, hblank⟩
    exact ⟨id, _, hbody, (Tree.stopsAt_iff (partAt_of_isComment h hcomment)).mpr rfl, hle,
      hblank⟩

/-- A comment is right before the definition that starts with the next solid character. -/
theorem precedes_iff_startsAt (h : Outline.parse source = .ok outline) {id comment : Nat}
    {definition : Definition}
    (hdefinition : (ofOutline outline).content? id = some (.definition definition))
    (hcomment : (ofOutline outline).IsComment comment) :
    Precedes source (ofOutline outline) (outline.span 1 0) (outline.span 1 0 id).1 comment ↔
      (ofOutline outline).StartsAt source id
        (Text.solidFrom source (outline.span 1 0 comment).2) := by
  have hpart := Tree.partAt_of_content? h hdefinition (by simp [rootNode])
  obtain ⟨rest, hrest⟩ := Tree.drop_eq_cons_of_partAt hpart (by simp [hdefinition])
  rw [Tree.startsAt_iff hpart, Text.solidFrom_eq_iff hrest rfl]
  constructor
  · intro hbefore
    exact ⟨hbefore.le, hbefore.blank⟩
  · rintro ⟨hle, hblank⟩
    exact ⟨hcomment, hle, hblank⟩

theorem firstSolid?_of_parse (h : Outline.parse source = .ok outline) {comment : Nat}
    (hcomment : (ofOutline outline).IsComment comment) :
    firstSolid? (ofOutline outline) ((ofOutline outline).children 0) = some comment ↔
      (ofOutline outline).StartsAt source comment (Text.solidFrom source 0) := by
  have hpart := partAt_of_isComment h hcomment
  obtain ⟨body, hbody⟩ := hcomment
  obtain ⟨rest, hrest⟩ := Tree.drop_eq_cons_of_partAt hpart (by simp [hbody])
  obtain ⟨hle, hlt⟩ := bounds_of_isComment ⟨body, hbody⟩
  rw [Tree.startsAt_iff hpart, Text.solidFrom_eq_iff hrest rfl,
    Tree.children_zero_ofOutline,
    Outline.firstSolid?_topIds_iff (Tree.standsIn_ofOutline outline)
      (outline.spannedBy_span 1 0) (Outline.placedAt_of_parse h) ⟨body, hbody⟩ hle hlt]
  exact (and_iff_right (Nat.zero_le _)).symm

end Parsed

/-! ## What the comments say -/

theorem isDoc_iff {marker : Char} {body : Text} :
    DocComment.isDoc marker body = true ↔ ∃ text, body = marker :: text := by
  rw [DocComment.isDoc, decide_eq_true_eq, List.head?_eq_some_iff]

theorem parseMarked_cons (marker : Char) (text : Text) :
    DocComment.parseMarked marker (marker :: text) = DocComment.parse text := by
  simp [DocComment.parseMarked, DocComment.withoutMarker, Text.after?]

theorem attached?_eq_some_iff {marker : Char} {tree : Tree} {id : Nat} {body : Text} :
    attached? marker tree id = some body ↔
      (∃ comment, precedingComment? tree id = some comment ∧
        tree.content? comment = some (.comment body)) ∧ ∃ text, body = marker :: text := by
  rw [attached?, Option.filter_eq_some_iff, Option.bind_eq_some_iff, isDoc_iff]
  simp only [commentText?_eq_some_iff]

theorem description?_eq_some_iff {marker : Char} {tree : Tree} {taken : List Nat}
    {doc : DocComment} :
    description? marker tree taken = some doc ↔
      ∃ comment text, firstSolid? tree (tree.children 0) = some comment ∧ comment ∉ taken ∧
        tree.content? comment = some (.comment (marker :: text)) ∧
        doc = DocComment.parse text := by
  rw [description?, Option.bind_eq_some_iff]
  constructor
  · rintro ⟨comment, hfirst, hdoc⟩
    split at hdoc
    · cases hdoc
    · next htaken =>
        obtain ⟨body, hbody, rfl⟩ := Option.map_eq_some_iff.mp hdoc
        obtain ⟨hbody, hmarked⟩ := Option.filter_eq_some_iff.mp hbody
        obtain ⟨text, rfl⟩ := isDoc_iff.mp hmarked
        exact ⟨comment, text, hfirst, by simpa using htaken,
          commentText?_eq_some_iff.mp hbody, parseMarked_cons marker text⟩
  · rintro ⟨comment, text, hfirst, htaken, hbody, rfl⟩
    refine ⟨comment, hfirst, ?_⟩
    have hmarked : DocComment.isDoc marker (marker :: text) = true := isDoc_iff.mpr ⟨text, rfl⟩
    rw [if_neg (by simpa using htaken), commentText?_eq_some_iff.mpr hbody,
      Option.filter_some, if_pos hmarked, Option.map_some, parseMarked_cons]

end FileRecords

namespace Source

open FileRecords

/-- The documentation of a definition that starts at an offset of the source. -/
structure Documents (source : Text) (tree : Tree) (marker : Char) (offset : Nat)
    (doc : DocComment) : Prop where
  /-- A marked comment with only blanks between its end and the definition documents it. -/
  attached : ∀ text, tree.CommentBefore source offset (marker :: text) →
    doc = DocComment.parse text
  /-- Without such a comment nothing does. -/
  otherwise : (∀ text, ¬ tree.CommentBefore source offset (marker :: text)) → doc = .empty

def Describes (source : Text) (tree : Tree) (marker : Char) (doc : DocComment) : Prop :=
  ∃ comment stop text, tree.content? comment = some (.comment (marker :: text)) ∧
    tree.StartsAt source comment (Text.solidFrom source 0) ∧
    tree.StopsAt source comment stop ∧
    (∀ id definition, tree.content? id = some (.definition definition) →
      ¬ tree.StartsAt source id (Text.solidFrom source stop)) ∧
    doc = DocComment.parse text

theorem documents_recordOf {source : Text} {outline : Outline}
    (h : Outline.parse source = .ok outline) (marker : Char) (regions : List Region)
    (filename : Text) {id : Nat} {definition : Definition}
    (hdefinition : (Tree.ofOutline outline).content? id = some (.definition definition)) :
    Documents source (Tree.ofOutline outline) marker (outline.span 1 0 id).1
      (recordOf marker (Tree.ofOutline outline) regions filename id definition).doc := by
  have hattached (text : Text) :
      attached? marker (Tree.ofOutline outline) id = some (marker :: text) ↔
        Tree.CommentBefore source (Tree.ofOutline outline) (outline.span 1 0 id).1
          (marker :: text) := by
    rw [attached?_eq_some_iff, commentBefore_iff h]
    simp only [precedingComment?_of_parse h hdefinition]
    constructor
    · rintro ⟨⟨comment, hbefore, hbody⟩, -⟩
      exact ⟨comment, hbody, hbefore⟩
    · rintro ⟨comment, hbody, hbefore⟩
      exact ⟨⟨comment, hbefore, hbody⟩, text, rfl⟩
  constructor
  · intro text hbefore
    rw [recordOf, (hattached text).mpr hbefore, Option.map_some, Option.getD_some,
      parseMarked_cons]
  · intro hnone
    have hnothing : attached? marker (Tree.ofOutline outline) id = none := by
      rw [Option.eq_none_iff_forall_ne_some]
      intro body hbody
      obtain ⟨-, text, rfl⟩ := attached?_eq_some_iff.mp hbody
      exact hnone text ((hattached text).mp hbody)
    rw [recordOf, hnothing, Option.map_none, Option.getD_none]

theorem mem_taken_iff {source : Text} {outline : Outline} (h : Outline.parse source = .ok outline)
    {comment : Nat} (hcomment : (Tree.ofOutline outline).IsComment comment) :
    comment ∈ (Tree.ofOutline outline).definitions.filterMap
        (fun entry => precedingComment? (Tree.ofOutline outline) entry.1) ↔
      ∃ id definition, (Tree.ofOutline outline).content? id = some (.definition definition) ∧
        (Tree.ofOutline outline).StartsAt source id
          (Text.solidFrom source (outline.span 1 0 comment).2) := by
  have hparse : Tree.parse source = .ok (Tree.ofOutline outline) :=
    Tree.parse_eq_ok_iff.mpr ⟨outline, h, rfl⟩
  rw [List.mem_filterMap]
  constructor
  · rintro ⟨⟨id, definition⟩, hentry, hbefore⟩
    have hdefinition := (Tree.mem_definitions_of_parse hparse).mp hentry
    rw [precedingComment?_of_parse h hdefinition,
      precedes_iff_startsAt h hdefinition hcomment] at hbefore
    exact ⟨id, definition, hdefinition, hbefore⟩
  · rintro ⟨id, definition, hdefinition, hstarts⟩
    refine ⟨(id, definition), (Tree.mem_definitions_of_parse hparse).mpr hdefinition, ?_⟩
    rw [precedingComment?_of_parse h hdefinition,
      precedes_iff_startsAt h hdefinition hcomment]
    exact hstarts

theorem description_eq_some_iff {source : Text} {outline : Outline}
    (h : Outline.parse source = .ok outline) (marker : Char) (regions : List Region)
    (filename : Text) (doc : DocComment) :
    (collect marker (Tree.ofOutline outline) regions filename).description = some doc ↔
      Describes source (Tree.ofOutline outline) marker doc := by
  rw [collect, description?_eq_some_iff]
  constructor
  · rintro ⟨comment, text, hfirst, hfree, hbody, rfl⟩
    have hcomment : (Tree.ofOutline outline).IsComment comment := ⟨_, hbody⟩
    refine ⟨comment, (outline.span 1 0 comment).2, text, hbody,
      (firstSolid?_of_parse h hcomment).mp hfirst,
      (Tree.stopsAt_iff (partAt_of_isComment h hcomment)).mpr rfl, ?_, rfl⟩
    intro id definition hdefinition hstarts
    exact hfree ((mem_taken_iff h hcomment).mpr ⟨id, definition, hdefinition, hstarts⟩)
  · rintro ⟨comment, stop, text, hbody, hstarts, hstops, hfree, rfl⟩
    have hcomment : (Tree.ofOutline outline).IsComment comment := ⟨_, hbody⟩
    rw [Tree.stopsAt_iff (partAt_of_isComment h hcomment)] at hstops
    subst hstops
    refine ⟨comment, text, (firstSolid?_of_parse h hcomment).mpr hstarts, ?_, hbody, rfl⟩
    intro hmem
    obtain ⟨id, definition, hdefinition, hnext⟩ := (mem_taken_iff h hcomment).mp hmem
    exact hfree id definition hdefinition hnext

/--
The comments of a file that can be parsed document what stands right behind them in
the source: each definition the marked comment that only blanks part from its start,
and the file itself the marked comment it starts with, unless a definition is next.
-/
theorem document_attaches_by_adjacency {source : Source} {tree : Tree}
    (h : Tree.parse source.content = .ok tree) (marker : Char) :
    ∃ findings, source.document Tree.parse marker = .ok findings ∧
      (∀ id definition, tree.content? id = some (.definition definition) →
        (id, definition) ∈ tree.definitions) ∧
      List.Forall₂
        (fun entry record =>
          tree.content? entry.1 = some (.definition entry.2) ∧ record.name = entry.2.name ∧
          record.source = entry.2.source ∧
          ∃ offset, tree.StartsAt source.content entry.1 offset ∧
            Documents source.content tree marker offset record.doc)
        tree.definitions findings.found.records ∧
      ∀ doc, findings.found.description = some doc ↔
        Describes source.content tree marker doc := by
  have hmem {id : Nat} {definition : Definition} :
      (id, definition) ∈ tree.definitions ↔
        tree.content? id = some (.definition definition) :=
    Tree.mem_definitions_of_parse h
  refine ⟨Findings.ofTree marker source.name tree, by simp [document, h, Except.map],
    fun id definition => hmem.mpr, ?_, ?_⟩
  · obtain ⟨outline, houtline, rfl⟩ := Tree.parse_eq_ok_iff.mp h
    refine List.forall₂_map_right_iff.mpr (List.forall₂_same.mpr fun entry hentry => ?_)
    have hentry := hmem.mp hentry
    have hpart := Tree.partAt_of_content? houtline hentry (by simp [Tree.rootNode])
    exact ⟨hentry, rfl, rfl, _, (Tree.startsAt_iff hpart).mpr rfl,
      documents_recordOf houtline marker _ _ hentry⟩
  · obtain ⟨outline, houtline, rfl⟩ := Tree.parse_eq_ok_iff.mp h
    exact description_eq_some_iff houtline marker _ _

/--
A file comment, a comment on an outer definition, a plain comment before an inner one,
and one that a no-break space parts from its definition.
-/
theorem document_attaches_by_adjacency_nested : ∃ source : Source, ∃ tree findings,
    source.content = " <#--- File. --><#--- Outer. -->\n<#macro m><#-- plain -->".toList ++
      "<#function f></#function></#macro><#--- Last. -->\u00a0<#function g></#function>".toList ∧
    Tree.parse source.content = .ok tree ∧ source.document Tree.parse '-' = .ok findings ∧
    findings.found.records.map (fun record => record.doc.comment) =
      [" Outer. ".toList, [], " Last. ".toList] ∧
    List.Forall₂
      (fun entry record =>
        tree.content? entry.1 = some (.definition entry.2) ∧ record.name = entry.2.name ∧
        record.source = entry.2.source ∧
        ∃ offset, tree.StartsAt source.content entry.1 offset ∧
          Documents source.content tree '-' offset record.doc)
      tree.definitions findings.found.records ∧
    ∃ doc, doc.comment = " File. ".toList ∧ Describes source.content tree '-' doc := by
  let source : Source := ⟨[],
    " <#--- File. --><#--- Outer. -->\n<#macro m><#-- plain -->".toList ++
      "<#function f></#function></#macro><#--- Last. -->\u00a0<#function g></#function>".toList⟩
  have hfound : (source.document Tree.parse '-').toOption.map (fun findings =>
      (findings.found.records.map (fun record => record.doc.comment),
        findings.found.description.map DocComment.comment)) =
      some ([" Outer. ".toList, [], " Last. ".toList], some " File. ".toList) := by
    decide +kernel
  cases htree : Tree.parse source.content with
  | error fault =>
      simp [document, htree, Except.map, Except.toOption] at hfound
  | ok tree =>
      obtain ⟨findings, hfindings, -, hrecords, hdescription⟩ :=
        document_attaches_by_adjacency htree '-'
      rw [hfindings] at hfound
      simp only [Except.toOption, Option.map_some, Option.some.injEq, Prod.mk.injEq] at hfound
      obtain ⟨doc, hdoc, hcomment⟩ := Option.map_eq_some_iff.mp hfound.2
      exact ⟨source, tree, findings, rfl, htree, hfindings, hfound.1, hrecords, doc, hcomment,
        (hdescription doc).mp hdoc⟩

end Source

end TemplateDocs

import Mathlib.Data.List.Forall2
import TemplateDocs.Index.Document
import TemplateDocs.Proofs.Tree.Order

/-!
# Categories and the marks before a definition

Regions are stretches between positions, and a definition is looked up in them by
its own position.  In a parsed file the look-up comes to the same as reading the
marks in document order: the category of a definition is that of the last mark
before it, unless that mark ends a region (`scopes_category_recordOf`).
-/

namespace TemplateDocs

namespace Regions

/-! ## A position among marks -/

section Lookup

variable {position : Position}

def StartsBefore (position : Position) (current : Option OpenRegion) : Prop :=
  ∀ region, current = some region → region.start < position

theorem contains_close_eq_false {region : OpenRegion} {stop : Position}
    (h : ¬ position < stop) : (region.close (.position stop)).contains position = false := by
  simp [OpenRegion.close, Region.contains, RegionEnd.isAfter, h]

theorem contains_close_eq_true {region : OpenRegion} {stop : RegionEnd}
    (hstart : region.start < position) (hstop : stop.isAfter position = true) :
    (region.close stop).contains position = true := by
  simp [OpenRegion.close, Region.contains, hstart, hstop]

theorem mem_regions_atMark {current : Option OpenRegion} {mark : RegionMark} {region : Region}
    (h : region ∈ (atMark current mark).regions) :
    (∃ opened, current = some opened ∧ region = opened.close (.position mark.start)) ∨
      ∃ opened, openAfterBegin current mark = some opened ∧
        region = opened.close (.position mark.stop) := by
  have hbegin {name : Text} (hregion : region ∈ (atBegin current name mark).regions) :
      ∃ opened, current = some opened ∧ region = opened.close (.position mark.start) := by
    cases current with
    | none => cases hregion
    | some opened => exact ⟨opened, rfl, List.mem_singleton.mp hregion⟩
  have hend (hregion : region ∈ (atEnd (openAfterBegin current mark) mark).regions) :
      ∃ opened, openAfterBegin current mark = some opened ∧
        region = opened.close (.position mark.stop) := by
    cases hopen : openAfterBegin current mark with
    | none =>
        rw [hopen] at hregion
        cases hregion
    | some opened =>
        rw [hopen] at hregion
        exact ⟨opened, rfl, List.mem_singleton.mp hregion⟩
  cases hname : mark.beginName with
  | none =>
      simp only [atMark, hname] at h
      split at h
      · exact .inr (hend h)
      · cases h
  | some name =>
      simp only [atMark, hname] at h
      split at h
      · rcases List.mem_append.mp h with h | h
        · exact .inl (hbegin h)
        · exact .inr (hend h)
      · exact .inl (hbegin h)

theorem contains_eq_false_of_mem_atMark {current : Option OpenRegion} {mark : RegionMark}
    (hstart : ¬ position < mark.start) (hstop : ¬ position < mark.stop) {region : Region}
    (h : region ∈ (atMark current mark).regions) : region.contains position = false := by
  rcases mem_regions_atMark h with ⟨opened, -, rfl⟩ | ⟨opened, -, rfl⟩
  · exact contains_close_eq_false hstart
  · exact contains_close_eq_false hstop

theorem StartsBefore.openAfter {current : Option OpenRegion} {mark : RegionMark}
    (h : StartsBefore position current) (hstart : mark.start < position) :
    StartsBefore position (openAfter current mark) := by
  intro region hregion
  simp only [Regions.openAfter, openAfterBegin] at hregion
  split at hregion
  · cases hregion
  · split at hregion
    · cases hregion
      exact hstart
    · exact h region hregion

/-- Marks before the position matter only for the region that they leave open. -/
theorem find?_ofMarks_append {before after : List RegionMark} {current : Option OpenRegion}
    (hbefore : ∀ mark ∈ before, mark.start < position ∧ ¬ position < mark.stop) :
    Region.find? (ofMarks current (before ++ after)).regions position =
      Region.find? (ofMarks (before.foldl openAfter current) after).regions position := by
  induction before generalizing current with
  | nil => rfl
  | cons mark rest ih =>
      obtain ⟨hstart, hstop⟩ := hbefore mark (by simp)
      have hnone : Region.find? (atMark current mark).regions position = none := by
        rw [Region.find?, List.find?_eq_none]
        intro region hregion
        rw [contains_eq_false_of_mem_atMark (Position.not_lt_of_lt hstart) hstop hregion]
        exact Bool.false_ne_true
      rw [Region.find?] at hnone
      rw [List.cons_append, ofMarks, append, Region.find?, List.find?_append, hnone,
        Option.none_or, List.foldl_cons]
      exact ih fun other hother => hbefore other (by simp [hother])

theorem StartsBefore.foldl_openAfter {current : Option OpenRegion} {marks : List RegionMark}
    (h : StartsBefore position current) (hmarks : ∀ mark ∈ marks, mark.start < position) :
    StartsBefore position (marks.foldl Regions.openAfter current) := by
  induction marks generalizing current with
  | nil => exact h
  | cons mark rest ih =>
      exact ih (h.openAfter (hmarks mark (by simp)))
        fun other hother => hmarks other (by simp [hother])

theorem not_start_lt_of_mem_ofMarks {marks : List RegionMark} {current : Option OpenRegion}
    (hcurrent : ∀ region, current = some region → ¬ region.start < position)
    (hmarks : ∀ mark ∈ marks, ¬ mark.start < position) {region : Region}
    (hregion : region ∈ (ofMarks current marks).regions) : ¬ region.start < position := by
  induction marks generalizing current with
  | nil =>
      cases current with
      | none => simp [ofMarks, atEndOfFile] at hregion
      | some opened =>
          have hclosed : region = opened.close .endOfFile := List.mem_singleton.mp hregion
          rw [hclosed]
          exact hcurrent opened rfl
  | cons mark rest ih =>
      have hmark : ¬ mark.start < position := hmarks mark (by simp)
      have hbegun : ∀ region, openAfterBegin current mark = some region →
          ¬ region.start < position := by
        intro region hregion
        unfold openAfterBegin at hregion
        split at hregion
        · cases hregion
          exact hmark
        · exact hcurrent region hregion
      rw [ofMarks, append, List.mem_append] at hregion
      rcases hregion with hregion | hregion
      · rcases mem_regions_atMark hregion with ⟨opened, hopened, rfl⟩ | ⟨opened, hopened, rfl⟩
        · exact hcurrent opened hopened
        · exact hbegun opened hopened
      · refine ih (fun opened hopened => ?_) (fun other hother => hmarks other (by simp [hother]))
          hregion
        unfold openAfter at hopened
        split at hopened
        · cases hopened
        · exact hbegun opened hopened

theorem find?_ofMarks_of_not_lt {marks : List RegionMark} {current : Option OpenRegion}
    (hcurrent : ∀ region, current = some region → ¬ region.start < position)
    (hmarks : ∀ mark ∈ marks, ¬ mark.start < position) :
    Region.find? (ofMarks current marks).regions position = none := by
  rw [Region.find?, List.find?_eq_none]
  intro region hregion
  simp [Region.contains, not_start_lt_of_mem_ofMarks hcurrent hmarks hregion]

theorem find?_ofMarks_some {marks : List RegionMark} {opened : OpenRegion}
    (hopened : opened.start < position)
    (hmarks : ∀ mark ∈ marks, position < mark.start ∧ position < mark.stop) :
    (Region.find? (ofMarks (some opened) marks).regions position).map Region.name =
      some opened.name := by
  have hfound {stop : RegionEnd} {regions : List Region} (hstop : stop.isAfter position = true) :
      (Region.find? (opened.close stop :: regions) position).map Region.name =
        some opened.name := by
    rw [Region.find?, List.find?_cons, contains_close_eq_true hopened hstop]
    rfl
  induction marks with
  | nil => exact hfound rfl
  | cons mark rest ih =>
      obtain ⟨hstart, hstop⟩ := hmarks mark (by simp)
      cases hname : mark.beginName with
      | some name =>
          have hregions : ∃ regions, (ofMarks (some opened) (mark :: rest)).regions =
              opened.close (.position mark.start) :: regions := by
            simp only [ofMarks, append, atMark, hname, atBegin]
            split <;> exact ⟨_, rfl⟩
          obtain ⟨regions, hregions⟩ := hregions
          rw [hregions]
          exact hfound (by simpa [RegionEnd.isAfter] using hstart)
      | none =>
          by_cases hends : mark.ends = true
          · have hregions : (ofMarks (some opened) (mark :: rest)).regions =
                opened.close (.position mark.stop) :: (ofMarks none rest).regions := by
              simp [ofMarks, append, atMark, hname, hends, atEnd, openAfterBegin, openAfter]
            rw [hregions]
            exact hfound (by simpa [RegionEnd.isAfter] using hstop)
          · have hregions : (ofMarks (some opened) (mark :: rest)).regions =
                (ofMarks (some opened) rest).regions := by
              simp [ofMarks, append, atMark, hname, hends, openAfterBegin, openAfter]
            rw [hregions]
            exact ih fun other hother => hmarks other (by simp [hother])

theorem name_find?_ofMarks {before after : List RegionMark}
    (hbefore : ∀ mark ∈ before, mark.start < position ∧ ¬ position < mark.stop)
    (hafter : ∀ mark ∈ after, position < mark.start ∧ position < mark.stop) :
    (Region.find? (ofMarks none (before ++ after)).regions position).map Region.name =
      (before.foldl openAfter none).map OpenRegion.name := by
  rw [find?_ofMarks_append hbefore]
  have hnone : StartsBefore position none := by simp [StartsBefore]
  have hstart := hnone.foldl_openAfter fun mark hmark => (hbefore mark hmark).1
  cases hopen : before.foldl openAfter none with
  | none =>
      rw [find?_ofMarks_of_not_lt (by simp) fun mark hmark =>
        Position.not_lt_of_lt (hafter mark hmark).1]
      rfl
  | some opened => exact find?_ofMarks_some (hstart opened hopen) hafter

end Lookup

end Regions

namespace RegionMark

/-! ## The last mark -/

def opens (mark : RegionMark) : Option OpenRegion :=
  if mark.ends then none else mark.beginName.map fun name => ⟨name, mark.start⟩

/-- The last mark alone says which region is open. -/
theorem foldl_openAfter_eq {marks : List RegionMark}
    (hmarks : ∀ mark ∈ marks, mark.beginName.isSome = true ∨ mark.ends = true) :
    marks.foldl Regions.openAfter none = marks.getLast?.bind opens := by
  rcases List.eq_nil_or_concat marks with rfl | ⟨before, mark, rfl⟩
  · rfl
  · rw [List.concat_eq_append] at hmarks ⊢
    rw [List.foldl_append, List.getLast?_concat, Option.bind_some, List.foldl_cons,
      List.foldl_nil, Regions.openAfter, Regions.openAfterBegin, opens]
    rcases hmarks mark (by simp) with hbegins | hends
    · obtain ⟨name, hname⟩ := Option.isSome_iff_exists.mp hbegins
      simp [hname]
    · simp [hends]

def at? (marker : Char) (tree : Tree) (id : Nat) : Option RegionMark :=
  (tree.node? id).bind (ofNode? marker)

def IsMarker (marker : Char) (body : Text) : Prop :=
  ((DocComment.parseMarked marker body).tag? beginTag).isSome = true ∨
    ((DocComment.parseMarked marker body).tag? endTag).isSome = true

def MarkerAt (marker : Char) (tree : Tree) (id : Nat) : Prop :=
  ∃ body, tree.content? id = some (.comment body) ∧ IsMarker marker body

theorem at?_eq_some_iff {marker : Char} {tree : Tree} {id : Nat} {mark : RegionMark} :
    at? marker tree id = some mark ↔
      ∃ node body, tree.node? id = some node ∧ node.content = .comment body ∧
        IsMarker marker body ∧
        mark = ⟨((DocComment.parseMarked marker body).tag? beginTag).map Text.trim,
          ((DocComment.parseMarked marker body).tag? endTag).isSome, node.start, node.stop⟩ := by
  simp only [at?, Option.bind_eq_some_iff, ofNode?, IsMarker]
  constructor
  · rintro ⟨node, hnode, body, hbody, hmark⟩
    cases hcontent : node.content <;> rw [hcontent] at hbody <;> cases hbody
    split at hmark
    · next hsays =>
        cases hmark
        exact ⟨node, body, hnode, hcontent, by simpa using hsays, rfl⟩
    · cases hmark
  · rintro ⟨node, body, hnode, hcontent, hsays, rfl⟩
    refine ⟨node, hnode, body, by rw [hcontent]; rfl, ?_⟩
    rw [if_pos (by simpa using hsays)]

theorem at?_eq_none_iff {marker : Char} {tree : Tree} {id : Nat} :
    at? marker tree id = none ↔ ¬ MarkerAt marker tree id := by
  rw [← Option.not_isSome_iff_eq_none, Option.isSome_iff_exists]
  apply not_congr
  constructor
  · rintro ⟨mark, hmark⟩
    obtain ⟨node, body, hnode, hcontent, hsays, -⟩ := at?_eq_some_iff.mp hmark
    exact ⟨body, by simp [Tree.content?, hnode, hcontent], hsays⟩
  · rintro ⟨body, hcontent, hsays⟩
    obtain ⟨node, hnode, hcontent⟩ := Option.map_eq_some_iff.mp hcontent
    exact ⟨_, at?_eq_some_iff.mpr ⟨node, body, hnode, hcontent, hsays, rfl⟩⟩

theorem says_of_at? {marker : Char} {tree : Tree} {id : Nat} {mark : RegionMark}
    (h : at? marker tree id = some mark) :
    mark.beginName.isSome = true ∨ mark.ends = true := by
  obtain ⟨node, body, -, -, hsays, rfl⟩ := at?_eq_some_iff.mp h
  simpa [IsMarker] using hsays

/-- The last of the marker comments before a node in document order. -/
def LastMarker (marker : Char) (tree : Tree) (id comment : Nat) : Prop :=
  ∃ earlier between later, tree.preorder = earlier ++ comment :: (between ++ id :: later) ∧
    MarkerAt marker tree comment ∧ ∀ other ∈ between, ¬ MarkerAt marker tree other

/--
The category that document order gives to a node: the one that the last marker
comment before it begins, and none if that comment ends a region or begins none.
-/
def Scopes (marker : Char) (tree : Tree) (id : Nat) (category : Option Text) : Prop :=
  ∀ name, category = some name ↔
    ∃ comment body, LastMarker marker tree id comment ∧
      tree.content? comment = some (.comment body) ∧
      ((DocComment.parseMarked marker body).tag? beginTag).map Text.trim = some name ∧
      (DocComment.parseMarked marker body).tag? endTag = none

end RegionMark

namespace Regions

open RegionMark

/-! ## Parsed trees -/

section Parsed

variable {source : Text} {tree : Tree} {marker : Char} {id : Nat} {node : Node}

theorem pos_of_at? (h : Tree.parse source = .ok tree) {mark : RegionMark}
    (hmark : at? marker tree id = some mark) : 0 < id := by
  obtain ⟨node, body, hnode, hcontent, -⟩ := at?_eq_some_iff.mp hmark
  apply Nat.pos_of_ne_zero
  rintro rfl
  obtain ⟨root, hroot, hother⟩ := Tree.node?_zero_of_parse h
  rw [hnode, Option.some.injEq] at hroot
  rw [← hroot, hcontent] at hother
  cases hother

theorem before_of_at? (h : Tree.parse source = .ok tree) (hnode : tree.node? id = some node)
    {other : Nat} {mark : RegionMark} (hlt : other < id)
    (hmark : at? marker tree other = some mark) :
    mark.start < node.start ∧ ¬ node.start < mark.stop := by
  have hpos := pos_of_at? h hmark
  obtain ⟨comment, body, hcomment, hcontent, -, rfl⟩ := at?_eq_some_iff.mp hmark
  refine ⟨Tree.start_lt_of_parse h hpos hlt hcomment hnode,
    Tree.stop_le_of_parse h hpos hlt hcomment hnode fun definition => ?_⟩
  rw [hcontent]
  exact Content.noConfusion

theorem after_of_at? (h : Tree.parse source = .ok tree) (hnode : tree.node? id = some node)
    (hid : 0 < id) {other : Nat} {mark : RegionMark} (hlt : id < other)
    (hmark : at? marker tree other = some mark) :
    node.start < mark.start ∧ node.start < mark.stop := by
  have hpos := pos_of_at? h hmark
  obtain ⟨comment, body, hcomment, -, -, rfl⟩ := at?_eq_some_iff.mp hmark
  have hstart := Tree.start_lt_of_parse h hid hlt hnode hcomment
  exact ⟨hstart, Position.lt_trans hstart (Tree.start_lt_stop_of_parse h hpos hcomment)⟩

theorem name_find?_ofTree (h : Tree.parse source = .ok tree)
    (hnode : tree.node? id = some node) {definition : Definition}
    (hdefinition : node.content = .definition definition) :
    (Region.find? (ofTree marker tree).regions node.start).map Region.name =
      (((List.range id).filterMap (at? marker tree)).getLast?.bind opens).map
        OpenRegion.name := by
  have hid : 0 < id := by
    apply Nat.pos_of_ne_zero
    rintro rfl
    obtain ⟨root, hroot, hother⟩ := Tree.node?_zero_of_parse h
    rw [hnode, Option.some.injEq] at hroot
    rw [← hroot, hdefinition] at hother
    cases hother
  have hnone : at? marker tree id = none := by
    simp [at?, hnode, ofNode?, hdefinition, Content.comment?]
  have hmarks : RegionMark.ofTree marker tree =
      (List.range id).filterMap (at? marker tree) ++
        (List.range' (id + 1) (tree.size - (id + 1))).filterMap (at? marker tree) := by
    have hsplit := congrArg (List.filterMap (at? marker tree))
      (Tree.preorder_of_parse h (Tree.lt_size_of_node? hnode))
    rw [List.filterMap_append, List.filterMap_cons_none hnone] at hsplit
    exact hsplit
  rw [ofTree, hmarks, name_find?_ofMarks, foldl_openAfter_eq]
  · intro mark hmark
    obtain ⟨other, -, hmark⟩ := List.mem_filterMap.mp hmark
    exact says_of_at? hmark
  · intro mark hmark
    obtain ⟨other, hother, hmark⟩ := List.mem_filterMap.mp hmark
    exact before_of_at? h hnode (List.mem_range.mp hother) hmark
  · intro mark hmark
    obtain ⟨other, hother, hmark⟩ := List.mem_filterMap.mp hmark
    rw [List.mem_range'_1] at hother
    exact after_of_at? h hnode hid (by omega) hmark

theorem getLast?_eq_some_iff (h : Tree.parse source = .ok tree)
    (hnode : tree.node? id = some node) {mark : RegionMark} :
    ((List.range id).filterMap (at? marker tree)).getLast? = some mark ↔
      ∃ comment, LastMarker marker tree id comment ∧ at? marker tree comment = some mark := by
  have hpreorder := Tree.preorder_of_parse h (Tree.lt_size_of_node? hnode)
  rw [List.getLast?_eq_head?_reverse, ← List.filterMap_reverse, List.head?_filterMap,
    List.findSome?_eq_some_iff]
  constructor
  · rintro ⟨between, comment, earlier, hsplit, hmark, hbetween⟩
    have hrange : List.range id = earlier.reverse ++ comment :: between.reverse := by
      simpa using congrArg List.reverse hsplit
    refine ⟨comment, ⟨earlier.reverse, between.reverse,
      List.range' (id + 1) (tree.size - (id + 1)), ?_, ?_, ?_⟩, hmark⟩
    · rw [hpreorder, hrange, List.append_assoc, List.cons_append]
    · apply Classical.byContradiction
      intro hnot
      rw [at?_eq_none_iff.mpr hnot] at hmark
      cases hmark
    · intro other hother
      exact at?_eq_none_iff.mp (hbetween other (List.mem_reverse.mp hother))
  · rintro ⟨comment, ⟨earlier, between, later, hsplit, -, hbetween⟩, hmark⟩
    -- A node has its number once in document order, so both splits are at the same place.
    have hrange : List.range id = earlier ++ comment :: between := by
      rw [hpreorder, ← List.cons_append, ← List.append_assoc] at hsplit
      exact ((List.append_cons_inj_of_notMem (by simp) (by simp)).mp hsplit).1
    refine ⟨between.reverse, comment, earlier.reverse, by rw [hrange]; simp, hmark, ?_⟩
    intro other hother
    exact at?_eq_none_iff.mpr (hbetween other (List.mem_reverse.mp hother))

/-- The look-up by position and document order give a definition the same category. -/
theorem scopes_category_recordOf (h : Tree.parse source = .ok tree)
    {definition : Definition} (hdefinition : tree.content? id = some (.definition definition))
    (filename : Text) :
    Scopes marker tree id (FileRecords.recordOf marker tree (ofTree marker tree).regions
      filename id definition).category := by
  intro name
  obtain ⟨node, hnode, hcontent⟩ := Option.map_eq_some_iff.mp hdefinition
  have hopens {body : Text} {start stop : Position} :
      (opens ⟨((DocComment.parseMarked marker body).tag? beginTag).map Text.trim,
          ((DocComment.parseMarked marker body).tag? endTag).isSome, start, stop⟩).map
            OpenRegion.name = some name ↔
        ((DocComment.parseMarked marker body).tag? beginTag).map Text.trim = some name ∧
          (DocComment.parseMarked marker body).tag? endTag = none := by
    cases hend : (DocComment.parseMarked marker body).tag? endTag <;> simp [opens]
  simp only [FileRecords.recordOf, hnode, Option.bind_some]
  rw [name_find?_ofTree h hnode hcontent, Option.map_bind, Option.bind_eq_some_iff]
  constructor
  · rintro ⟨mark, hmark, hname⟩
    obtain ⟨comment, hlast, hmark⟩ := (getLast?_eq_some_iff h hnode).mp hmark
    obtain ⟨other, body, hother, hbody, -, rfl⟩ := at?_eq_some_iff.mp hmark
    exact ⟨comment, body, hlast, by simp [Tree.content?, hother, hbody], hopens.mp hname⟩
  · rintro ⟨comment, body, hlast, hbody, hname⟩
    obtain ⟨other, hother, hbody⟩ := Option.map_eq_some_iff.mp hbody
    have hmarker : IsMarker marker body := by
      obtain ⟨value, hvalue, -⟩ := Option.map_eq_some_iff.mp hname.1
      exact .inl (by rw [hvalue]; rfl)
    exact ⟨_, (getLast?_eq_some_iff h hnode).mpr
      ⟨comment, hlast, at?_eq_some_iff.mpr ⟨other, body, hother, hbody, hmarker, rfl⟩⟩,
      hopens.mpr hname⟩

end Parsed

end Regions

theorem Tree.mem_definitions_of_parse {source : Text} {tree : Tree}
    (h : parse source = .ok tree) {id : Nat} {definition : Definition} :
    (id, definition) ∈ tree.definitions ↔
      tree.content? id = some (.definition definition) := by
  rw [mem_definitions_iff]
  constructor
  · intro hid
    exact hid.2
  · intro hid
    obtain ⟨node, hnode, -⟩ := Option.map_eq_some_iff.mp hid
    have hmem : id ∈ tree.preorder := by
      rw [preorder_of_parse h (lt_size_of_node? hnode)]
      simp
    exact ⟨hmem, hid⟩

namespace Source

open RegionMark

/--
The categories of a file that can be parsed.  Its records are those of all its
definitions, each in the category that the marker comments before the definition
give it in document order.
-/
theorem category_eq_some_iff {source : Source} {tree : Tree}
    (h : Tree.parse source.content = .ok tree) (marker : Char) :
    ∃ findings, source.document Tree.parse marker = .ok findings ∧
      (∀ id definition, tree.content? id = some (.definition definition) →
        (id, definition) ∈ tree.definitions) ∧
      List.Forall₂
        (fun entry record =>
          tree.content? entry.1 = some (.definition entry.2) ∧ record.name = entry.2.name ∧
          record.source = entry.2.source ∧ Scopes marker tree entry.1 record.category)
        tree.definitions findings.found.records := by
  refine ⟨Findings.ofTree marker source.name tree, by simp [document, h, Except.map],
    fun id definition => (Tree.mem_definitions_of_parse h).mpr, ?_⟩
  refine List.forall₂_map_right_iff.mpr (List.forall₂_same.mpr fun entry hentry => ?_)
  have hentry := (Tree.mem_definitions_of_parse h).mp hentry
  exact ⟨hentry, rfl, rfl, Regions.scopes_category_recordOf h hentry source.name⟩

/-- A comment inside a definition counts for all that stands behind it. -/
theorem category_eq_some_iff_nested : ∃ source : Source, ∃ tree findings,
    source.content = "<#-- @begin A -->\n<#macro m><#-- @begin B\n@end --></#macro>".toList ++
      "<#function f></#function>".toList ∧
    Tree.parse source.content = .ok tree ∧ source.document Tree.parse '-' = .ok findings ∧
    findings.found.records.map Record.category = [some ['A'], none] ∧
    List.Forall₂
      (fun entry record =>
        tree.content? entry.1 = some (.definition entry.2) ∧ record.name = entry.2.name ∧
        record.source = entry.2.source ∧ Scopes '-' tree entry.1 record.category)
      tree.definitions findings.found.records := by
  let source : Source := ⟨[],
    "<#-- @begin A -->\n<#macro m><#-- @begin B\n@end --></#macro>".toList ++
      "<#function f></#function>".toList⟩
  have hcategories : (source.document Tree.parse '-').toOption.map (fun findings =>
      findings.found.records.map Record.category) = some [some ['A'], none] := by decide +kernel
  cases htree : Tree.parse source.content with
  | error fault =>
      simp [document, htree, Except.map, Except.toOption] at hcategories
  | ok tree =>
      obtain ⟨findings, hfindings, -, hrecords⟩ := category_eq_some_iff htree '-'
      rw [hfindings] at hcategories
      exact ⟨source, tree, findings, rfl, htree, hfindings, Option.some.inj hcategories,
        hrecords⟩

end Source

end TemplateDocs

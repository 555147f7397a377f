import Mathlib.Data.List.Basic
import TemplateDocs.Region

/-!
# Regions and the neighbours of their marks

The regions of a tree are found by a walk that carries the open region along.  They are
the same as if each marker comment looked at its two neighbours only: the next one settles
where its region ends, and the one before it what is wrong with it
(`Regions.ofTree_eq_of_neighbours`).  Nothing is asked of the tree or its positions.
-/

namespace TemplateDocs

namespace Node

variable (marker : Char) (node : Node)

def tag? (name : Text) : Option Text :=
  node.content.comment?.bind fun body => (DocComment.parseMarked marker body).tag? name

def begins? : Option Text :=
  (node.tag? marker RegionMark.beginTag).map Text.trim

def endsRegion : Bool :=
  (node.tag? marker RegionMark.endTag).isSome

def isMarker : Bool :=
  (node.begins? marker).isSome || node.endsRegion marker

def opens? : Option OpenRegion :=
  if node.endsRegion marker then none
  else (node.begins? marker).map fun name => ⟨name, node.start⟩

/-- Where a region ends that is open before a marker comment, or before the end of the file. -/
def stopAt : Option Node → RegionEnd
  | none => .endOfFile
  | some next => .position (if (next.begins? marker).isSome then next.start else next.stop)

/-- The region that a marker comment begins, by itself and the next one. -/
def region? (next : Option Node) : Option Region :=
  (node.begins? marker).map fun name =>
    ⟨name, node.start,
      if node.endsRegion marker then .position node.stop else stopAt marker next⟩

/-- What is wrong with a marker comment, by itself and the one before it. -/
def problem? (previous : Option Node) : Option Diagnostic :=
  match node.begins? marker with
  | some name =>
      (previous.bind (opens? marker)).map fun opened =>
        ⟨.nestedBegin opened.name name, node.start⟩
  | none =>
      if previous.all (endsRegion marker) then some ⟨.endWithoutBegin, node.start⟩ else none

/-- What a marker comment says about regions. -/
def mark : RegionMark :=
  ⟨node.begins? marker, node.endsRegion marker, node.start, node.stop⟩

theorem ofNode?_eq :
    RegionMark.ofNode? marker node =
      if node.isMarker marker then some (node.mark marker) else none := by
  unfold RegionMark.ofNode? isMarker mark begins? endsRegion tag?
  cases node.content.comment? with
  | none => rfl
  | some body => rfl

end Node

def Tree.markers (marker : Char) (tree : Tree) : List Node :=
  (tree.preorder.filterMap tree.node?).filter (Node.isMarker marker)

theorem Tree.map_mark_markers (marker : Char) (tree : Tree) :
    (tree.markers marker).map (Node.mark marker) = RegionMark.ofTree marker tree := by
  unfold markers RegionMark.ofTree
  rw [← List.filterMap_filterMap]
  generalize tree.preorder.filterMap tree.node? = nodes
  induction nodes with
  | nil => rfl
  | cons node rest ih =>
      rw [List.filter_cons, List.filterMap_cons, Node.ofNode?_eq]
      split <;> simp_all

namespace Regions

def withNext : List Node → List (Node × Option Node)
  | [] => []
  | node :: rest => (node, rest.head?) :: withNext rest

/-- Each node with the one before it, the first one with `previous`. -/
def withPrevious (previous : Option Node) : List Node → List (Option Node × Node)
  | [] => []
  | node :: rest => (previous, node) :: withPrevious (some node) rest

section Marks

variable {marker : Char} {node : Node}

theorem openAfter_mark (hnode : node.isMarker marker = true) (current : Option OpenRegion) :
    openAfter current (node.mark marker) = node.opens? marker := by
  unfold openAfter openAfterBegin Node.opens? Node.mark
  cases hbegins : node.begins? marker with
  | some name => rfl
  | none =>
      have hends : node.endsRegion marker = true := by simpa [Node.isMarker, hbegins] using hnode
      simp [hends]

theorem regions_atMark (hnode : node.isMarker marker = true) (current : Option OpenRegion) :
    (atMark current (node.mark marker)).regions =
      (current.map fun opened => opened.close (Node.stopAt marker (some node))).toList ++
        (if node.endsRegion marker then (node.region? marker none).toList else []) := by
  unfold Node.isMarker at hnode
  cases hbegins : node.begins? marker with
  | some name =>
      cases hends : node.endsRegion marker <;> cases current <;>
        simp [atMark, Node.mark, Node.stopAt, Node.region?, hbegins, hends, atBegin, atEnd,
          openAfterBegin, append, OpenRegion.close]
  | none =>
      have hends : node.endsRegion marker = true := by simpa [hbegins] using hnode
      cases current <;>
        simp [atMark, Node.mark, Node.stopAt, Node.region?, hbegins, hends, atEnd,
          openAfterBegin, append, OpenRegion.close]

theorem opens?_eq_none_iff (hnode : node.isMarker marker = true) :
    node.opens? marker = none ↔ node.endsRegion marker = true := by
  unfold Node.isMarker at hnode
  unfold Node.opens?
  cases hends : node.endsRegion marker with
  | true => simp
  | false =>
      have hbegins : node.begins? marker ≠ none := by
        intro hnone
        simp [hnone, hends] at hnode
      simp [hbegins]

theorem diagnostics_atMark (hnode : node.isMarker marker = true) {previous : Option Node}
    (hprevious : ∀ before ∈ previous, before.isMarker marker = true) :
    (atMark (previous.bind (Node.opens? marker)) (node.mark marker)).diagnostics =
      (node.problem? marker previous).toList := by
  unfold Node.isMarker at hnode
  cases hbegins : node.begins? marker with
  | some name =>
      -- An end in the same comment closes the region that has just begun.
      cases hends : node.endsRegion marker <;>
        cases hopen : previous.bind (Node.opens? marker) <;>
          simp [atMark, Node.mark, Node.problem?, hbegins, hends, hopen, atBegin, atEnd,
            openAfterBegin, append]
  | none =>
      have hends : node.endsRegion marker = true := by simpa [hbegins] using hnode
      have hclosed : previous.bind (Node.opens? marker) = none ↔
          previous.all (Node.endsRegion marker) = true := by
        cases previous with
        | none => simp
        | some before => simpa using opens?_eq_none_iff (hprevious before rfl)
      cases hopen : previous.bind (Node.opens? marker) with
      | none =>
          simp [atMark, Node.mark, Node.problem?, hbegins, hends, atEnd, openAfterBegin,
            append, hclosed.mp hopen]
      | some opened =>
          have hnot : previous.all (Node.endsRegion marker) = false := by
            rw [← Bool.not_eq_true, ← hclosed, hopen]
            exact Option.some_ne_none opened
          simp [atMark, Node.mark, Node.problem?, hbegins, hends, atEnd, openAfterBegin,
            append, hnot]

theorem regions_ofMarks {nodes : List Node}
    (hnodes : ∀ node ∈ nodes, node.isMarker marker = true) (current : Option OpenRegion) :
    (ofMarks current (nodes.map (Node.mark marker))).regions =
      (current.map fun opened => opened.close (Node.stopAt marker nodes.head?)).toList ++
        (withNext nodes).filterMap fun pair => pair.1.region? marker pair.2 := by
  induction nodes generalizing current with
  | nil => cases current <;> simp [ofMarks, atEndOfFile, withNext, Node.stopAt]
  | cons node rest ih =>
      have hnode := hnodes node List.mem_cons_self
      have hrest := ih (fun other hother => hnodes other (List.mem_cons_of_mem node hother))
        (node.opens? marker)
      -- What the comment leaves open is settled by the next one, unless it ends it itself.
      have hown : (if node.endsRegion marker then (node.region? marker none).toList else []) ++
          ((node.opens? marker).map fun opened =>
            opened.close (Node.stopAt marker rest.head?)).toList =
          (node.region? marker rest.head?).toList := by
        unfold Node.opens? Node.region?
        cases node.endsRegion marker <;> cases node.begins? marker <;> simp [OpenRegion.close]
      rw [List.map_cons, ofMarks, append, openAfter_mark hnode]
      simp only
      rw [regions_atMark hnode, hrest, List.append_assoc,
        ← List.append_assoc _ _ (List.filterMap _ _), hown, withNext, List.filterMap_cons,
        List.head?_cons]
      cases node.region? marker rest.head? <;> rfl

theorem diagnostics_ofMarks {nodes : List Node}
    (hnodes : ∀ node ∈ nodes, node.isMarker marker = true) (previous : Option Node)
    (hprevious : ∀ before ∈ previous, before.isMarker marker = true) :
    (ofMarks (previous.bind (Node.opens? marker)) (nodes.map (Node.mark marker))).diagnostics =
      ((withPrevious previous nodes).filterMap fun pair => pair.2.problem? marker pair.1) ++
        (atEndOfFile ((nodes.getLast?.or previous).bind (Node.opens? marker))).diagnostics := by
  induction nodes generalizing previous with
  | nil => rfl
  | cons node rest ih =>
      have hnode := hnodes node List.mem_cons_self
      have hrest := ih (fun other hother => hnodes other (List.mem_cons_of_mem node hother))
        (some node) (by simpa using hnode)
      have hlast : (node :: rest).getLast?.or previous = rest.getLast?.or (some node) := by
        rw [List.getLast?_cons]
        cases rest.getLast? <;> rfl
      rw [List.map_cons, ofMarks, append, openAfter_mark hnode]
      simp only
      rw [Option.bind_some] at hrest
      rw [diagnostics_atMark hnode hprevious, hrest, hlast, withPrevious, List.filterMap_cons]
      cases node.problem? marker previous <;> rfl

theorem getLast?_withNext (nodes : List Node) :
    (withNext nodes).getLast? = nodes.getLast?.map fun node => (node, none) := by
  induction nodes with
  | nil => rfl
  | cons node rest ih =>
      cases rest with
      | nil => rfl
      | cons next rest =>
          rw [List.getLast?_cons_cons, ← ih]
          rfl

/-- A comment that is the last one and leaves a region open has begun the last region. -/
theorem getLast?_regions {nodes : List Node} {last : Node} {opened : OpenRegion}
    (hlast : nodes.getLast? = some last) (hopen : last.opens? marker = some opened) :
    ((withNext nodes).filterMap fun pair => pair.1.region? marker pair.2).getLast? =
      some (opened.close .endOfFile) := by
  have hregion : last.region? marker none = some (opened.close .endOfFile) := by
    unfold Node.opens? at hopen
    split at hopen
    · cases hopen
    · next hends =>
        cases hbegins : last.begins? marker <;> rw [hbegins] at hopen <;> cases hopen
        simp [Node.region?, hbegins, hends, Node.stopAt, OpenRegion.close]
  have hpair := getLast?_withNext nodes
  rw [hlast, Option.map_some, List.getLast?_eq_some_iff] at hpair
  cases hpair with
  | intro before hbefore => simp [hbefore, List.filterMap_append, hregion]

end Marks

theorem mem_categories_iff (regions : Regions) (name : Text) :
    name ∈ regions.categories ↔ name ∈ regions.regions.map Region.name := by
  unfold categories
  have hall (found : Keyed Unit) :
      name ∈ (regions.regions.foldl (fun names region => names.insert region.name ()) found).keys ↔
        name ∈ found.keys ∨ name ∈ regions.regions.map Region.name := by
    induction regions.regions generalizing found with
    | nil => simp
    | cons region rest ih =>
        rw [List.foldl_cons, ih, Keyed.insert, Keyed.mem_keys_update, List.map_cons,
          List.mem_cons]
        tauto
  simpa using hall .empty

/--
The regions of a tree and what is wrong with them, as each marker comment and its two
neighbours say.  Regions stand in the order of the comments that begin them; a comment that
is the last one and ends nothing leaves the last region without an end.
-/
theorem ofTree_eq_of_neighbours (marker : Char) (tree : Tree) :
    let markers := tree.markers marker
    let found := ofTree marker tree
    let problems :=
      (withPrevious none markers).filterMap fun pair => pair.2.problem? marker pair.1
    found.regions =
        ((withNext markers).filterMap fun pair => pair.1.region? marker pair.2) ∧
      (if markers.getLast?.all (Node.endsRegion marker) then
        found.diagnostics = problems
      else
        ∃ last, found.regions.getLast? = some last ∧
          found.diagnostics = problems ++ [⟨.missingEnd last.name, last.start⟩]) ∧
      found.categories.Pairwise (· < ·) ∧
      ∀ name, name ∈ found.categories ↔ name ∈ found.regions.map Region.name := by
  intro markers found problems
  have hmarkers : ∀ node ∈ markers, node.isMarker marker = true :=
    fun node hnode => (List.mem_filter.mp hnode).2
  have hfound : found = ofMarks none (markers.map (Node.mark marker)) := by
    rw [Tree.map_mark_markers]
    rfl
  have hregions : found.regions =
      (withNext markers).filterMap fun pair => pair.1.region? marker pair.2 := by
    rw [hfound, regions_ofMarks hmarkers none]
    rfl
  have hdiagnostics : found.diagnostics = problems ++
      (atEndOfFile (markers.getLast?.bind (Node.opens? marker))).diagnostics := by
    have hall := diagnostics_ofMarks hmarkers none (by simp)
    rw [Option.or_none] at hall
    rw [hfound]
    exact hall
  refine ⟨hregions, ?_, ?_, mem_categories_iff found⟩
  · cases hlast : markers.getLast? with
    | none =>
        rw [hlast] at hdiagnostics
        simpa [atEndOfFile] using hdiagnostics
    | some last =>
        have hmarker := hmarkers last (List.mem_of_getLast? hlast)
        rw [hlast, Option.bind_some] at hdiagnostics
        rw [Option.all_some]
        split
        · next hends =>
            rw [(opens?_eq_none_iff hmarker).mpr hends] at hdiagnostics
            simpa [atEndOfFile] using hdiagnostics
        · next hends =>
            cases hopen : last.opens? marker with
            | none => exact absurd ((opens?_eq_none_iff hmarker).mp hopen) hends
            | some opened =>
                rw [hopen] at hdiagnostics
                refine ⟨opened.close .endOfFile, ?_, hdiagnostics⟩
                rw [hregions]
                exact getLast?_regions hlast hopen
  · exact Keyed.ascending _

end Regions

end TemplateDocs

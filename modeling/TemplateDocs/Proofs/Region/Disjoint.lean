import Mathlib.Data.List.Find
import TemplateDocs.Proofs.Region.Scope

/-!
# Regions one behind the other

The marks of a parsed file stand one behind the other, so its regions do too: each
starts behind the one before it, and no earlier than that one ends.  A position
lies in one region at most, and a look-up does not depend on the order of the
regions.
-/

namespace TemplateDocs

namespace Region

/-- The first region has an end, and the second starts no earlier than there. -/
def EndsBefore (first second : Region) : Prop :=
  ∃ stop, first.stop = .position stop ∧ ¬ second.start < stop

/-- A region that has an end goes on for a while before it. -/
def IsProper (region : Region) : Prop :=
  ∀ stop, region.stop = .position stop → region.start < stop

/-- Proper regions, each of them at an end before the next one starts. -/
structure InOrder (regions : List Region) : Prop where
  proper : ∀ region ∈ regions, region.IsProper
  apart : regions.Pairwise EndsBefore

theorem InOrder.cons {region : Region} {regions : List Region} {stop : Position}
    (h : InOrder regions) (hstop : region.stop = .position stop) (hlt : region.start < stop)
    (hbehind : ∀ other ∈ regions, ¬ other.start < stop) : InOrder (region :: regions) := by
  constructor
  · intro other hother
    rcases List.mem_cons.mp hother with rfl | hother
    · intro position hposition
      rw [hstop] at hposition
      cases hposition
      exact hlt
    · exact h.proper other hother
  · rw [List.pairwise_cons]
    exact ⟨fun other hother => ⟨stop, hstop, hbehind other hother⟩, h.apart⟩

theorem InOrder.start_lt {regions : List Region} (h : InOrder regions) :
    regions.Pairwise fun first second => first.start < second.start := by
  apply h.apart.imp_of_mem
  intro first second hfirst _ hends
  obtain ⟨stop, hstop, hnot⟩ := hends
  have hlt : first.start < stop := h.proper first hfirst stop hstop
  exact Position.lt_of_lt_of_not_lt hlt hnot

theorem EndsBefore.not_contains {first second : Region} (h : EndsBefore first second)
    {position : Position} (hfirst : first.contains position = true)
    (hsecond : second.contains position = true) : False := by
  obtain ⟨stop, hstop, hnot⟩ := h
  simp only [contains, Bool.and_eq_true, decide_eq_true_eq] at hfirst hsecond
  have hbefore : position < stop := by
    simpa [RegionEnd.isAfter, hstop] using hfirst.2
  exact hnot (Position.lt_trans hsecond.1 hbefore)

theorem InOrder.length_filter_contains {regions : List Region} (h : InOrder regions)
    (position : Position) :
    (regions.filter fun region => region.contains position).length ≤ 1 := by
  have hapart := h.apart.filter fun region => region.contains position
  have hinside : ∀ region ∈ regions.filter fun region => region.contains position,
      region.contains position = true := fun region hregion => (List.mem_filter.mp hregion).2
  generalize regions.filter (fun region => region.contains position) = found at hapart hinside ⊢
  match found with
  | [] => exact Nat.zero_le 1
  | [region] => exact Nat.le_refl 1
  | first :: second :: rest =>
      have hends : EndsBefore first second := (List.pairwise_cons.mp hapart).1 second (by simp)
      exact (hends.not_contains (hinside first (by simp)) (hinside second (by simp))).elim

theorem InOrder.find?_eq_of_perm {regions other : List Region} (h : InOrder regions)
    (hperm : other.Perm regions) (position : Position) :
    find? other position = find? regions position := by
  have hone := h.length_filter_contains position
  symm
  apply List.find?_eq_find?_of_perm hperm.symm
  intro first hfirst second hsecond
  have hmem {region : Region} (hregion : region ∈ regions ∧ region.contains position = true) :
      region ∈ regions.filter fun region => region.contains position :=
    List.mem_filter.mpr hregion
  have hfirst := hmem hfirst
  have hsecond := hmem hsecond
  clear hmem
  generalize regions.filter (fun region => region.contains position) = found
    at hone hfirst hsecond
  match found with
  | [] => cases hfirst
  | [region] => rw [List.mem_singleton.mp hfirst, List.mem_singleton.mp hsecond]
  | _ :: _ :: _ => simp at hone

/-- Only the last region can run to the end of the file. -/
theorem InOrder.getLast?_of_endOfFile {regions : List Region} (h : InOrder regions)
    {region : Region} (hregion : region ∈ regions) (hstop : region.stop = .endOfFile) :
    regions.getLast? = some region := by
  obtain ⟨before, behind, rfl⟩ := List.append_of_mem hregion
  cases behind with
  | nil => simp
  | cons next behind =>
      have hbehind := (List.pairwise_append.mp h.apart).2.1
      obtain ⟨stop, hbounded, -⟩ := (List.pairwise_cons.mp hbehind).1 next (by simp)
      rw [hstop] at hbounded
      cases hbounded

end Region

namespace RegionMark

/-- Marks one behind the other, none of them empty. -/
structure InOrder (marks : List RegionMark) : Prop where
  proper : ∀ mark ∈ marks, mark.start < mark.stop
  apart : marks.Pairwise fun first second =>
    first.start < second.start ∧ ¬ second.start < first.stop

theorem inOrder_ofTree {source : Text} {tree : Tree} (h : Tree.parse source = .ok tree)
    (marker : Char) : InOrder (ofTree marker tree) := by
  constructor
  · intro mark hmark
    obtain ⟨id, -, hmark⟩ := List.mem_filterMap.mp hmark
    have hpos := Regions.pos_of_at? h hmark
    obtain ⟨node, body, hnode, -, -, rfl⟩ := at?_eq_some_iff.mp hmark
    exact Tree.start_lt_stop_of_parse h hpos hnode
  · have hnumbers : tree.preorder.Pairwise (· < ·) := by
      obtain ⟨outline, -, rfl⟩ := Tree.parse_eq_ok_iff.mp h
      rw [Tree.preorder_ofOutline]
      exact List.pairwise_lt_range
    apply List.pairwise_filterMap.mpr
    apply hnumbers.imp
    intro earlier later hlt first hfirst second hsecond
    obtain ⟨node, body, hnode, -, -, rfl⟩ := at?_eq_some_iff.mp hsecond
    exact Regions.before_of_at? h hnode hlt hfirst

end RegionMark

namespace Regions

/-- A region that is open before a mark is closed at the start of the mark or at its end. -/
theorem inOrder_atMark_append {current : Option OpenRegion} {mark : RegionMark}
    {later : List Region} (hmark : mark.start < mark.stop)
    (hcurrent : ∀ opened, current = some opened → opened.start < mark.start)
    (hlater : Region.InOrder later)
    (hbegin : mark.beginName.isSome = true → ∀ region ∈ later, ¬ region.start < mark.start)
    (hend : mark.ends = true → ∀ region ∈ later, ¬ region.start < mark.stop) :
    Region.InOrder ((atMark current mark).regions ++ later) := by
  cases hname : mark.beginName with
  | none =>
      by_cases hends : mark.ends = true
      · cases current with
        | none => simpa [atMark, hname, hends, openAfterBegin, atEnd, append] using hlater
        | some opened =>
            have hlt : opened.start < mark.stop := Position.lt_trans (hcurrent opened rfl) hmark
            have hclosed : Region.InOrder (opened.close (.position mark.stop) :: later) :=
              hlater.cons rfl hlt (hend hends)
            simpa [atMark, hname, hends, openAfterBegin, atEnd, append] using hclosed
      · simpa [atMark, hname, hends] using hlater
  | some name =>
      have hbegin := hbegin (by rw [hname]; rfl)
      -- The region that the mark itself begins and ends, if it does both.
      have hown : Region.InOrder
          ((if mark.ends then [OpenRegion.close ⟨name, mark.start⟩ (.position mark.stop)]
            else []) ++ later) := by
        by_cases hends : mark.ends = true
        · rw [if_pos hends]
          exact hlater.cons rfl hmark (hend hends)
        · rw [if_neg hends]
          exact hlater
      have hregions : (atMark current mark).regions ++ later =
          (atBegin current name mark).regions ++
            ((if mark.ends then [OpenRegion.close ⟨name, mark.start⟩ (.position mark.stop)]
              else []) ++ later) := by
        by_cases hends : mark.ends = true <;>
          simp [atMark, hname, hends, openAfterBegin, atEnd, append]
      rw [hregions]
      cases current with
      | none => exact hown
      | some opened =>
          refine hown.cons rfl (hcurrent opened rfl) fun region hregion => ?_
          rcases List.mem_append.mp hregion with hregion | hregion
          · split at hregion
            · rw [List.mem_singleton.mp hregion]
              exact Position.lt_irrefl _
            · cases hregion
          · exact hbegin region hregion

theorem start_of_openAfter {current : Option OpenRegion} {mark : RegionMark}
    {opened : OpenRegion} (h : openAfter current mark = some opened) :
    mark.ends = false ∧
      (opened.start = mark.start ∨ mark.beginName = none ∧ current = some opened) := by
  unfold openAfter openAfterBegin at h
  split at h
  · cases h
  · next hends =>
      refine ⟨Bool.eq_false_iff.mpr hends, ?_⟩
      split at h
      · cases h
        exact .inl rfl
      · next hname => exact .inr ⟨hname, h⟩

theorem inOrder_ofMarks {marks : List RegionMark} {current : Option OpenRegion}
    (hmarks : RegionMark.InOrder marks)
    (hcurrent : ∀ opened, current = some opened → ∀ mark ∈ marks, opened.start < mark.start) :
    Region.InOrder (ofMarks current marks).regions := by
  induction marks generalizing current with
  | nil =>
      cases current with
      | none => exact ⟨by simp [ofMarks, atEndOfFile], .nil⟩
      | some opened =>
          refine ⟨fun region hregion stop hstop => ?_, List.pairwise_singleton _ _⟩
          have hclosed : region = opened.close .endOfFile := List.mem_singleton.mp hregion
          rw [hclosed] at hstop
          cases hstop
  | cons mark rest ih =>
      obtain ⟨hapart, hpairs⟩ := List.pairwise_cons.mp hmarks.apart
      have hrest : RegionMark.InOrder rest :=
        ⟨fun other hother => hmarks.proper other (by simp [hother]), hpairs⟩
      have hlater : Region.InOrder (ofMarks (openAfter current mark) rest).regions := by
        apply ih hrest
        intro opened hopened other hother
        rcases (start_of_openAfter hopened).2 with hstart | ⟨-, hkept⟩
        · rw [hstart]
          exact (hapart other hother).1
        · exact hcurrent opened hkept other (by simp [hother])
      rw [ofMarks, append]
      apply inOrder_atMark_append (hmarks.proper mark (by simp)) _ hlater
      · intro hbegins region hregion
        apply not_start_lt_of_mem_ofMarks _ _ hregion
        · intro opened hopened
          rcases (start_of_openAfter hopened).2 with hstart | ⟨hname, -⟩
          · rw [hstart]
            exact Position.lt_irrefl _
          · rw [hname] at hbegins
            cases hbegins
        · intro other hother
          exact Position.not_lt_of_lt (hapart other hother).1
      · intro hends region hregion
        apply not_start_lt_of_mem_ofMarks _ _ hregion
        · intro opened hopened
          rw [(start_of_openAfter hopened).1] at hends
          cases hends
        · intro other hother
          exact (hapart other hother).2
      · intro opened hopened
        exact hcurrent opened hopened mark (by simp)

/--
The regions of a parsed file start one behind the other and are disjoint, so that a
look-up by position finds the same region in whatever order they are listed.
-/
theorem regions_ofTree_disjoint {source : Text} {tree : Tree}
    (h : Tree.parse source = .ok tree) (marker : Char) :
    let regions := (ofTree marker tree).regions
    regions.Pairwise (fun first second => first.start < second.start) ∧
      (∀ region ∈ regions, ∀ stop, region.stop = .position stop → region.start < stop) ∧
      regions.Pairwise (fun first second =>
        ∃ stop, first.stop = .position stop ∧ ¬ second.start < stop) ∧
      (∀ region ∈ regions, region.stop = .endOfFile → regions.getLast? = some region) ∧
      (∀ position, (regions.filter fun region => region.contains position).length ≤ 1) ∧
      ∀ other, other.Perm regions →
        ∀ position, Region.find? other position = Region.find? regions position := by
  have horder : Region.InOrder (ofTree marker tree).regions :=
    inOrder_ofMarks (RegionMark.inOrder_ofTree h marker) (by simp)
  exact ⟨horder.start_lt, horder.proper, horder.apart,
    fun region hregion hstop => horder.getLast?_of_endOfFile hregion hstop,
    horder.length_filter_contains, fun other hperm => horder.find?_eq_of_perm hperm⟩

/-- A nested marker, a comment that begins and ends a region, and a region left open. -/
theorem regions_ofTree_disjoint_nested : ∃ source tree regions,
    source = "<#-- @begin A --><#macro m><#-- @begin B\n@end --></#macro>".toList ++
      "<#-- @begin C -->".toList ∧
    Tree.parse source = .ok tree ∧ regions = (ofTree '-' tree).regions ∧
    regions.map (fun region => (region.name, region.start, region.stop)) =
      [(['A'], ⟨1, 1⟩, .position ⟨1, 28⟩), (['B'], ⟨1, 28⟩, .position ⟨2, 9⟩),
        (['C'], ⟨2, 18⟩, .endOfFile)] ∧
    regions.Pairwise (fun first second =>
      ∃ stop, first.stop = .position stop ∧ ¬ second.start < stop) ∧
    Region.find? regions.reverse ⟨2, 19⟩ = Region.find? regions ⟨2, 19⟩ := by
  obtain ⟨source, hsource⟩ : ∃ source : Text, source =
      "<#-- @begin A --><#macro m><#-- @begin B\n@end --></#macro>".toList ++
        "<#-- @begin C -->".toList := ⟨_, rfl⟩
  have hfound : (Tree.parse source).toOption.map (fun tree =>
      (ofTree '-' tree).regions.map fun region => (region.name, region.start, region.stop)) =
      some [(['A'], ⟨1, 1⟩, .position ⟨1, 28⟩), (['B'], ⟨1, 28⟩, .position ⟨2, 9⟩),
        (['C'], ⟨2, 18⟩, .endOfFile)] := by
    rw [hsource]
    decide +kernel
  cases hparse : Tree.parse source with
  | error fault =>
      rw [hparse] at hfound
      cases hfound
  | ok tree =>
      obtain ⟨-, -, hapart, -, -, hfind⟩ := regions_ofTree_disjoint hparse '-'
      rw [hparse] at hfound
      exact ⟨source, tree, _, hsource, hparse, rfl, Option.some.inj hfound, hapart,
        hfind _ (List.reverse_perm _) _⟩

end Regions

end TemplateDocs

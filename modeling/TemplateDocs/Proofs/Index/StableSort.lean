import Mathlib.Data.List.Perm.Basic
import TemplateDocs.Index.Basic

/-!
# Stable order of records

A stable sort of records is a rearrangement in the order of their names, case
aside, that keeps the records of each name in the order in which they came.
There is one such rearrangement only (`IsStableSort.unique`).  Sorting goes along with
choosing (`filter_mergeSort`), and records that were sorted file by file sort to the
same list as those that were not.
-/

namespace TemplateDocs

section Sorting

variable {α : Type}

theorem eq_of_append_eq_append {first second before behind : List α} {test : α → Bool}
    (h : first ++ second = before ++ behind) (hfirst : ∀ item ∈ first, test item = true)
    (hsecond : ∀ item ∈ second, test item = false)
    (hbefore : ∀ item ∈ before, test item = true)
    (hbehind : ∀ item ∈ behind, test item = false) : first = before ∧ second = behind := by
  have hkept {part rest : List α} (hpart : ∀ item ∈ part, test item = true)
      (hrest : ∀ item ∈ rest, test item = false) : (part ++ rest).filter test = part := by
    have hnone : rest.filter test = [] := by
      rw [List.filter_eq_nil_iff]
      intro item hitem
      simp [hrest item hitem]
    rw [List.filter_append, hnone, List.filter_eq_self.mpr hpart, List.append_nil]
  have heq : first = before := by
    have hfiltered := congrArg (List.filter test) h
    rwa [hkept hfirst hsecond, hkept hbefore hbehind] at hfiltered
  subst heq
  exact ⟨rfl, List.append_cancel_left h⟩

/-- Choosing items goes along with sorting them. -/
theorem filter_mergeSort {le : α → α → Bool}
    (htrans : ∀ a b c, le a b = true → le b c = true → le a c = true)
    (htotal : ∀ a b, (le a b || le b a) = true) (p : α → Bool) (items : List α) :
    (items.mergeSort le).filter p = (items.filter p).mergeSort le := by
  induction items with
  | nil => simp
  | cons a rest ih =>
      obtain ⟨before, behind, hall, hrest, hbefore⟩ := List.mergeSort_cons htrans htotal a rest
      rw [hrest, List.filter_append] at ih
      by_cases ha : p a = true
      · obtain ⟨first, second, hchosen, hkept, hfirst⟩ :=
          List.mergeSort_cons htrans htotal a (rest.filter p)
        -- Both sorts put `a` before the first item that is not smaller.
        have hordered := List.pairwise_mergeSort htrans htotal (a :: rest)
        have hordered' := List.pairwise_mergeSort htrans htotal (a :: rest.filter p)
        rw [hall] at hordered
        rw [hchosen] at hordered'
        have hbehind := (List.pairwise_cons.mp (List.pairwise_append.mp hordered).2.1).1
        have hsecond := (List.pairwise_cons.mp (List.pairwise_append.mp hordered').2.1).1
        rw [hkept] at ih
        obtain ⟨rfl, rfl⟩ := eq_of_append_eq_append ih
          (fun item hitem => hbefore item (List.mem_filter.mp hitem).1)
          (fun item hitem => by rw [hbehind item (List.mem_filter.mp hitem).1]; rfl)
          hfirst (fun item hitem => by rw [hsecond item hitem]; rfl)
        rw [List.filter_cons_of_pos ha, hall, hchosen, List.filter_append,
          List.filter_cons_of_pos ha]
      · rw [List.filter_cons_of_neg ha, hall, List.filter_append, List.filter_cons_of_neg ha, ih]

end Sorting

namespace Record

theorem nameLe_trans (a b c : Record) (hab : nameLe a b = true) (hbc : nameLe b c = true) :
    nameLe a c = true :=
  Text.le_trans hab hbc

theorem nameLe_total (a b : Record) : (nameLe a b || nameLe b a) = true :=
  Text.le_total _ _

def named (name : Text) (records : List Record) : List Record :=
  records.filter fun record => Text.lowercase record.name = name

/-- Every record stands before all those with later names, case aside. -/
def Ordered (records : List Record) : Prop :=
  records.Pairwise fun first second =>
    Text.le (Text.lowercase first.name) (Text.lowercase second.name) = true

/-- A rearrangement by name, case aside, that keeps the order of equal names. -/
structure IsStableSort (records sorted : List Record) : Prop where
  perm : sorted.Perm records
  ordered : Ordered sorted
  stable : ∀ name, named name sorted = named name records

theorem mem_named {name : Text} {record : Record} {records : List Record} :
    record ∈ named name records ↔ record ∈ records ∧ Text.lowercase record.name = name := by
  simp [named]

theorem named_cons_of_eq {name : Text} {record : Record}
    (h : Text.lowercase record.name = name) (records : List Record) :
    named name (record :: records) = record :: named name records := by
  simp [named, h]

theorem named_cons_of_ne {name : Text} {record : Record}
    (h : Text.lowercase record.name ≠ name) (records : List Record) :
    named name (record :: records) = named name records := by
  simp [named, h]

theorem mem_of_named_eq {first second : List Record}
    (h : ∀ name, named name first = named name second) {record : Record}
    (hrecord : record ∈ first) : record ∈ second := by
  have hnamed : record ∈ named (Text.lowercase record.name) first :=
    mem_named.mpr ⟨hrecord, rfl⟩
  rw [h] at hnamed
  exact (mem_named.mp hnamed).1

theorem Ordered.head_le {head : Record} {rest : List Record} (h : Ordered (head :: rest))
    {record : Record} (hrecord : record ∈ head :: rest) :
    Text.le (Text.lowercase head.name) (Text.lowercase record.name) = true := by
  rcases List.mem_cons.mp hrecord with rfl | hrecord
  · simpa using Text.le_total (Text.lowercase record.name) (Text.lowercase record.name)
  · exact (List.pairwise_cons.mp h).1 record hrecord

theorem Ordered.eq_of_named_eq {first second : List Record} (hfirst : Ordered first)
    (hsecond : Ordered second) (h : ∀ name, named name first = named name second) :
    first = second := by
  induction first generalizing second with
  | nil =>
      cases second with
      | nil => rfl
      | cons b second =>
          have hmem : b ∈ [] := mem_of_named_eq (fun name => (h name).symm) List.mem_cons_self
          cases hmem
  | cons a first ih =>
      cases second with
      | nil =>
          have hmem : a ∈ [] := mem_of_named_eq h List.mem_cons_self
          cases hmem
      | cons b second =>
          -- The first records are the least of their lists, and each is in the other list.
          have hle := hsecond.head_le (mem_of_named_eq h List.mem_cons_self)
          have hge := hfirst.head_le
            (mem_of_named_eq (fun name => (h name).symm) List.mem_cons_self)
          have hname := Text.le_antisymm hge hle
          have hheads := h (Text.lowercase b.name)
          rw [named_cons_of_eq hname, named_cons_of_eq rfl] at hheads
          have hab : a = b := (List.cons.inj hheads).1
          subst hab
          have hrest : first = second := by
            apply ih (List.pairwise_cons.mp hfirst).2 (List.pairwise_cons.mp hsecond).2
            intro name
            have hboth := h name
            by_cases ha : Text.lowercase a.name = name
            · rw [named_cons_of_eq ha, named_cons_of_eq ha] at hboth
              exact (List.cons.inj hboth).2
            · rwa [named_cons_of_ne ha, named_cons_of_ne ha] at hboth
          rw [hrest]

theorem IsStableSort.unique {records first second : List Record}
    (hfirst : IsStableSort records first) (hsecond : IsStableSort records second) :
    first = second := by
  apply hfirst.ordered.eq_of_named_eq hsecond.ordered
  intro name
  rw [hfirst.stable, hsecond.stable]

theorem isStableSort_sortRecords (records : List Record) :
    IsStableSort records (sortRecords records) := by
  have hperm : (sortRecords records).Perm records := List.mergeSort_perm records nameLe
  refine ⟨hperm, List.pairwise_mergeSort nameLe_trans nameLe_total records, fun name => ?_⟩
  -- Records of one name are in order as they stand, so the sort keeps them as a sublist.
  have hordered : (named name records).Pairwise fun a b => nameLe a b = true := by
    apply List.pairwise_of_forall_mem_list
    intro first hfirst second hsecond
    rw [nameLe, (mem_named.mp hfirst).2, (mem_named.mp hsecond).2]
    simpa using Text.le_total name name
  have hsublist :=
    List.sublist_mergeSort nameLe_trans nameLe_total hordered List.filter_sublist
  have hkept : (named name records).Sublist (named name (sortRecords records)) := by
    have hfiltered := hsublist.filter fun record => Text.lowercase record.name = name
    simpa [named, sortRecords, List.filter_filter] using hfiltered
  have hlength : (named name records).length = (named name (sortRecords records)).length :=
    (hperm.filter _).length_eq.symm
  exact (hkept.eq_of_length hlength).symm

theorem sortRecords_filter (records : List Record) (p : Record → Bool) :
    sortRecords (records.filter p) = (sortRecords records).filter p :=
  (filter_mergeSort nameLe_trans nameLe_total p records).symm

/-- Lists that are sorted one by one come to the same sort when put together. -/
theorem isStableSort_flatMap {α : Type} (parts : List α) (records : α → List Record) :
    IsStableSort (parts.flatMap fun part => sortRecords (records part))
      (sortRecords (parts.flatMap records)) := by
  have hsorted := isStableSort_sortRecords (parts.flatMap records)
  refine ⟨hsorted.perm.trans ?_, hsorted.ordered, fun name => ?_⟩
  · apply List.Perm.flatMap_left
    intro part _
    exact (isStableSort_sortRecords (records part)).perm.symm
  · rw [hsorted.stable]
    have hparts (part : α) :
        named name (sortRecords (records part)) = named name (records part) :=
      (isStableSort_sortRecords (records part)).stable name
    simp only [named] at hparts
    simp only [named, List.filter_flatMap, hparts]

end Record

end TemplateDocs

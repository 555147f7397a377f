import Mathlib.Data.List.Nodup
import TemplateDocs.Proofs.Index.Isolation

/-!
# The order of the sources

Sources that are sorted by distinct names come into one order, whatever order they
were given in.  Sources that are not sorted fill the same categories with the same
records, and only records of equal names, case aside, may change places.
-/

namespace TemplateDocs

namespace Keyed

theorem keys_eq_of_mem_iff {α : Type} {first second : Keyed α}
    (h : ∀ key, key ∈ first.keys ↔ key ∈ second.keys) : first.keys = second.keys := by
  have hnodup (collection : Keyed α) : collection.keys.Nodup :=
    collection.ascending.imp fun {a b} (hlt : a < b) (heq : a = b) => List.lt_irrefl b (heq ▸ hlt)
  have hperm : first.keys.Perm second.keys :=
    (List.perm_ext_iff_of_nodup (hnodup first) (hnodup second)).mpr h
  refine List.Perm.eq_of_pairwise ?_ first.ascending second.ascending hperm
  intro a b _ _ hab hba
  exact absurd hba (List.lt_asymm hab)

end Keyed

namespace Record

/-- The same records, with the same names one by one, case aside. -/
structure Rearranged (first second : List Record) : Prop where
  perm : first.Perm second
  names : first.map (fun record => Text.lowercase record.name) =
    second.map fun record => Text.lowercase record.name

/-- The order of names leaves nothing open but the places of equal names. -/
theorem Ordered.rearranged {first second : List Record} (hfirst : Ordered first)
    (hsecond : Ordered second) (hperm : first.Perm second) : Rearranged first second := by
  refine ⟨hperm, ?_⟩
  have hnames {records : List Record} (h : Ordered records) :
      (records.map fun record => Text.lowercase record.name).Pairwise fun a b =>
        Text.le a b = true := by
    rw [List.pairwise_map]
    exact h
  refine List.Perm.eq_of_pairwise ?_ (hnames hfirst) (hnames hsecond) (hperm.map _)
  intro a b _ _ hab hba
  exact Text.le_antisymm hab hba

theorem rearranged_sortRecords {first second : List Record} (h : first.Perm second) :
    Rearranged (sortRecords first) (sortRecords second) := by
  have hfirst := isStableSort_sortRecords first
  have hsecond := isStableSort_sortRecords second
  exact hfirst.ordered.rearranged hsecond.ordered
    ((hfirst.perm.trans h).trans hsecond.perm.symm)

end Record

namespace Categories

variable {first second : Categories} {listed : Text → Prop} {records others : List Record}

theorem Groups.keys_eq (hfirst : first.Groups listed records)
    (hsecond : second.Groups listed others) : first.keys = second.keys := by
  apply Keyed.keys_eq_of_mem_iff
  intro key
  rw [hfirst.mem_keys, hsecond.mem_keys]

theorem Groups.rearranged (hfirst : first.Groups listed records)
    (hsecond : second.Groups listed others) (hperm : records.Perm others) (key : Text) :
    Option.Rel Record.Rearranged (first.sorted.get? key) (second.sorted.get? key) := by
  have hkeys : first.keys = second.keys := hfirst.keys_eq hsecond
  have hfiled : (Record.filedUnder key records).Perm (Record.filedUnder key others) :=
    hperm.filter _
  rw [Categories.sorted, Categories.sorted, Keyed.get?_mapValues, Keyed.get?_mapValues,
    hfirst.get?_eq, hsecond.get?_eq, hkeys]
  by_cases hkey : key ∈ second.keys
  · rw [if_pos hkey, if_pos hkey]
    exact .some (Record.rearranged_sortRecords hfiled)
  · rw [if_neg hkey, if_neg hkey]
    exact .none

end Categories

namespace Collection

theorem holds_of_perm {additions others : List Addition} (h : additions.Perm others)
    {collection : Collection} (hcollection : Holds others collection) :
    collection.categories.Groups (fun key => ∃ addition ∈ additions, addition.Lists key)
        collection.records ∧
      (additions.flatMap fun addition => addition.found.records).Perm collection.records := by
  refine ⟨hcollection.groups.congr fun key => ?_, ?_⟩
  · simp only [h.mem_iff]
  · rw [hcollection.records_eq]
    exact h.flatMap_right _

end Collection

theorem processingOrder_of_perm {options : Options} (hsort : options.sortFiles = true)
    {first second : List Source} (h : first.Perm second)
    (hnames : (first.map Source.name).Nodup) :
    processingOrder options first = processingOrder options second := by
  let le : Source → Source → Bool := fun a b => Text.le a.name b.name
  have htrans (a b c : Source) (hab : le a b = true) (hbc : le b c = true) : le a c = true :=
    Text.le_trans hab hbc
  have htotal (a b : Source) : (le a b || le b a) = true := Text.le_total a.name b.name
  have hsorted (sources : List Source) :
      (sources.mergeSort le).Pairwise fun a b => le a b = true :=
    List.pairwise_mergeSort htrans htotal sources
  have hfirst : (first.mergeSort le).Perm first := List.mergeSort_perm first le
  have hsecond : (second.mergeSort le).Perm second := List.mergeSort_perm second le
  unfold processingOrder
  rw [if_pos hsort, if_pos hsort]
  refine List.Perm.eq_of_pairwise ?_ (hsorted first) (hsorted second)
    ((hfirst.trans h).trans hsecond.symm)
  intro a b ha hb hab hba
  have hmem : b ∈ first := h.mem_iff.mpr (hsecond.mem_iff.mp hb)
  exact List.inj_on_of_nodup_map hnames (hfirst.mem_iff.mp ha) hmem (Text.le_antisymm hab hba)

/--
Sorted by distinct names, sources in any order come to the same index and the same
reports.  Unsorted, they come to the same records under the same categories, up to
the places of equal names.
-/
theorem documentSources_of_perm (parser : TreeParser) (options : Options)
    {first second : List Source} (h : first.Perm second) :
    let outcome := documentSources parser options first
    let other := documentSources parser options second
    (options.sortFiles = true → (first.map Source.name).Nodup →
      outcome.index = other.index ∧ outcome.reported = other.reported) ∧
    (options.sortFiles = false →
      Record.Rearranged outcome.index.records other.index.records ∧
        outcome.index.categories.keys = other.index.categories.keys ∧
        ∀ key, Option.Rel Record.Rearranged (outcome.index.categories.get? key)
          (other.index.categories.get? key)) := by
  intro outcome other
  constructor
  · intro hsort hnames
    have hsame : outcome = other := by
      simp only [outcome, other, documentSources, processingOrder_of_perm hsort h hnames]
    rw [hsame]
    exact ⟨rfl, rfl⟩
  · intro hsort
    have hgiven (sources : List Source) : processingOrder options sources = sources := by
      simp [processingOrder, hsort]
    obtain ⟨-, hcategories, hrecords⟩ := documentSources_eq_sorted parser options first
    obtain ⟨-, hotherCategories, hotherRecords⟩ :=
      documentSources_eq_sorted parser options second
    rw [hgiven] at hcategories hrecords hotherCategories hotherRecords
    have hperm := h.filterMap (Source.addition? parser options.marker)
    have hadded := Collection.holds_ofAdditions
      (first.filterMap (Source.addition? parser options.marker))
    obtain ⟨hgroups, hsame⟩ := Collection.holds_of_perm hperm (Collection.holds_ofAdditions _)
    rw [← hadded.records_eq] at hsame
    rw [hcategories, hrecords, hotherCategories, hotherRecords]
    refine ⟨Record.rearranged_sortRecords hsame, ?_, hadded.groups.rearranged hgroups hsame⟩
    exact hadded.groups.sorted.keys_eq hgroups.sorted

/-- Sources given the other way round, one of them refused, two with names equal but for case. -/
theorem documentSources_of_perm_reversed : ∃ sources : List Source,
    sources = [⟨['x'], "<#macro a></#macro>".toList⟩, ⟨['y'], "</#macro>".toList⟩,
      ⟨['z'], "<#macro A></#macro>".toList⟩] ∧
    sources.map (Source.isAccepted Tree.parse) = [true, false, true] ∧
    sources.Perm sources.reverse ∧ (sources.map Source.name).Nodup ∧
    (documentSources Tree.parse ⟨'-', true, 0⟩ sources).index =
      (documentSources Tree.parse ⟨'-', true, 0⟩ sources.reverse).index ∧
    (documentSources Tree.parse ⟨'-', true, 0⟩ sources).reported =
      (documentSources Tree.parse ⟨'-', true, 0⟩ sources.reverse).reported ∧
    Record.Rearranged (documentSources Tree.parse ⟨'-', false, 0⟩ sources).index.records
      (documentSources Tree.parse ⟨'-', false, 0⟩ sources.reverse).index.records := by
  obtain ⟨sources, hsources⟩ : ∃ sources : List Source, sources =
      [⟨['x'], "<#macro a></#macro>".toList⟩, ⟨['y'], "</#macro>".toList⟩,
        ⟨['z'], "<#macro A></#macro>".toList⟩] := ⟨_, rfl⟩
  have haccepted : sources.map (Source.isAccepted Tree.parse) = [true, false, true] := by
    rw [hsources]
    decide +kernel
  have hnames : (sources.map Source.name).Nodup := by
    rw [hsources]
    decide
  have hperm : sources.Perm sources.reverse := (List.reverse_perm sources).symm
  obtain ⟨hindex, hreported⟩ :=
    (documentSources_of_perm Tree.parse ⟨'-', true, 0⟩ hperm).1 rfl hnames
  obtain ⟨hrecords, -⟩ := (documentSources_of_perm Tree.parse ⟨'-', false, 0⟩ hperm).2 rfl
  exact ⟨sources, hsources, haccepted, hperm, hnames, hindex, hreported, hrecords⟩

end TemplateDocs

import Mathlib.Data.List.Forall2
import TemplateDocs.Proofs.Index.StableSort

/-!
# Collections of many files

A collection keeps each record four times: in the list of its file, under its
category in the file, in the list of all files, and under its category there.
`Categories.Groups` says that categories hold the records of a list, each under
its own key and in the order of the list; it is kept by every record that is
filed, and by the sort of all lists at the end.
-/

namespace TemplateDocs

def Record.filedUnder (key : Text) (records : List Record) : List Record :=
  records.filter fun record => record.categoryKey = key

namespace Categories

/-- The categories are the listed ones, and each holds its records in their order. -/
structure Groups (categories : Categories) (listed : Text → Prop) (records : List Record) :
    Prop where
  mem_keys : ∀ key, key ∈ categories.keys ↔ listed key
  covers : ∀ record ∈ records, record.categoryKey ∈ categories.keys
  get?_eq : ∀ key, categories.get? key =
    if key ∈ categories.keys then some (Record.filedUnder key records) else none

variable {categories : Categories} {listed : Text → Prop} {records : List Record}

theorem groups_empty : Groups .empty (fun _ => False) [] := by
  refine ⟨?_, ?_, ?_⟩
  · simp
  · simp
  · simp

theorem Groups.congr (h : categories.Groups listed records) {other : Text → Prop}
    (hlisted : ∀ key, listed key ↔ other key) : categories.Groups other records :=
  ⟨fun key => (h.mem_keys key).trans (hlisted key), h.covers, h.get?_eq⟩

theorem Groups.getD_get? (h : categories.Groups listed records) (key : Text) :
    (categories.get? key).getD [] = Record.filedUnder key records := by
  rw [h.get?_eq key]
  by_cases hkey : key ∈ categories.keys
  · rw [if_pos hkey]
    rfl
  · have hnone : Record.filedUnder key records = [] := by
      rw [Record.filedUnder, List.filter_eq_nil_iff]
      intro record hrecord hfiled
      rw [decide_eq_true_eq] at hfiled
      exact hkey (hfiled ▸ h.covers record hrecord)
    rw [if_neg hkey, hnone]
    rfl

theorem Groups.update (h : categories.Groups listed records) (key : Text)
    {added : List Record} (hadded : ∀ record ∈ added, record.categoryKey = key) :
    Groups (categories.update key fun found => found.getD [] ++ added)
      (fun other => other = key ∨ listed other) (records ++ added) := by
  refine ⟨fun other => ?_, fun record hrecord => ?_, fun other => ?_⟩
  · rw [Keyed.mem_keys_update, h.mem_keys]
  · rw [Keyed.mem_keys_update]
    rcases List.mem_append.mp hrecord with hrecord | hrecord
    · exact .inr (h.covers record hrecord)
    · exact .inl (hadded record hrecord)
  · have happend : Record.filedUnder other (records ++ added) =
        Record.filedUnder other records ++ Record.filedUnder other added :=
      List.filter_append ..
    rw [Keyed.get?_update]
    by_cases hother : other = key
    · have hall : Record.filedUnder other added = added := by
        rw [Record.filedUnder, List.filter_eq_self]
        intro record hrecord
        rw [hadded record hrecord, hother]
        exact decide_eq_true rfl
      rw [if_pos hother, if_pos (Keyed.mem_keys_update.mpr (.inl hother)), happend, hall,
        ← hother, h.getD_get?]
    · have hnone : Record.filedUnder other added = [] := by
        rw [Record.filedUnder, List.filter_eq_nil_iff]
        intro record hrecord hfiled
        rw [decide_eq_true_eq, hadded record hrecord] at hfiled
        exact hother hfiled.symm
      rw [if_neg hother, h.get?_eq, happend, hnone, List.append_nil]
      simp only [Keyed.mem_keys_update, hother, false_or]

theorem Groups.ensure (h : categories.Groups listed records) (name : Text) :
    Groups (categories.ensure name) (fun key => key = name ∨ listed key) records := by
  have hupdate := @Groups.update categories listed records h name [] (by simp)
  simpa [Categories.ensure] using hupdate

theorem Groups.file (h : categories.Groups listed records) (record : Record) :
    Groups (categories.file record) (fun key => key = record.categoryKey ∨ listed key)
      (records ++ [record]) :=
  h.update record.categoryKey (by simp)

theorem Groups.foldl_ensure (h : categories.Groups listed records) (names : List Text) :
    Groups (names.foldl Categories.ensure categories)
      (fun key => listed key ∨ key ∈ names) records := by
  induction names generalizing categories listed with
  | nil => exact h.congr (by simp)
  | cons name names ih =>
      refine (ih (h.ensure name)).congr fun key => ?_
      rw [List.mem_cons, or_assoc, or_left_comm]

theorem Groups.foldl_file (h : categories.Groups listed records) (found : List Record) :
    Groups (found.foldl Categories.file categories)
      (fun key => listed key ∨ ∃ record ∈ found, record.categoryKey = key)
      (records ++ found) := by
  induction found generalizing categories listed records with
  | nil => simpa using h
  | cons record found ih =>
      have hrest := ih (h.file record)
      rw [List.append_assoc, List.singleton_append] at hrest
      refine hrest.congr fun key => ?_
      simp only [List.exists_mem_cons_iff]
      rw [or_assoc, or_left_comm, eq_comm]

theorem Groups.extend (h : categories.Groups listed records) (names : List Text)
    (found : List Record) :
    Groups (categories.extend names found)
      (fun key => listed key ∨ key ∈ names ∨ ∃ record ∈ found, record.categoryKey = key)
      (records ++ found) :=
  ((h.foldl_ensure names).foldl_file found).congr fun _ => or_assoc

theorem Groups.sorted (h : categories.Groups listed records) :
    categories.sorted.Groups listed (sortRecords records) := by
  have hkeys : categories.sorted.keys = categories.keys := Keyed.keys_mapValues ..
  have hperm := (Record.isStableSort_sortRecords records).perm
  refine ⟨fun key => ?_, fun record hrecord => ?_, fun key => ?_⟩
  · rw [hkeys, h.mem_keys]
  · rw [hkeys]
    exact h.covers record (hperm.mem_iff.mp hrecord)
  · have hsorted : sortRecords (Record.filedUnder key records) =
        Record.filedUnder key (sortRecords records) :=
      Record.sortRecords_filter records _
    rw [hkeys, Categories.sorted, Keyed.get?_mapValues, h.get?_eq, ← hsorted]
    split <;> rfl

end Categories

/-- What is added to a collection for one file. -/
structure Addition where
  filename : Text
  /-- The names of the regions of the file. -/
  categories : List Text
  found : FileRecords
deriving DecidableEq, Repr

namespace Addition

/-- The key is the name of a region of the file or the category of a record in it. -/
def Lists (addition : Addition) (key : Text) : Prop :=
  key ∈ addition.categories ∨
    ∃ record ∈ addition.found.records, record.categoryKey = key

def file (addition : Addition) : FileDoc :=
  ⟨addition.filename, addition.found.description, addition.found.records,
    Categories.extend .empty addition.categories addition.found.records⟩

theorem groups_file (addition : Addition) :
    addition.file.categories.Groups addition.Lists addition.file.records := by
  have hextend := Categories.groups_empty.extend addition.categories addition.found.records
  exact hextend.congr fun key => Iff.of_eq (false_or _)

end Addition

namespace Collection

def add (collection : Collection) (addition : Addition) : Collection :=
  collection.addFile addition.filename addition.categories addition.found

def ofAdditions (additions : List Addition) : Collection :=
  additions.foldl add .empty

/-- What a collection holds after a run of additions. -/
structure Holds (additions : List Addition) (collection : Collection) : Prop where
  records_eq : collection.records = additions.flatMap fun addition => addition.found.records
  files_eq : collection.files = additions.map Addition.file
  groups : collection.categories.Groups (fun key => ∃ addition ∈ additions, addition.Lists key)
    collection.records

theorem holds_empty : Holds [] .empty := by
  refine ⟨rfl, rfl, ?_⟩
  exact Categories.groups_empty.congr (by simp)

/-- One more file keeps all lists in step. -/
theorem Holds.add {additions : List Addition} {collection : Collection}
    (h : Holds additions collection) (addition : Addition) :
    Holds (additions ++ [addition]) (collection.add addition) := by
  refine ⟨?_, ?_, ?_⟩
  · rw [List.flatMap_append, List.flatMap_singleton, ← h.records_eq]
    rfl
  · rw [List.map_append, List.map_singleton, ← h.files_eq]
    rfl
  · have hextend := h.groups.extend addition.categories addition.found.records
    refine hextend.congr fun key => ?_
    simp only [List.mem_append, List.mem_singleton, or_and_right, exists_or, exists_eq_left]
    rfl

theorem Holds.foldl_add {done : List Addition} {collection : Collection}
    (h : Holds done collection) (additions : List Addition) :
    Holds (done ++ additions) (additions.foldl Collection.add collection) := by
  induction additions generalizing done collection with
  | nil => rwa [List.append_nil]
  | cons addition additions ih =>
      have hrest := ih (h.add addition)
      rwa [List.append_assoc, List.singleton_append] at hrest

theorem holds_ofAdditions (additions : List Addition) :
    Holds additions (ofAdditions additions) :=
  holds_empty.foldl_add additions

/--
After any run of additions the records of all files stand in the order in which
they came.  Once the collection is sorted, each file has its own records in stable
order, the list of all files is the stable sort of the lists of the files, and the
categories of each file and of all files hold the records of the sorted lists.
-/
theorem sorted_ofAdditions (additions : List Addition) :
    (ofAdditions additions).records =
        additions.flatMap (fun addition => addition.found.records) ∧
      List.Forall₂
        (fun addition file =>
          file.filename = addition.filename ∧
          file.description = addition.found.description ∧
          Record.IsStableSort addition.found.records file.records ∧
          file.categories.Groups addition.Lists file.records)
        additions (ofAdditions additions).sorted.files ∧
      Record.IsStableSort ((ofAdditions additions).sorted.files.flatMap FileDoc.records)
        (ofAdditions additions).sorted.records ∧
      (ofAdditions additions).sorted.categories.Groups
        (fun key => ∃ file ∈ (ofAdditions additions).sorted.files, key ∈ file.categories.keys)
        (ofAdditions additions).sorted.records := by
  have h := holds_ofAdditions additions
  have hfiles : (ofAdditions additions).sorted.files =
      additions.map fun addition => addition.file.sorted := by
    rw [sorted, h.files_eq, List.map_map]
    rfl
  refine ⟨h.records_eq, ?_, ?_, ?_⟩
  · rw [hfiles, List.forall₂_map_right_iff, List.forall₂_same]
    intro addition _
    exact ⟨rfl, rfl, Record.isStableSort_sortRecords _, addition.groups_file.sorted⟩
  · rw [hfiles, List.flatMap_map, sorted, h.records_eq]
    exact Record.isStableSort_flatMap additions fun addition => addition.found.records
  · refine h.groups.sorted.congr fun key => ?_
    rw [hfiles]
    have hkeys (addition : Addition) :
        key ∈ addition.file.sorted.categories.keys ↔ addition.Lists key :=
      addition.groups_file.sorted.mem_keys key
    simp only [List.mem_map, exists_exists_and_eq_and, hkeys]

end Collection

end TemplateDocs

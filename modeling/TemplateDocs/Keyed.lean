import TemplateDocs.Text.Basic

/-!
# Keyed collections

A keyed collection holds one value for each of its keys and lists them in
ascending order of the keys.  Two collections with the same entries are equal,
so a collection can be compared, printed and read back as it stands.

Main statements: `get?_update` says what an update does to every look-up, and
`mem_keys_update` what it does to the keys.
-/

namespace TemplateDocs

/-- Values filed under texts, each key once, in ascending order. -/
structure Keyed (α : Type) where
  entries : List (Text × α)
  ascending : (entries.map Prod.fst).Pairwise (· < ·)
deriving DecidableEq, Repr

namespace Keyed

variable {α β : Type}

theorem ext {a b : Keyed α} (h : a.entries = b.entries) : a = b := by
  cases a
  cases b
  cases h
  rfl

def empty : Keyed α :=
  ⟨[], List.Pairwise.nil⟩

instance : Inhabited (Keyed α) :=
  ⟨empty⟩

def keys (collection : Keyed α) : List Text :=
  collection.entries.map Prod.fst

def find? (key : Text) : List (Text × α) → Option α
  | [] => none
  | (k, value) :: rest => if key = k then some value else find? key rest

def get? (collection : Keyed α) (key : Text) : Option α :=
  find? key collection.entries

def isEmpty (collection : Keyed α) : Bool :=
  collection.entries.isEmpty

/-- Replace the value under `key`, or file one at its place in the order. -/
def updateEntries (key : Text) (change : Option α → α) :
    List (Text × α) → List (Text × α)
  | [] => [(key, change none)]
  | (k, value) :: rest =>
      if key < k then
        (key, change none) :: (k, value) :: rest
      else if key = k then
        (key, change (some value)) :: rest
      else
        (k, value) :: updateEntries key change rest

theorem mem_fst_updateEntries {key k : Text} {change : Option α → α}
    {entries : List (Text × α)} :
    k ∈ (updateEntries key change entries).map Prod.fst ↔
      k = key ∨ k ∈ entries.map Prod.fst := by
  induction entries with
  | nil => simp [updateEntries]
  | cons entry rest ih =>
      obtain ⟨k', value⟩ := entry
      simp only [updateEntries]
      split
      · simp
      · split
        · next heq => simp [heq]
        · simp only [List.map_cons, List.mem_cons, ih]
          grind

theorem ascending_updateEntries {key : Text} {change : Option α → α}
    {entries : List (Text × α)}
    (h : (entries.map Prod.fst).Pairwise (· < ·)) :
    ((updateEntries key change entries).map Prod.fst).Pairwise (· < ·) := by
  induction entries with
  | nil => simp [updateEntries]
  | cons entry rest ih =>
      obtain ⟨k', value⟩ := entry
      simp only [List.map_cons, List.pairwise_cons] at h
      obtain ⟨hfirst, hrest⟩ := h
      simp only [updateEntries]
      split
      · next hlt =>
          simp only [List.map_cons, List.pairwise_cons, List.mem_cons]
          refine ⟨?_, hfirst, hrest⟩
          rintro k (rfl | hk)
          · exact hlt
          · exact List.lt_trans hlt (hfirst k hk)
      · next hnot =>
          split
          · next heq =>
              subst heq
              exact List.pairwise_cons.mpr ⟨hfirst, hrest⟩
          · next hne =>
              have hlt : k' < key :=
                Classical.byContradiction fun hnot' =>
                  hne (List.le_antisymm (List.not_lt.mp hnot') (List.not_lt.mp hnot))
              simp only [List.map_cons, List.pairwise_cons]
              refine ⟨fun k hk => ?_, ih hrest⟩
              rcases mem_fst_updateEntries.mp hk with rfl | hk
              · exact hlt
              · exact hfirst k hk

def update (collection : Keyed α) (key : Text) (change : Option α → α) : Keyed α :=
  ⟨updateEntries key change collection.entries,
    ascending_updateEntries collection.ascending⟩

/-- File a value under `key`; an earlier one is dropped. -/
def insert (collection : Keyed α) (key : Text) (value : α) : Keyed α :=
  collection.update key fun _ => value

def mapValues (change : α → β) (collection : Keyed α) : Keyed β :=
  ⟨collection.entries.map fun entry => (entry.1, change entry.2), by
    simpa [Function.comp_def] using collection.ascending⟩

@[simp] theorem keys_empty : (empty : Keyed α).keys = [] :=
  rfl

@[simp] theorem get?_empty (key : Text) : (empty : Keyed α).get? key = none :=
  rfl

theorem mem_keys_update {collection : Keyed α} {key k : Text}
    {change : Option α → α} :
    k ∈ (collection.update key change).keys ↔ k = key ∨ k ∈ collection.keys :=
  mem_fst_updateEntries

theorem find?_eq_none_of_lt {key : Text} {entries : List (Text × α)}
    (h : ∀ k ∈ entries.map Prod.fst, key < k) : find? key entries = none := by
  induction entries with
  | nil => rfl
  | cons entry rest ih =>
      obtain ⟨k, value⟩ := entry
      have hlt : key < k := h k (by simp)
      have hne : key ≠ k := fun heq => List.lt_irrefl k (heq ▸ hlt)
      simp only [find?, hne, if_false]
      exact ih fun j hj => h j (by simp [hj])

theorem find?_updateEntries {key k : Text} {change : Option α → α}
    {entries : List (Text × α)}
    (h : (entries.map Prod.fst).Pairwise (· < ·)) :
    find? k (updateEntries key change entries) =
      if k = key then some (change (find? key entries)) else find? k entries := by
  induction entries with
  | nil => simp [updateEntries, find?]
  | cons entry rest ih =>
      obtain ⟨k', value⟩ := entry
      simp only [List.map_cons, List.pairwise_cons] at h
      obtain ⟨hfirst, hrest⟩ := h
      simp only [updateEntries]
      split
      · next hlt =>
          have hnone : find? key ((k', value) :: rest) = none := by
            apply find?_eq_none_of_lt
            intro j hj
            simp only [List.map_cons, List.mem_cons] at hj
            rcases hj with rfl | hj
            · exact hlt
            · exact List.lt_trans hlt (hfirst j hj)
          rw [hnone, find?]
      · split
        · next heq =>
            subst heq
            by_cases hk : k = key <;> simp [find?, hk]
        · next hne =>
            by_cases hk : k = key
            · subst hk
              simp [find?, hne, ih hrest]
            · simp [find?, ih hrest, hk]

/-- An update changes the look-up of its own key and of no other. -/
theorem get?_update (collection : Keyed α) (key k : Text) (change : Option α → α) :
    (collection.update key change).get? k =
      if k = key then some (change (collection.get? key)) else collection.get? k :=
  find?_updateEntries collection.ascending

@[simp] theorem keys_mapValues (change : α → β) (collection : Keyed α) :
    (collection.mapValues change).keys = collection.keys := by
  simp [keys, mapValues, Function.comp_def]

theorem get?_mapValues (change : α → β) (collection : Keyed α) (key : Text) :
    (collection.mapValues change).get? key = (collection.get? key).map change := by
  obtain ⟨entries, ascending⟩ := collection
  simp only [get?, mapValues]
  clear ascending
  induction entries with
  | nil => rfl
  | cons entry rest ih =>
      by_cases h : key = entry.1 <;> simp_all [find?]

end Keyed

end TemplateDocs

import TemplateDocs.Disk.Basic
import TemplateDocs.Proofs.Index.Isolation

/-!
# What becomes of every path

A path is lost at one of two places, when it is read or when its text is parsed, and
otherwise ends up as a file of the index (`accounts_document`).  The failures of the
index are as many as the paths that are lost (`length_failures_document`).
-/

namespace TemplateDocs

theorem forall₂_filter_filterMap {α β : Type} {R : α → β → Prop} {p : α → Bool}
    {f : α → Option β}
    (h : ∀ a, (∃ b, f a = some b ∧ p a = true ∧ R a b) ∨ f a = none ∧ p a = false)
    (items : List α) : List.Forall₂ R (items.filter p) (items.filterMap f) := by
  induction items with
  | nil => exact .nil
  | cons a rest ih =>
      rcases h a with ⟨b, hb, hchosen, hrel⟩ | ⟨hnone, hleft⟩
      · rw [List.filter_cons_of_pos hchosen, List.filterMap_cons_some hb]
        exact .cons hrel ih
      · rw [List.filter_cons_of_neg (by simp [hleft]), List.filterMap_cons_none hnone]
        exact ih

namespace Source

def DocumentedBy (marker : Char) (source : Source) (file : FileDoc) : Prop :=
  ∃ addition, source.addition? Tree.parse marker = some addition ∧ file = addition.file.sorted

theorem forall₂_documentedBy (marker : Char) (sources : List Source) :
    List.Forall₂ (DocumentedBy marker) (sources.filter (isAccepted Tree.parse))
      ((sources.filterMap (addition? Tree.parse marker)).map fun addition =>
        addition.file.sorted) := by
  rw [List.map_filterMap]
  apply forall₂_filter_filterMap
  intro source
  rcases source.document_cases Tree.parse marker with ⟨findings, hdocument, haccepted⟩ |
      ⟨fault, hdocument, -, haccepted⟩
  · have hadded : source.addition? Tree.parse marker =
        some ⟨source.name, findings.regions.categories, findings.found⟩ := by
      rw [addition?, hdocument]
      rfl
    exact .inl ⟨_, by rw [hadded]; rfl, haccepted, _, hadded, rfl⟩
  · have hnone : source.addition? Tree.parse marker = none := by
      rw [addition?, hdocument]
      rfl
    exact .inr ⟨by rw [hnone]; rfl, haccepted⟩

end Source

theorem processingOrder_perm (options : Options) (sources : List Source) :
    (processingOrder options sources).Perm sources := by
  unfold processingOrder
  split
  · exact List.mergeSort_perm sources _
  · exact .refl sources

theorem length_records_documentSources (parser : TreeParser) (options : Options)
    (sources : List Source) :
    (documentSources parser options sources).index.records.length =
      ((documentSources parser options sources).index.files.flatMap FileDoc.records).length := by
  obtain ⟨hfiles, -, hrecords⟩ := documentSources_eq_sorted parser options sources
  have hholds := Collection.holds_ofAdditions
    ((processingOrder options sources).filterMap (Source.addition? parser options.marker))
  have hsorted (records : List Record) : (sortRecords records).length = records.length :=
    List.length_mergeSort records
  rw [hfiles, hrecords]
  unfold Collection.sorted
  rw [hsorted, hholds.records_eq, hholds.files_eq, List.length_flatMap, List.length_flatMap,
    List.map_map, List.map_map]
  congr 2
  funext addition
  exact (hsorted addition.found.records).symm

namespace Disk

/-- The path leads to a file of text within the limit. -/
inductive Reads (disk : Disk) (limit : Nat) (path : Text) : Source → Prop where
  | file {bytes : ByteArray} {text : String} (h : disk path = .ok (.file bytes))
      (hsize : bytes.size ≤ limit) (htext : String.fromUTF8? bytes = some text) :
      Reads disk limit path ⟨Path.displayName path, text.toList⟩

/-- Why a path cannot be read. -/
inductive Refuses (disk : Disk) (limit : Nat) (path : Text) : Fault → Prop where
  | missing {cause : ReadFault} (h : disk path = .error cause) :
      Refuses disk limit path (.unreadable cause)
  | tooLarge {entry : Entry} (h : disk path = .ok entry) (hsize : limit < entry.size) :
      Refuses disk limit path (.tooLarge path entry.size limit)
  | directory {size : Nat} {names : List Text} (h : disk path = .ok (.directory size names))
      (hsize : size ≤ limit) : Refuses disk limit path (.unreadable .isDirectory)
  | notUtf8 {bytes : ByteArray} (h : disk path = .ok (.file bytes)) (hsize : bytes.size ≤ limit)
      (htext : String.fromUTF8? bytes = none) : Refuses disk limit path (.unreadable .notUtf8)

section Paths

variable {disk : Disk} {limit : Nat} {path : Text}

variable (disk limit path) in
theorem readSource_cases :
    (∃ source, disk.readSource limit path = .ok source ∧ disk.Reads limit path source) ∨
      ∃ fault, disk.readSource limit path = .error fault ∧ disk.Refuses limit path fault := by
  unfold readSource
  cases hpath : disk path with
  | error cause => exact .inr ⟨_, rfl, .missing hpath⟩
  | ok entry =>
      by_cases hsize : limit < entry.size
      · simp only [hsize, if_true]
        exact .inr ⟨_, rfl, .tooLarge hpath hsize⟩
      · have hle : entry.size ≤ limit := Nat.not_lt.mp hsize
        simp only [hsize, if_false]
        cases entry with
        | directory size names => exact .inr ⟨_, rfl, .directory hpath hle⟩
        | file bytes =>
            cases htext : String.fromUTF8? bytes with
            | none =>
                simp only [contentOf, htext]
                exact .inr ⟨_, rfl, .notUtf8 hpath hle htext⟩
            | some text =>
                simp only [contentOf, htext]
                exact .inl ⟨_, rfl, .file hpath hle htext⟩

theorem Reads.readSource_eq {source : Source} (h : disk.Reads limit path source) :
    disk.readSource limit path = .ok source := by
  obtain ⟨hpath, hsize, htext⟩ := h
  simp [readSource, hpath, Entry.size, Nat.not_lt.mpr hsize, contentOf, htext]

/-- The path is readable, within the limit, and its text has a tree. -/
def Documentable (disk : Disk) (limit : Nat) (path : Text) : Prop :=
  ∃ source tree, disk.Reads limit path source ∧ Tree.parse source.content = .ok tree

theorem documentable_iff :
    (disk.readSource limit path).toOption.any (Source.isAccepted Tree.parse) = true ↔
      disk.Documentable limit path := by
  have haccepted (source : Source) : source.isAccepted Tree.parse = true ↔
      ∃ tree, Tree.parse source.content = .ok tree := by
    unfold Source.isAccepted
    cases Tree.parse source.content <;> simp [Except.isOk, Except.toBool]
  constructor
  · intro h
    rcases readSource_cases disk limit path with ⟨source, hread, hreads⟩ | ⟨fault, hread, -⟩
    · rw [hread] at h
      obtain ⟨tree, htree⟩ := (haccepted source).mp h
      exact ⟨source, tree, hreads, htree⟩
    · rw [hread] at h
      cases h
  · rintro ⟨source, tree, hreads, htree⟩
    rw [hreads.readSource_eq]
    exact (haccepted source).mpr ⟨tree, htree⟩

instance : Decidable (disk.Documentable limit path) :=
  decidable_of_iff _ documentable_iff

end Paths

def isReadable (disk : Disk) (limit : Nat) (path : Text) : Bool :=
  (disk.readSource limit path).isOk

/-- What an index holds of a list of paths. -/
structure Accounts (disk : Disk) (options : Options) (paths : List Text) (index : Index) :
    Prop where
  /-- Every path is a file or a failure. -/
  total : index.files.length + index.failures.length = paths.length
  /-- Paths that cannot be read come first, then sources without a tree; the others are files. -/
  split : ∃ sources unread unparsed,
    List.Forall₂ (disk.Reads options.maxFileSize)
        (paths.filter (disk.isReadable options.maxFileSize)) sources ∧
      index.failures = unread ++ unparsed ∧
      List.Forall₂
        (fun path failure => ∃ fault, disk.Refuses options.maxFileSize path fault ∧
          failure = ⟨Path.displayName path, fault.message⟩)
        (paths.filter fun path => !disk.isReadable options.maxFileSize path) unread ∧
      List.Forall₂ (Source.FailsWith Tree.parse)
        ((processingOrder options sources).filter fun source => !source.isAccepted Tree.parse)
        unparsed ∧
      List.Forall₂ (Source.DocumentedBy options.marker)
        ((processingOrder options sources).filter (Source.isAccepted Tree.parse)) index.files

variable (disk : Disk) (limit : Nat)

theorem forall₂_reads (paths : List Text) :
    List.Forall₂ (disk.Reads limit) (paths.filter (disk.isReadable limit))
      (disk.sources limit paths) := by
  apply forall₂_filter_filterMap
  intro path
  unfold isReadable
  rcases readSource_cases disk limit path with ⟨source, hread, hreads⟩ | ⟨fault, hread, -⟩
  · exact .inl ⟨source, by rw [hread]; rfl, by rw [hread]; rfl, hreads⟩
  · exact .inr ⟨by rw [hread]; rfl, by rw [hread]; rfl⟩

theorem forall₂_refuses (paths : List Text) :
    List.Forall₂
      (fun path failure => ∃ fault, disk.Refuses limit path fault ∧
        failure = (⟨Path.displayName path, fault.message⟩ : Failure))
      (paths.filter fun path => !disk.isReadable limit path)
      ((disk.unreadable limit paths).map fun entry =>
        ⟨Path.displayName entry.1, entry.2.message⟩) := by
  rw [unreadable, List.map_filterMap]
  apply forall₂_filter_filterMap
  intro path
  unfold isReadable
  rcases readSource_cases disk limit path with ⟨source, hread, -⟩ | ⟨fault, hread, hrefuses⟩
  · exact .inr ⟨by rw [hread]; rfl, by rw [hread]; rfl⟩
  · exact .inl ⟨_, by rw [hread]; rfl, by rw [hread]; rfl, fault, hrefuses, rfl⟩

theorem length_sources_add_unreadable (paths : List Text) :
    (disk.sources limit paths).length + (disk.unreadable limit paths).length = paths.length := by
  have hsources := (disk.forall₂_reads limit paths).length_eq
  have hunreadable := (disk.forall₂_refuses limit paths).length_eq
  have hpaths := List.length_eq_length_filter_add (l := paths) (disk.isReadable limit)
  rw [List.length_map] at hunreadable
  omega

/-- A path is without documentation when it cannot be read or its text has no tree. -/
theorem countP_not_documentable (paths : List Text) :
    paths.countP (fun path => ¬ disk.Documentable limit path) =
      (disk.unreadable limit paths).length +
        ((disk.sources limit paths).filter fun source =>
          !source.isAccepted Tree.parse).length := by
  induction paths with
  | nil => rfl
  | cons path rest ih =>
      rw [List.countP_cons, ih]
      simp only [← documentable_iff, unreadable, sources, List.filterMap_cons]
      rcases readSource_cases disk limit path with ⟨source, hread, -⟩ | ⟨fault, hread, -⟩
      · cases haccepted : source.isAccepted Tree.parse with
        | true => simp [hread, Except.toOption, haccepted]
        | false =>
            simp [hread, Except.toOption, haccepted]
            omega
      · simp [hread, Except.toOption]
        omega

variable (options : Options)

theorem failures_document (paths : List Text) : ∃ unparsed,
    (disk.document options paths).index.failures =
        (disk.unreadable options.maxFileSize paths).map
          (fun entry => ⟨Path.displayName entry.1, entry.2.message⟩) ++ unparsed ∧
      List.Forall₂ (Source.FailsWith Tree.parse)
        ((processingOrder options (disk.sources options.maxFileSize paths)).filter fun source =>
          !source.isAccepted Tree.parse) unparsed := by
  obtain ⟨unparsed, hfailures, hfails⟩ :=
    Progress.failures_foldl_step Tree.parse options.marker .start
      (processingOrder options (disk.sources options.maxFileSize paths))
  refine ⟨unparsed, ?_, hfails⟩
  unfold document documentSources
  simp only [Progress.index, hfailures]
  rfl

theorem length_failures_document (paths : List Text) :
    (disk.document options paths).index.failures.length =
      paths.countP fun path => ¬ disk.Documentable options.maxFileSize path := by
  obtain ⟨unparsed, hfailures, hfails⟩ := disk.failures_document options paths
  have hperm := processingOrder_perm options (disk.sources options.maxFileSize paths)
  have hunparsed := (hperm.filter fun source => !source.isAccepted Tree.parse).length_eq
  rw [hfails.length_eq] at hunparsed
  rw [hfailures, List.length_append, List.length_map, hunparsed, countP_not_documentable]

theorem accounts_document (paths : List Text) :
    disk.Accounts options paths (disk.document options paths).index := by
  let sources := disk.sources options.maxFileSize paths
  let ordered := processingOrder options sources
  obtain ⟨unparsed, hfailures, hfails⟩ := disk.failures_document options paths
  have hfiles : List.Forall₂ (Source.DocumentedBy options.marker)
      (ordered.filter (Source.isAccepted Tree.parse))
      (disk.document options paths).index.files := by
    obtain ⟨hsorted, -, -⟩ := documentSources_eq_sorted Tree.parse options sources
    have hholds := Collection.holds_ofAdditions
      (ordered.filterMap (Source.addition? Tree.parse options.marker))
    have hdocumented := Source.forall₂_documentedBy options.marker ordered
    have hindex : (disk.document options paths).index.files =
        (documentSources Tree.parse options sources).index.files := rfl
    rw [hindex, hsorted, Collection.sorted, hholds.files_eq, List.map_map]
    exact hdocumented
  refine ⟨?_, sources, _, unparsed, disk.forall₂_reads _ paths, hfailures,
    disk.forall₂_refuses _ paths, hfails, hfiles⟩
  have hpaths : sources.length + (disk.unreadable options.maxFileSize paths).length =
      paths.length := disk.length_sources_add_unreadable options.maxFileSize paths
  have hordered : ordered.length = sources.length := length_processingOrder options sources
  have hsplit := List.length_eq_length_filter_add (l := ordered) (Source.isAccepted Tree.parse)
  have hdone := hfiles.length_eq
  have hlost : (ordered.filter fun source => !source.isAccepted Tree.parse).length =
      unparsed.length := hfails.length_eq
  rw [hfailures, List.length_append, List.length_map]
  omega

end Disk

end TemplateDocs

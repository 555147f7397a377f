import Mathlib.Data.List.Forall2
import TemplateDocs.Index.Document
import TemplateDocs.Proofs.Index.Aggregation

/-!
# Failing sources

A source that the parser refuses leaves its failure behind and nothing else.  The
run over all sources and the run over the accepted ones go side by side
(`Agrees.foldl_step`), and both process the sources they share in the same order
(`processingOrder_filter`).
-/

namespace TemplateDocs

namespace Source

def isAccepted (parser : TreeParser) (source : Source) : Bool :=
  (parser source.content).isOk

/-- The failure is that of the source: its own name, and the text of its fault. -/
def FailsWith (parser : TreeParser) (source : Source) (failure : Failure) : Prop :=
  ∃ fault, parser source.content = .error fault ∧ failure = ⟨source.name, fault.message⟩

theorem document_cases (parser : TreeParser) (marker : Char) (source : Source) :
    (∃ findings, source.document parser marker = .ok findings ∧
        source.isAccepted parser = true) ∨
      ∃ fault, source.document parser marker = .error fault ∧
        parser source.content = .error fault ∧ source.isAccepted parser = false := by
  cases hparsed : parser source.content with
  | ok tree =>
      refine .inl ⟨Findings.ofTree marker source.name tree, ?_, ?_⟩
      · rw [document, hparsed]
        rfl
      · rw [isAccepted, hparsed]
        rfl
  | error fault =>
      refine .inr ⟨fault, ?_, rfl, ?_⟩
      · rw [document, hparsed]
        rfl
      · rw [isAccepted, hparsed]
        rfl

/-- What a source adds to a collection: nothing, when the parser refuses it. -/
def addition? (parser : TreeParser) (marker : Char) (source : Source) : Option Addition :=
  (source.document parser marker).toOption.map fun findings =>
    ⟨source.name, findings.regions.categories, findings.found⟩

end Source

namespace Progress

def reported (progress : Progress) : List Diagnostic :=
  progress.events.filterMap Event.diagnostic?

theorem filterMap_noticed (file : Text) (diagnostics : List Diagnostic) :
    (diagnostics.map fun item => Event.noticed file item).filterMap Event.diagnostic? =
      diagnostics := by
  rw [List.filterMap_map]
  exact List.filterMap_some

theorem filterMap_eventsAt (progress : Progress) (source : Source) :
    (progress.eventsAt source).filterMap Event.diagnostic? = progress.reported := by
  rw [eventsAt, List.filterMap_append]
  exact List.append_nil _

/-! ## One source -/

section Step

variable {parser : TreeParser} {marker : Char} {source : Source}

theorem reported_step_of_ok {findings : Findings}
    (h : source.document parser marker = .ok findings) (progress : Progress) :
    (progress.step parser marker source).reported =
      progress.reported ++ findings.regions.diagnostics := by
  rw [step, h, reported, add, List.filterMap_append, filterMap_eventsAt]
  congr 1
  exact filterMap_noticed source.name findings.regions.diagnostics

theorem reported_step_of_error {fault : Fault}
    (h : source.document parser marker = .error fault) (progress : Progress) :
    (progress.step parser marker source).reported = progress.reported := by
  rw [step, h, reported, add, List.filterMap_append, filterMap_eventsAt]
  exact List.append_nil _

/-- Two runs that differ in their failures only. -/
structure Agrees (first second : Progress) : Prop where
  collection : first.collection = second.collection
  diagnostics : first.diagnostics = second.diagnostics
  reported : first.reported = second.reported

theorem Agrees.step {first second : Progress} (h : Agrees first second) (source : Source) :
    Agrees (first.step parser marker source) (second.step parser marker source) := by
  rcases source.document_cases parser marker with ⟨findings, hdocument, -⟩ |
      ⟨fault, hdocument, -⟩
  · refine ⟨?_, ?_, ?_⟩
    · simp only [Progress.step, hdocument, add, h.collection]
    · simp only [Progress.step, hdocument, add, h.diagnostics]
    · rw [reported_step_of_ok hdocument, reported_step_of_ok hdocument, h.reported]
  · refine ⟨?_, ?_, ?_⟩
    · simp only [Progress.step, hdocument, add, h.collection]
    · simp only [Progress.step, hdocument, add, h.diagnostics]
    · rw [reported_step_of_error hdocument, reported_step_of_error hdocument, h.reported]

theorem agrees_step_of_refused (h : source.isAccepted parser = false) (progress : Progress) :
    Agrees (progress.step parser marker source) progress := by
  rcases source.document_cases parser marker with ⟨findings, -, haccepted⟩ |
      ⟨fault, hdocument, -⟩
  · rw [h] at haccepted
    cases haccepted
  · refine ⟨?_, ?_, reported_step_of_error hdocument progress⟩
    · rw [Progress.step, hdocument, add]
    · rw [Progress.step, hdocument, add]

end Step

/-! ## A run over many sources -/

variable (parser : TreeParser) (marker : Char)

theorem Agrees.trans {first second third : Progress} (h : Agrees first second)
    (h' : Agrees second third) : Agrees first third :=
  ⟨h.collection.trans h'.collection, h.diagnostics.trans h'.diagnostics,
    h.reported.trans h'.reported⟩

/-- A run over all sources goes along with a run over the accepted ones. -/
theorem Agrees.foldl_step {first second : Progress} (h : Agrees first second)
    (sources : List Source) :
    Agrees (sources.foldl (Progress.step parser marker) first)
      ((sources.filter (Source.isAccepted parser)).foldl (Progress.step parser marker)
        second) := by
  induction sources generalizing first second with
  | nil => exact h
  | cons source rest ih =>
      cases haccepted : source.isAccepted parser with
      | true =>
          rw [List.filter_cons_of_pos haccepted]
          exact ih (h.step source)
      | false =>
          have hnot : ¬ source.isAccepted parser = true := by simp [haccepted]
          rw [List.filter_cons_of_neg hnot]
          exact ih ((agrees_step_of_refused haccepted first).trans h)

theorem collection_foldl_step (progress : Progress) (sources : List Source) :
    (sources.foldl (step parser marker) progress).collection =
      (sources.filterMap (Source.addition? parser marker)).foldl Collection.add
        progress.collection := by
  induction sources generalizing progress with
  | nil => rfl
  | cons source rest ih =>
      rw [List.foldl_cons, ih, List.filterMap_cons]
      rcases source.document_cases parser marker with ⟨findings, hdocument, -⟩ |
          ⟨fault, hdocument, -⟩
      · simp only [Source.addition?, hdocument, Except.toOption, Option.map_some, List.foldl_cons]
        rw [step, hdocument]
        rfl
      · simp only [Source.addition?, hdocument, Except.toOption, Option.map_none]
        rw [step, hdocument]
        rfl

theorem failures_foldl_step (progress : Progress) (sources : List Source) :
    ∃ added, (sources.foldl (step parser marker) progress).failures =
        progress.failures ++ added ∧
      List.Forall₂ (Source.FailsWith parser)
        (sources.filter fun source => !source.isAccepted parser) added := by
  induction sources generalizing progress with
  | nil => exact ⟨[], (List.append_nil _).symm, .nil⟩
  | cons source rest ih =>
      obtain ⟨added, hadded, hfails⟩ := ih (progress.step parser marker source)
      rw [List.foldl_cons, hadded]
      rcases source.document_cases parser marker with ⟨findings, hdocument, haccepted⟩ |
          ⟨fault, hdocument, hparsed, haccepted⟩
      · refine ⟨added, by rw [step, hdocument, add], ?_⟩
        rw [List.filter_cons_of_neg (by simp [haccepted])]
        exact hfails
      · refine ⟨⟨source.name, fault.message⟩ :: added, ?_, ?_⟩
        · rw [step, hdocument, add, List.append_assoc, List.singleton_append]
        · rw [List.filter_cons_of_pos (by simp [haccepted])]
          exact .cons ⟨fault, hparsed, rfl⟩ hfails

theorem length_foldl_step (progress : Progress) (sources : List Source) :
    (sources.foldl (step parser marker) progress).collection.files.length +
        (sources.foldl (step parser marker) progress).failures.length =
      progress.collection.files.length + progress.failures.length + sources.length := by
  induction sources generalizing progress with
  | nil => rfl
  | cons source rest ih =>
      rw [List.foldl_cons, ih, List.length_cons]
      have hstep : (progress.step parser marker source).collection.files.length +
          (progress.step parser marker source).failures.length =
            progress.collection.files.length + progress.failures.length + 1 := by
        rcases source.document_cases parser marker with ⟨findings, hdocument, -⟩ |
            ⟨fault, hdocument, -⟩
        · rw [step, hdocument, add]
          simp only [Collection.addFile, List.length_append, List.length_singleton]
          omega
        · rw [step, hdocument, add]
          simp only [List.length_append, List.length_singleton]
          omega
      omega

theorem reported_foldl_step (progress : Progress)
    (h : progress.reported = progress.diagnostics.map FileDiagnostic.diagnostic)
    (sources : List Source) :
    (sources.foldl (step parser marker) progress).reported =
      (sources.foldl (step parser marker) progress).diagnostics.map
        FileDiagnostic.diagnostic := by
  induction sources generalizing progress with
  | nil => exact h
  | cons source rest ih =>
      apply ih
      rcases source.document_cases parser marker with ⟨findings, hdocument, -⟩ |
          ⟨fault, hdocument, -⟩
      · have hnames : ((findings.regions.diagnostics.map fun item =>
            (⟨source.name, item⟩ : FileDiagnostic)).map FileDiagnostic.diagnostic) =
              findings.regions.diagnostics := by
          rw [List.map_map]
          exact List.map_id _
        rw [reported_step_of_ok hdocument, h, step, hdocument, add, List.map_append, hnames]
      · rw [reported_step_of_error hdocument, h, step, hdocument, add]

end Progress

theorem documentSources_eq_sorted (parser : TreeParser) (options : Options)
    (sources : List Source) :
    let added := (processingOrder options sources).filterMap
      (Source.addition? parser options.marker)
    (documentSources parser options sources).index.files =
        (Collection.ofAdditions added).sorted.files ∧
      (documentSources parser options sources).index.categories =
        (Collection.ofAdditions added).sorted.categories ∧
      (documentSources parser options sources).index.records =
        (Collection.ofAdditions added).sorted.records := by
  intro added
  have hrun := Progress.collection_foldl_step parser options.marker .start
    (processingOrder options sources)
  simp only [documentSources, Progress.index, hrun]
  exact ⟨rfl, rfl, rfl⟩

theorem processingOrder_filter (options : Options) (p : Source → Bool)
    (sources : List Source) :
    processingOrder options (sources.filter p) = (processingOrder options sources).filter p := by
  unfold processingOrder
  split
  · symm
    apply filter_mergeSort
    · intro a b c hab hbc
      exact Text.le_trans hab hbc
    · intro a b
      exact Text.le_total a.name b.name
  · rfl

theorem length_processingOrder (options : Options) (sources : List Source) :
    (processingOrder options sources).length = sources.length := by
  unfold processingOrder
  split
  · exact List.length_mergeSort sources
  · rfl

/--
A source that the parser refuses leaves its failure behind and nothing else: without
such sources the index and the reported diagnostics are the same.
-/
theorem documentSources_filter_accepted (parser : TreeParser) (options : Options)
    (sources : List Source) :
    let outcome := documentSources parser options sources
    let accepted := documentSources parser options
      (sources.filter fun source => source.isAccepted parser)
    outcome.index.files = accepted.index.files ∧
      outcome.index.categories = accepted.index.categories ∧
      outcome.index.records = accepted.index.records ∧
      outcome.index.diagnostics = accepted.index.diagnostics ∧
      outcome.reported = accepted.reported ∧
      List.Forall₂ (Source.FailsWith parser)
        ((processingOrder options sources).filter fun source => !source.isAccepted parser)
        outcome.index.failures ∧
      outcome.index.files.length + outcome.index.failures.length = sources.length ∧
      outcome.reported = outcome.index.diagnostics.map FileDiagnostic.diagnostic := by
  intro outcome accepted
  let ordered := processingOrder options sources
  let progress := ordered.foldl (Progress.step parser options.marker) .start
  let chosen := (ordered.filter fun source => source.isAccepted parser).foldl
    (Progress.step parser options.marker) .start
  have haccepted : accepted = ⟨chosen.index, chosen.events⟩ := by
    simp only [accepted, documentSources, processingOrder_filter, chosen, ordered]
  have hagrees : Progress.Agrees progress chosen :=
    Progress.Agrees.foldl_step parser options.marker ⟨rfl, rfl, rfl⟩ ordered
  obtain ⟨failures, hfailures, hfails⟩ :=
    Progress.failures_foldl_step parser options.marker .start ordered
  have hlength := Progress.length_foldl_step parser options.marker .start ordered
  have hsorted : progress.collection.sorted = chosen.collection.sorted := by
    rw [hagrees.collection]
  rw [haccepted]
  refine ⟨congrArg Collection.files hsorted, congrArg Collection.categories hsorted,
    congrArg Collection.records hsorted, hagrees.diagnostics, hagrees.reported, ?_, ?_, ?_⟩
  · have hindex : outcome.index.failures = failures := hfailures
    rw [hindex]
    exact hfails
  · have hfiles : outcome.index.files.length = progress.collection.files.length :=
      List.length_map ..
    have hcount : progress.collection.files.length + progress.failures.length =
        0 + 0 + ordered.length := hlength
    have hordered : ordered.length = sources.length := length_processingOrder options sources
    calc outcome.index.files.length + outcome.index.failures.length
        = progress.collection.files.length + progress.failures.length := by rw [hfiles]; rfl
      _ = sources.length := by rw [hcount, hordered, Nat.add_zero, Nat.zero_add]
  · exact Progress.reported_foldl_step parser options.marker .start rfl ordered

end TemplateDocs

import TemplateDocs.Index.Basic
import TemplateDocs.Options
import TemplateDocs.Tree.Parse

/-!
# Documenting sources

Each source is parsed, its regions are resolved and its definitions collected.  A
source that cannot be parsed is recorded as a failure and leaves nothing else
behind.  The parser is a parameter, so that nothing here rests on how a source
becomes a tree.
-/

namespace TemplateDocs

/-- How a source becomes a tree. -/
abbrev TreeParser := Text → Except Fault Tree

structure Source where
  /-- The name recorded with every definition of the source. -/
  name : Text
  content : Text
deriving DecidableEq, Repr

structure Findings where
  regions : Regions
  found : FileRecords
deriving DecidableEq, Repr

def Findings.ofTree (marker : Char) (filename : Text) (tree : Tree) : Findings :=
  let regions := Regions.ofTree marker tree
  ⟨regions, FileRecords.collect marker tree regions.regions filename⟩

def Source.document (parser : TreeParser) (marker : Char) (source : Source) :
    Except Fault Findings :=
  (parser source.content).map (Findings.ofTree marker source.name)

inductive Event where
  /-- A path could not be read. -/
  | unread (path message : Text)
  | started (file : Text) (bytes : Nat)
  | documented (file : Text) (definitions categories : Nat)
  /-- A source could not be parsed. -/
  | skipped (file message : Text)
  /-- A marker of a file is at fault. -/
  | noticed (file : Text) (diagnostic : Diagnostic)
deriving DecidableEq, Repr

def Event.diagnostic? : Event → Option Diagnostic
  | noticed _ diagnostic => some diagnostic
  | _ => none

structure Progress where
  collection : Collection
  failures : List Failure
  diagnostics : List FileDiagnostic
  /-- What has happened, the earliest first. -/
  events : List Event
deriving DecidableEq, Repr

namespace Progress

def start : Progress :=
  ⟨.empty, [], [], []⟩

def eventsAt (progress : Progress) (source : Source) : List Event :=
  progress.events ++ [.started source.name (Text.byteSize source.content)]

def add (progress : Progress) (source : Source) : Except Fault Findings → Progress
  | .ok findings =>
      let noticed := findings.regions.diagnostics
      let categories := findings.regions.categories
      let counted :=
        .documented source.name findings.found.records.length categories.length
      { progress with
        collection := progress.collection.addFile source.name categories findings.found
        diagnostics := progress.diagnostics ++ noticed.map fun item => ⟨source.name, item⟩
        events :=
          progress.eventsAt source ++
            counted :: noticed.map fun item => .noticed source.name item }
  | .error fault =>
      { progress with
        failures := progress.failures ++ [⟨source.name, fault.message⟩]
        events := progress.eventsAt source ++ [.skipped source.name fault.message] }

def step (parser : TreeParser) (marker : Char) (progress : Progress) (source : Source) :
    Progress :=
  progress.add source (source.document parser marker)

def index (progress : Progress) : Index :=
  let collection := progress.collection.sorted
  ⟨collection.files, collection.categories, collection.records, progress.failures,
    progress.diagnostics⟩

end Progress

/-- An index and what happened while it was made. -/
structure Outcome where
  index : Index
  events : List Event
deriving DecidableEq, Repr

def Outcome.reported (outcome : Outcome) : List Diagnostic :=
  outcome.events.filterMap Event.diagnostic?

def processingOrder (options : Options) (sources : List Source) : List Source :=
  if options.sortFiles then
    sources.mergeSort fun first second => Text.le first.name second.name
  else
    sources

def documentSources (parser : TreeParser) (options : Options) (sources : List Source) :
    Outcome :=
  let progress :=
    (processingOrder options sources).foldl (Progress.step parser options.marker) .start
  ⟨progress.index, progress.events⟩

end TemplateDocs

import TemplateDocs.Proofs.Cli.Legible
import TemplateDocs.Proofs.Cli.Run
import TemplateDocs.Proofs.Disk.Accounting

/-!
# What a check says

A check ends well exactly when every path is documented.  The counts that it prints
are those of the paths.  Behind the log it writes one warning for each diagnostic and
then one error for each failure, and on a legible console each of them can be read.
-/

namespace TemplateDocs

namespace Cli

def passedLine (color : Bool) (files definitions warnings : Nat) : Text :=
  paint color .green "Check passed:".toList ++ ' ' :: (Text.ofNat files ++
    " file(s), ".toList ++ Text.ofNat definitions ++ " definition(s), ".toList ++
    Text.ofNat warnings ++ " warning(s).".toList)

def failedLine (color : Bool) (failing total : Nat) : Text :=
  paint color .red "Check failed:".toList ++ ' ' :: (Text.ofNat failing ++ " of ".toList ++
    Text.ofNat total ++ " file(s) could not be documented.".toList)

/-- The lines of a warning: where the marker stands, what is wrong, and what to do. -/
def Warns (color : Bool) (item : FileDiagnostic) (lines : List Text) : Prop :=
  Shows (if color then '⚠' else '!') (if color then '│' else '|')
    item.diagnostic.problem.code
    ("[".toList ++ item.file ++ ":".toList ++
      (Text.ofNat item.diagnostic.position.line ++ ":".toList ++
        Text.ofNat item.diagnostic.position.column) ++
      "] ".toList ++ item.diagnostic.problem.message)
    (some item.diagnostic.problem.help) lines

/-- The lines of an error: which file failed, and why. -/
def Blames (color : Bool) (failure : Failure) (lines : List Text) : Prop :=
  Shows (if color then '×' else 'x') (if color then '│' else '|')
    "ftldoc::file_failed".toList
    ("[".toList ++ failure.filename ++ "] ".toList ++ failure.message)
    (some "this file was skipped; fix the error and run again".toList) lines

/-- What a check leaves behind of an outcome, told by the paths. -/
structure Tells (console : Console) (disk : Disk) (task : Task) (outcome : Outcome)
    (output : Output) : Prop where
  passes : output.exitCode = 0 ↔
    ∀ path ∈ task.paths, disk.Documentable task.options.maxFileSize path
  passed : output.exitCode = 0 → output.stdout =
    [passedLine task.color task.paths.length
      (outcome.index.files.flatMap FileDoc.records).length
      outcome.index.diagnostics.length]
  failed : output.exitCode ≠ 0 → output.exitCode = 1 ∧ output.stdout =
    [failedLine task.color
      (task.paths.countP fun path => ¬ disk.Documentable task.options.maxFileSize path)
      task.paths.length]
  /-- The exit code is the same whatever the diagnostics are. -/
  unmoved : ∀ diagnostics,
    (console.checkOutput task.color task.filter
      { outcome with index := { outcome.index with diagnostics := diagnostics } }).exitCode =
        output.exitCode
  /-- Behind the log, one warning for each diagnostic, then one error for each failure. -/
  reported : ∃ warnings errors,
    List.Forall₂ (Warns task.color) outcome.index.diagnostics warnings ∧
      List.Forall₂ (Blames task.color) outcome.index.failures errors ∧
      output.stderr =
        console.log task.color task.filter
            (optionsEntry task.options task.root :: checkEntries outcome.events) ++
          (warnings.flatten ++ errors.flatten)

theorem Console.log_cons (console : Console) (color : Bool) (filter : LogFilter)
    (entry : LogEntry) (rest : List LogEntry) :
    console.log color filter (entry :: rest) =
      console.log color filter [entry] ++ console.log color filter rest := by
  simp only [log, LogFilter.entries]
  rw [← List.flatMap_append, ← List.map_append, ← List.filter_append, List.singleton_append]

section Output

variable {disk : Disk} {options : Options} {paths : List Text}

theorem isComplete_document_iff :
    (disk.document options paths).index.isComplete = true ↔
      ∀ path ∈ paths, disk.Documentable options.maxFileSize path := by
  have hlength := disk.length_failures_document options paths
  unfold Index.isComplete
  rw [List.isEmpty_iff_length_eq_zero, hlength, List.countP_eq_zero]
  simp only [decide_not, Bool.not_eq_true', decide_eq_false_iff_not, not_not]

theorem verdict_document (color : Bool) :
    verdict color (disk.document options paths).index =
      if (disk.document options paths).index.isComplete then
        passedLine color paths.length
          ((disk.document options paths).index.files.flatMap FileDoc.records).length
          (disk.document options paths).index.diagnostics.length
      else
        failedLine color (paths.countP fun path => ¬ disk.Documentable options.maxFileSize path)
          paths.length := by
  have htotal := (disk.accounts_document options paths).total
  have hfailures := disk.length_failures_document options paths
  have hrecords : (disk.document options paths).index.records.length =
      ((disk.document options paths).index.files.flatMap FileDoc.records).length :=
    length_records_documentSources Tree.parse options (disk.sources options.maxFileSize paths)
  rw [← htotal, ← hfailures, ← hrecords]
  rfl

end Output

/-- On a legible console the reports of an index are its warnings and then its errors. -/
theorem Console.Legible.flatMap_checkReports {console : Console} (h : console.Legible)
    (color : Bool) (index : Index) :
    ∃ warnings errors,
      List.Forall₂ (Warns color) index.diagnostics warnings ∧
        List.Forall₂ (Blames color) index.failures errors ∧
        (checkReports index).flatMap (console.report color) =
          warnings.flatten ++ errors.flatten := by
  refine ⟨index.diagnostics.map fun item => console.report color (.ofDiagnostic item),
    index.failures.map fun failure => console.report color (.ofFailure failure), ?_, ?_, ?_⟩
  · rw [List.forall₂_map_right_iff, List.forall₂_same]
    exact fun item _ => h color (.ofDiagnostic item)
  · rw [List.forall₂_map_right_iff, List.forall₂_same]
    exact fun failure _ => h color (.ofFailure failure)
  · rw [checkReports, List.flatMap_append, List.flatMap_map, List.flatMap_map]
    rfl

section Check

variable {environment : Environment} {arguments files : List Text} {invocation : Invocation}
  {task : Task}

theorem Resolves.check_eq (h : Resolves environment arguments invocation task)
    (hcommand : task.command = .check files) (console : Console) :
    console.run environment arguments =
      (console.checkOutput task.color task.filter
        (environment.disk.document task.options task.paths)).behind
          (console.log task.color task.filter [optionsEntry task.options task.root]) := by
  rw [h.run_eq, hcommand]
  rfl

/-- All that a check writes on standard error: its log, and then its reports. -/
theorem Resolves.stderr_check (h : Resolves environment arguments invocation task)
    (hcommand : task.command = .check files) (console : Console) :
    (console.run environment arguments).stderr =
      console.log task.color task.filter (optionsEntry task.options task.root ::
          checkEntries (environment.disk.document task.options task.paths).events) ++
        (checkReports (environment.disk.document task.options task.paths).index).flatMap
          (console.report task.color) := by
  rw [h.check_eq hcommand, console.log_cons _ _ _ (checkEntries _), List.append_assoc]
  rfl

theorem Resolves.tells (h : Resolves environment arguments invocation task)
    (hcommand : task.command = .check files) {console : Console} (hlegible : console.Legible) :
    Tells console environment.disk task (environment.disk.document task.options task.paths)
      (console.run environment arguments) := by
  let outcome := environment.disk.document task.options task.paths
  have hcode : (console.run environment arguments).exitCode =
      if outcome.index.isComplete then 0 else 1 := by
    rw [h.check_eq hcommand]
    rfl
  have hprinted : (console.run environment arguments).stdout =
      [verdict task.color outcome.index] := by
    rw [h.check_eq hcommand]
    rfl
  have hzero : (console.run environment arguments).exitCode = 0 ↔
      outcome.index.isComplete = true := by
    rw [hcode]
    split <;> simp_all
  refine ⟨hzero.trans isComplete_document_iff, fun hend => ?_, fun hend => ⟨?_, ?_⟩,
    fun _ => hcode.symm, ?_⟩
  · rw [hprinted, verdict_document, if_pos (hzero.mp hend)]
  · rw [hcode, if_neg (mt hzero.mpr hend)]
  · rw [hprinted, verdict_document, if_neg (mt hzero.mpr hend)]
  · obtain ⟨warnings, errors, hwarnings, herrors, hwritten⟩ :=
      hlegible.flatMap_checkReports task.color outcome.index
    refine ⟨warnings, errors, hwarnings, herrors, ?_⟩
    rw [h.stderr_check hcommand, hwritten]

end Check

/-- A file with a tree, one without, and one without text; nothing else is there. -/
def mixedDisk : Disk := fun path =>
  if path = ['a'] then .ok (.file "<#-- @end --><#macro m></#macro>".toUTF8)
  else if path = ['b'] then .ok (.file "<#-- ".toUTF8)
  else if path = ['d'] then .ok (.file ⟨#[0xff]⟩)
  else .error .notFound

def mixedPaths : List Text :=
  [['a'], ['b'], ['c'], ['d']]

def mixedEnvironment : Environment :=
  ⟨[], mixedDisk, true, none⟩

def mixedTask : Task :=
  ⟨.check mixedPaths, false, .atLevel .warn, [], .standard, mixedPaths⟩

theorem resolves_mixedTask :
    Resolves mixedEnvironment ("check".toList :: mixedPaths)
      ⟨some (.check mixedPaths), none, none, false, false, false⟩ mixedTask := by
  refine ⟨?_, rfl, rfl, rfl, rfl, ?_, rfl⟩
  · decide +kernel
  · decide +kernel

theorem document_mixedDisk :
    (mixedDisk.document .standard mixedPaths).index.diagnostics =
        [⟨['a'], .endWithoutBegin, ⟨1, 1⟩⟩] ∧
      (mixedDisk.document .standard mixedPaths).index.failures =
        [⟨['c'], "No such file or directory (os error 2)".toList⟩,
          ⟨['d'], "stream did not contain valid UTF-8".toList⟩,
          ⟨['b'], "unterminated comment starting at 1:1".toList⟩] ∧
      (mixedDisk.document .standard mixedPaths).events =
        [.unread ['c'] "No such file or directory (os error 2)".toList,
          .unread ['d'] "stream did not contain valid UTF-8".toList,
          .started ['a'] 32, .documented ['a'] 1 0,
          .noticed ['a'] ⟨.endWithoutBegin, ⟨1, 1⟩⟩,
          .started ['b'] 5,
          .skipped ['b'] "unterminated comment starting at 1:1".toList] := by
  decide +kernel

end Cli

end TemplateDocs

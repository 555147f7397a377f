import TemplateDocs.Cli.Arguments
import TemplateDocs.Cli.Console
import TemplateDocs.Cli.Listing
import TemplateDocs.Index.Json
import TemplateDocs.Settings.Load

/-!
# Running a command

A run is a function of the console that it writes to, of the arguments, and of what
it finds around it: the working directory, the disk, and the wishes of the
environment on colours and on the log.
A scan prints the index and ends well even if files failed; a check reports every
problem and ends well exactly if no file failed.
-/

namespace TemplateDocs

namespace Cli

structure Environment where
  directory : Text
  disk : Disk
  noColor : Bool
  /-- The directives for the log. -/
  logSetting : Option Text

structure Output where
  exitCode : Nat
  stdout : List Text
  stderr : List Text
deriving DecidableEq, Repr

/-- The output with further lines in front of those on standard error. -/
def Output.behind (lines : List Text) (output : Output) : Output :=
  { output with stderr := lines ++ output.stderr }

def errorLine (color : Bool) (message : Text) : Text :=
  paint color .red "error:".toList ++ ' ' :: message

inductive FilesFault where
  | unlisted (cause : ReadFault)
  | noTemplates (root : Text)
deriving DecidableEq, Repr

def FilesFault.message : FilesFault → Text
  | unlisted cause => cause.message
  | noTemplates root => "no .ftl files found in ".toList ++ root

namespace Invocation

def color (invocation : Invocation) (environment : Environment) : Bool :=
  !invocation.noColor && !environment.noColor

def root (invocation : Invocation) (environment : Environment) : Text :=
  invocation.path.getD environment.directory

/-- The options of the project, as far as the arguments do not say otherwise. -/
def options (invocation : Invocation) (environment : Environment) : Except Fault Options :=
  (Options.load environment.disk (invocation.root environment)).bind fun options =>
    let options := { options with sortFiles := options.sortFiles || invocation.sortFiles }
    match invocation.marker with
    | none => .ok options
    | some value => (parseMarker value).map fun marker => { options with marker := marker }

end Invocation

/-- The templates that stand directly in a directory, in the order of their names. -/
def templatesIn (disk : Disk) (root : Text) : Except ReadFault (List Text) :=
  (disk.list root).map fun names =>
    let templates := names.filter fun name =>
      Path.isTemplate name && disk.isFile (Path.join root name)
    (templates.mergeSort Text.le).map (Path.join root)

/-- The files that are given, or else the templates of the project. -/
def resolveFiles (disk : Disk) (root : Text) (files : List Text) :
    Except FilesFault (List Text) :=
  if files.isEmpty then
    match templatesIn disk root with
    | .error cause => .error (.unlisted cause)
    | .ok [] => .error (.noTemplates root)
    | .ok found => .ok found
  else
    .ok files

def verdict (color : Bool) (index : Index) : Text :=
  let total := Text.ofNat (index.files.length + index.failures.length)
  if index.isComplete then
    paint color .green "Check passed:".toList ++ ' ' :: (total ++ " file(s), ".toList ++
      Text.ofNat index.records.length ++ " definition(s), ".toList ++
      Text.ofNat index.diagnostics.length ++ " warning(s).".toList)
  else
    paint color .red "Check failed:".toList ++ ' ' :: (Text.ofNat index.failures.length ++
      " of ".toList ++ total ++ " file(s) could not be documented.".toList)

/-- The reports of a check: a warning for each diagnostic, then an error for each failure. -/
def checkReports (index : Index) : List Report :=
  index.diagnostics.map Report.ofDiagnostic ++ index.failures.map Report.ofFailure

/-- The entries that a check makes in the log; a diagnostic has its report instead. -/
def checkEntries (events : List Event) : List LogEntry :=
  (events.filter fun event => event.diagnostic?.isNone).map eventEntry

namespace Console

def scanOutput (console : Console) (color : Bool) (filter : LogFilter) (format : Format)
    (outcome : Outcome) : Output where
  exitCode := 0
  stdout :=
    match format with
    | .json => [outcome.index.toJson.pretty]
    | .text => listing color outcome.index
  stderr :=
    console.log color filter (outcome.events.map eventEntry) ++
      outcome.index.failures.map fun failure =>
        errorLine color (failure.filename ++ ": ".toList ++ failure.message)

def checkOutput (console : Console) (color : Bool) (filter : LogFilter) (outcome : Outcome) :
    Output where
  exitCode := if outcome.index.isComplete then 0 else 1
  stdout := [verdict color outcome.index]
  stderr :=
    console.log color filter (checkEntries outcome.events) ++
      (checkReports outcome.index).flatMap (console.report color)

def commandOutput (console : Console) (color : Bool) (filter : LogFilter) (outcome : Outcome) :
    Command → Output
  | .scan format _ => console.scanOutput color filter format outcome
  | .check _ => console.checkOutput color filter outcome

/-- The options come first, and the log says what they are; then the files are found. -/
def runCommand (console : Console) (environment : Environment) (filter : LogFilter)
    (invocation : Invocation) (command : Command) : Output :=
  let color := invocation.color environment
  let root := invocation.root environment
  match invocation.options environment with
  | .error fault => ⟨2, [], console.report color (.ofFault fault)⟩
  | .ok options =>
      let output : Output :=
        match resolveFiles environment.disk root command.files with
        | .error fault => ⟨2, [], [errorLine color fault.message]⟩
        | .ok paths =>
            console.commandOutput color filter (environment.disk.document options paths) command
      output.behind (console.log color filter [optionsEntry options root])

end Console

def usage : List Text :=
  ["Extract documentation from FreeMarker macro and function libraries.".toList,
    [],
    "Usage: ftldoc [OPTIONS] [COMMAND]".toList,
    [],
    "Commands:".toList,
    "  scan [FILES]...   Document template files and print the result".toList,
    "  check [FILES]...  Report category marker problems and files that fail to parse".toList,
    "  help              Print this message".toList,
    [],
    "Options:".toList,
    "  -p, --path <PATH>      Directory of the settings and the templates".toList,
    "      --marker <MARKER>  The character that turns a comment into a doc comment".toList,
    "      --sort-files       Process files in filename order".toList,
    "  -v, --verbose          Enable verbose output".toList,
    "      --no-color         Disable colored output".toList,
    "      --format <FORMAT>  Output format of a scan: text or json".toList,
    "  -h, --help             Print help".toList,
    "  -V, --version          Print version".toList]

def versionLine : Text :=
  "ftldoc_cli 0.1.0".toList

def stopOutput : Stop → Output
  | .help => ⟨0, usage, []⟩
  | .version => ⟨0, [versionLine], []⟩
  | .fault fault =>
      let tip :=
        match fault.tip? with
        | some tip => [tip, []]
        | none => []
      ⟨2, [],
        [errorLine false fault.message, []] ++ tip ++
          ["For more information, try '--help'.".toList]⟩

/-- What is left of a run that breaks down over the directives for the log. -/
def brokenOutput : Output :=
  ⟨101, [], []⟩

def Console.run (console : Console) (environment : Environment) (arguments : List Text) :
    Output :=
  match Invocation.parse arguments with
  | .error stop => stopOutput stop
  | .ok invocation =>
      match LogFilter.choose environment.logSetting invocation.verbose with
      | .error _ => brokenOutput
      | .ok filter =>
          match invocation.command with
          | none =>
              ⟨1, [], ["No subcommand specified. Run `ftldoc --help` for usage.".toList]⟩
          | some command => console.runCommand environment filter invocation command

/-- Run the program on its arguments, with lines of any length. -/
def run (environment : Environment) (arguments : List Text) : Output :=
  Console.plain.run environment arguments

end Cli

end TemplateDocs

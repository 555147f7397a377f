import TemplateDocs.Cli.Terminal
import TemplateDocs.Text.Similar

/-!
# Command line arguments

Options stand before or behind the name of a command.  An option with a value
takes it from the same argument or from the next one.  The value is checked when
the next option, file or command is settled, or at the end; an argument that is
not known is refused at once.  An option that is given at both places has the
value given behind the command.
-/

namespace TemplateDocs

namespace Cli

inductive Format where
  | text
  | json
deriving DecidableEq, Repr

/-- Where an argument stands: before a command, or behind one. -/
inductive Scope where
  | top
  | scan
  | check
deriving DecidableEq, Repr

inductive ValueOption where
  | path
  | marker
  | format
deriving DecidableEq, Repr

inductive Flag where
  | sortFiles
  | verbose
  | noColor
deriving DecidableEq, Repr

inductive Switch where
  | value (option : ValueOption)
  | flag (raised : Flag)
  | help
  | version
deriving DecidableEq, Repr

inductive ArgumentFault where
  /-- An argument that is not known; `asValue` if it could be meant as a file. -/
  | unexpected (argument : Text) (asValue : Bool)
  | unrecognized (command : Text)
  | missingValue (option : Text)
  | invalidValue (value option : Text)
  | repeated (option : Text)
  | unneededValue (value option : Text)
deriving DecidableEq, Repr

def quoted (text : Text) : Text :=
  '\'' :: (text ++ ['\''])

/-- A text of the user between single quotes, as far as it is shown. -/
def shownQuoted (text : Text) : Text :=
  quoted (shown text)

def ArgumentFault.message : ArgumentFault → Text
  | unexpected argument _ =>
      "unexpected argument ".toList ++ shownQuoted argument ++ " found".toList
  | unrecognized command => "unrecognized subcommand ".toList ++ shownQuoted command
  | missingValue option =>
      "a value is required for ".toList ++ quoted option ++ " but none was supplied".toList
  | invalidValue value option =>
      "invalid value ".toList ++ shownQuoted value ++ " for ".toList ++ quoted option
  | repeated option =>
      "the argument ".toList ++ quoted option ++ " cannot be used multiple times".toList
  | unneededValue value option =>
      "unexpected value ".toList ++ shownQuoted value ++ " for ".toList ++ quoted option ++
        " found; no more were expected".toList

def ArgumentFault.tip? : ArgumentFault → Option Text
  | unexpected argument true =>
      let argument := shown argument
      some ("  tip: to pass ".toList ++ quoted argument ++ " as a value, use ".toList ++
        quoted ("-- ".toList ++ argument))
  | _ => none

inductive Stop where
  | help
  | version
  | fault (fault : ArgumentFault)
deriving DecidableEq, Repr

def ValueOption.shown : ValueOption → Text
  | path => "--path <PATH>".toList
  | marker => "--marker <MARKER>".toList
  | format => "--format <FORMAT>".toList

def Flag.shown : Flag → Text
  | sortFiles => "--sort-files".toList
  | verbose => "--verbose".toList
  | noColor => "--no-color".toList

def Switch.shown : Switch → Text
  | value option => option.shown
  | flag raised => raised.shown
  | help => "--help".toList
  | version => "--version".toList

def filesShown : Text :=
  "[FILES]...".toList

def Switch.longNames (scope : Scope) : List (Text × Switch) :=
  [("path".toList, .value .path), ("marker".toList, .value .marker),
    ("sort-files".toList, .flag .sortFiles), ("verbose".toList, .flag .verbose),
    ("no-color".toList, .flag .noColor), ("help".toList, .help)] ++
    match scope with
    | .top => [("version".toList, .version)]
    | .scan => [("format".toList, .value .format)]
    | .check => []

def Switch.ofLong? (scope : Scope) (name : Text) : Option Switch :=
  ((Switch.longNames scope).find? fun entry => entry.1 = name).map Prod.snd

def Switch.isLikeLong (scope : Scope) (name : Text) : Bool :=
  (Switch.longNames scope).any fun entry => Text.similarity name entry.1 > 0.7

def Scope.takesFiles : Scope → Bool
  | top => false
  | scan => true
  | check => true

def Switch.ofShort? (scope : Scope) (name : Char) : Option Switch :=
  if name = 'p' then some (.value .path)
  else if name = 'v' then some (.flag .verbose)
  else if name = 'h' then some .help
  else if name = 'V' && scope = .top then some .version
  else none

/-- Values that have been given but not yet checked. -/
inductive Pending where
  | none
  | waiting (option : ValueOption)
  | given (option : ValueOption) (value : Text)
  | files (paths : List Text)
deriving DecidableEq, Repr

/-- What has been read at one place. -/
structure Given where
  path : Option Text
  marker : Option Text
  format : Option Format
  sortFiles : Bool
  verbose : Bool
  noColor : Bool
  files : List Text
  pending : Pending
  /-- Behind two dashes nothing is an option. -/
  trailing : Bool
deriving DecidableEq, Repr

namespace Given

def start : Given :=
  ⟨none, none, none, false, false, false, [], .none, false⟩

def refuse {α : Type} (fault : ArgumentFault) : Except Stop α :=
  .error (.fault fault)

def keep (given : Given) (option : ValueOption) (value : Text) : Except Stop Given :=
  match option with
  | .path =>
      if given.path.isSome then refuse (.repeated option.shown)
      else if value.isEmpty then refuse (.missingValue option.shown)
      else .ok { given with path := some value }
  | .marker =>
      if given.marker.isSome then refuse (.repeated option.shown)
      else .ok { given with marker := some value }
  | .format =>
      if given.format.isSome then refuse (.repeated option.shown)
      else if value.isEmpty then refuse (.missingValue option.shown)
      else if value = "text".toList then .ok { given with format := some .text }
      else if value = "json".toList then .ok { given with format := some .json }
      else refuse (.invalidValue value option.shown)

def settle (given : Given) : Except Stop Given :=
  let settled := { given with pending := .none }
  match given.pending with
  | .none => .ok given
  | .waiting option => refuse (.missingValue option.shown)
  | .given option value => settled.keep option value
  | .files paths =>
      if paths.any List.isEmpty then refuse (.missingValue filesShown)
      else .ok { settled with files := settled.files ++ paths }

def isWaiting (given : Given) : Bool :=
  match given.pending with
  | .waiting _ => true
  | _ => false

/-- Raise a flag, which can be done once. -/
def raise (given : Given) (flag : Flag) : Except Stop Given :=
  given.settle.bind fun given =>
    match flag with
    | .sortFiles =>
        if given.sortFiles then refuse (.repeated flag.shown)
        else .ok { given with sortFiles := true }
    | .verbose =>
        if given.verbose then refuse (.repeated flag.shown)
        else .ok { given with verbose := true }
    | .noColor =>
        if given.noColor then refuse (.repeated flag.shown)
        else .ok { given with noColor := true }

/-- Read an option with a value in the same argument, or without one. -/
def takeOption (given : Given) (option : ValueOption) (attached : Option Text) :
    Except Stop Given :=
  given.settle.bind fun given =>
    match attached with
    | some value => given.keep option value
    | none => .ok { given with pending := .waiting option }

def takeSwitch (given : Given) : Switch → Except Stop Given
  | .value option => given.takeOption option none
  | .flag flag => given.raise flag
  | .help => given.settle.bind fun _ => .error .help
  | .version => given.settle.bind fun _ => .error .version

/-- Read an argument that starts with two dashes; `body` is what follows them. -/
def takeLong (given : Given) (scope : Scope) (body : Text) : Except Stop Given :=
  let name := body.takeWhile (· != '=')
  let attached := (body.dropWhile (· != '=')).tail?
  match Switch.ofLong? scope name, attached with
  | none, _ =>
      refuse (.unexpected ('-' :: '-' :: name)
        (scope.takesFiles && !Switch.isLikeLong scope name))
  | some (.value option), attached => given.takeOption option attached
  | some switch, some value => refuse (.unneededValue value switch.shown)
  | some switch, none => given.takeSwitch switch

/-- The value that stands behind a short option in the same argument. -/
def attachedValue (rest : Text) : Option Text :=
  match rest with
  | [] => none
  | '=' :: value => some value
  | value => some value

def takeShorts (given : Given) (scope : Scope) : Text → Except Stop Given
  | [] => .ok given
  | name :: rest =>
      match Switch.ofShort? scope name with
      | none => refuse (.unexpected ['-', name] scope.takesFiles)
      | some (.value option) => given.takeOption option (attachedValue rest)
      | some switch => (given.takeSwitch switch).bind fun given => given.takeShorts scope rest

def takeFile (given : Given) (path : Text) : Except Stop Given :=
  match given.pending with
  | .files paths => .ok { given with pending := .files (paths ++ [path]) }
  | _ => given.settle.map fun given => { given with pending := .files [path] }

def supply (given : Given) (value : Text) : Given :=
  match given.pending with
  | .waiting option => { given with pending := .given option value }
  | _ => given

end Given

inductive Shape where
  | separator
  | long (body : Text)
  | shorts (names : Text)
  | plain
deriving DecidableEq, Repr

def Shape.of : Text → Shape
  | ['-', '-'] => separator
  | '-' :: '-' :: body => long body
  | '-' :: name :: names => shorts (name :: names)
  | _ => plain

def Scope.ofCommand? (name : Text) : Option Scope :=
  if name = "scan".toList then some .scan
  else if name = "check".toList then some .check
  else none

def helpCommand : Text :=
  "help".toList

def isCommand (name : Text) : Bool :=
  (Scope.ofCommand? name).isSome || name = helpCommand

/-- Help may be asked for about one command. -/
def readHelp : List Text → Stop
  | [] => .help
  | name :: rest =>
      if isCommand name then
        match rest with
        | [] => .help
        | extra :: _ => .fault (.unrecognized extra)
      else
        .fault (.unrecognized name)

def readInner (scope : Scope) (given : Given) : List Text → Except Stop Given
  | [] => given.settle
  | argument :: rest =>
      if given.trailing then
        (given.takeFile argument).bind fun given => readInner scope given rest
      else
        match Shape.of argument with
        | .separator => readInner scope { given with trailing := true } rest
        | .long body => (given.takeLong scope body).bind fun given => readInner scope given rest
        | .shorts names =>
            (given.takeShorts scope names).bind fun given => readInner scope given rest
        | .plain =>
            if given.isWaiting then
              readInner scope (given.supply argument) rest
            else
              (given.takeFile argument).bind fun given => readInner scope given rest

/--
Read the arguments before a command, up to the name of one.  The result is what
was read, and the command with the arguments behind it.
-/
def readTop (given : Given) :
    List Text → Except Stop (Given × Option (Scope × List Text))
  | [] => given.settle.map fun given => (given, none)
  | argument :: rest =>
      if given.trailing then
        if isCommand argument then
          Given.refuse (.unexpected argument false)
        else
          Given.refuse (.unrecognized argument)
      else
        match Shape.of argument with
        | .separator => readTop { given with trailing := true } rest
        | .long body => (given.takeLong .top body).bind fun given => readTop given rest
        | .shorts names => (given.takeShorts .top names).bind fun given => readTop given rest
        | .plain =>
            if given.isWaiting then
              readTop (given.supply argument) rest
            else if argument = helpCommand then
              .error (readHelp rest)
            else
              match Scope.ofCommand? argument with
              | some scope => .ok (given, some (scope, rest))
              | none => Given.refuse (.unrecognized argument)

inductive Command where
  | scan (format : Format) (files : List Text)
  | check (files : List Text)
deriving DecidableEq, Repr

def Command.files : Command → List Text
  | scan _ files => files
  | check files => files

structure Invocation where
  command : Option Command
  path : Option Text
  marker : Option Text
  sortFiles : Bool
  verbose : Bool
  noColor : Bool
deriving DecidableEq, Repr

def Invocation.of (command : Option Command) (top inner : Given) : Invocation where
  command := command
  path := inner.path.or top.path
  marker := inner.marker.or top.marker
  sortFiles := inner.sortFiles || top.sortFiles
  verbose := inner.verbose || top.verbose
  noColor := inner.noColor || top.noColor

def Command.of? (scope : Scope) (given : Given) : Option Command :=
  match scope with
  | .top => none
  | .scan => some (scan (given.format.getD .text) given.files)
  | .check => some (check given.files)

def Invocation.parse (arguments : List Text) : Except Stop Invocation :=
  (readTop .start arguments).bind fun read =>
    match read.2 with
    | none => .ok (.of none read.1 .start)
    | some (scope, rest) =>
        (readInner scope .start rest).bind fun inner =>
          read.1.settle.map fun top => .of (Command.of? scope inner) top inner

end Cli

end TemplateDocs

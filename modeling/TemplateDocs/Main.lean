import TemplateDocs.Cli.Run

/-!
# The program

Looks at every path that a run can ask for, hands the answers to the run, and
writes what the run has to say.
-/

namespace TemplateDocs

namespace Cli

def askedPlaces (directory : Text) (arguments : List Text) : Option (Text × List Text) :=
  match Invocation.parse arguments with
  | .error _ => none
  | .ok invocation =>
      invocation.command.map fun command =>
        (invocation.path.getD directory, command.files)

def templatePaths (root : Text) : Except ReadFault Entry → List Text
  | .ok (.directory _ names) => (names.filter Path.isTemplate).map (Path.join root)
  | _ => []

/-- The disk as far as it was looked at. -/
def seenDisk (seen : List (Text × Except ReadFault Entry)) : Disk := fun path =>
  ((seen.find? fun item => item.1 = path).map Prod.snd).getD (.error .notFound)

def readFault : IO.Error → ReadFault
  | .noFileOrDirectory .. => .notFound
  | .inappropriateType .. => .notDirectory
  | .invalidArgument (some _) 36 _ => .nameTooLong
  | failure => .other (toString failure).toList

def lookInto (path : Text) : IO Entry := do
  let place ← IO.FS.realPath (String.ofList path)
  let names := (← place.readDir).toList.map fun entry => entry.fileName.toList
  return .directory (← place.metadata).byteSize.toNat names

/-- Look at a path: what cannot be read as a file may be a directory. -/
def look (path : Text) : IO (Except ReadFault Entry) := do
  try
    return .ok (.file (← IO.FS.readBinFile (String.ofList path)))
  catch failure =>
    try
      return .ok (← lookInto path)
    catch _ =>
      return .error (readFault failure)

def lookAll (paths : List Text) : IO (List (Text × Except ReadFault Entry)) :=
  paths.mapM fun path => do
    return (path, ← look path)

def survey (directory : Text) (arguments : List Text) : IO Disk := do
  match askedPlaces directory arguments with
  | none => return seenDisk []
  | some (root, files) =>
      let settings ← lookAll (Settings.candidates root)
      if files.isEmpty then
        let entry ← look root
        let templates ← lookAll (templatePaths root entry)
        return seenDisk ((root, entry) :: (settings ++ templates))
      else
        let given ← lookAll files
        return seenDisk (settings ++ given)

def perform (arguments : List Text) : IO UInt32 := do
  let directory := (← IO.currentDir).toString.toList
  let disk ← survey directory arguments
  let noColor := (← IO.getEnv "NO_COLOR").isSome
  let logSetting := (← IO.getEnv "FTLDOC_LOG").map String.toList
  let output := run ⟨directory, disk, noColor, logSetting⟩ arguments
  for line in output.stdout do
    IO.println (String.ofList line)
  for line in output.stderr do
    IO.eprintln (String.ofList line)
  return UInt32.ofNat output.exitCode

end Cli

end TemplateDocs

def main (arguments : List String) : IO UInt32 :=
  TemplateDocs.Cli.perform (arguments.map String.toList)

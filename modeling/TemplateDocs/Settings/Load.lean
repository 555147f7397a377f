import TemplateDocs.Disk.Basic
import TemplateDocs.Settings.Basic

/-!
# Loading settings

The settings of a project stand in the first of three files that exists in its
directory.  A project without such a file has the standard settings.
-/

namespace TemplateDocs

namespace Settings

/-- The names of settings files, the first one found counts. -/
def fileNames : List Text :=
  ["ftldoc.toml".toList, ".ftldoc.toml".toList, ".config/ftldoc.toml".toList]

def candidates (root : Text) : List Text :=
  fileNames.map (Path.join root)

def path? (disk : Disk) (root : Text) : Option Text :=
  (candidates root).find? disk.isFile

def load (disk : Disk) (root : Text) : Except Fault (Option Settings) :=
  match path? disk root with
  | none => .ok none
  | some path =>
      match disk.readText path with
      | .error cause => .error (.unreadable cause)
      | .ok text => (parse text).map some

end Settings

def Options.load (disk : Disk) (root : Text) : Except Fault Options :=
  (Settings.load disk root).bind fun settings =>
    match settings with
    | none => .ok .standard
    | some settings => settings.options

end TemplateDocs

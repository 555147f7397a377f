import TemplateDocs.Fault
import TemplateDocs.Index.Document
import TemplateDocs.Path

/-!
# Files on disk

A disk answers every path with what stands there.  Templates are read from it
unless they are too large; a path that cannot be read is a failure of its own.
-/

namespace TemplateDocs

inductive Entry where
  | file (content : ByteArray)
  /-- A directory with the size it has on disk and the names in it. -/
  | directory (size : Nat) (names : List Text)

def Entry.size : Entry → Nat
  | file content => content.size
  | directory size _ => size

/-- A state of the file system: the answer to every path. -/
abbrev Disk := Text → Except ReadFault Entry

namespace Disk

def isFile (disk : Disk) (path : Text) : Bool :=
  match disk path with
  | .ok (.file _) => true
  | _ => false

def contentOf : Entry → Except ReadFault Text
  | .directory .. => .error .isDirectory
  | .file content =>
      match String.fromUTF8? content with
      | some text => .ok text.toList
      | none => .error .notUtf8

def readText (disk : Disk) (path : Text) : Except ReadFault Text :=
  (disk path).bind contentOf

def list (disk : Disk) (path : Text) : Except ReadFault (List Text) :=
  (disk path).bind fun entry =>
    match entry with
    | .directory _ names => .ok names
    | .file _ => .error .notDirectory

/-- Read a template, unless it has more bytes than allowed. -/
def readSource (disk : Disk) (limit : Nat) (path : Text) : Except Fault Source :=
  match disk path with
  | .error cause => .error (.unreadable cause)
  | .ok entry =>
      if limit < entry.size then
        .error (.tooLarge path entry.size limit)
      else
        match contentOf entry with
        | .ok content => .ok ⟨Path.displayName path, content⟩
        | .error cause => .error (.unreadable cause)

def sources (disk : Disk) (limit : Nat) (paths : List Text) : List Source :=
  paths.filterMap fun path => (disk.readSource limit path).toOption

def unreadable (disk : Disk) (limit : Nat) (paths : List Text) : List (Text × Fault) :=
  paths.filterMap fun path =>
    match disk.readSource limit path with
    | .ok _ => none
    | .error fault => some (path, fault)

/--
Read and document templates.  Failures to read stand before failures to parse.
-/
def document (disk : Disk) (options : Options) (paths : List Text) : Outcome :=
  let unread := disk.unreadable options.maxFileSize paths
  let outcome :=
    documentSources Tree.parse options (disk.sources options.maxFileSize paths)
  { index :=
      { outcome.index with
        failures :=
          unread.map (fun entry => ⟨Path.displayName entry.1, entry.2.message⟩) ++
            outcome.index.failures }
    events :=
      unread.map (fun entry => .unread entry.1 entry.2.message) ++ outcome.events }

end Disk

end TemplateDocs

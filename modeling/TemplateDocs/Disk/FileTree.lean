import TemplateDocs.Disk.Basic

/-!
# File trees in memory

A list of files and directories, each under the components of its absolute path,
stands for a file system.  Every directory above a listed one exists as well.
-/

namespace TemplateDocs

/-- Files, with their content, and directories, without one. -/
structure FileTree where
  entries : List (List Text × Option ByteArray)

namespace FileTree

def directorySize : Nat :=
  4096

/-- What remains of `path` below `directory`. -/
def below? : (directory path : List Text) → Option (List Text)
  | [], path => some path
  | _ :: _, [] => none
  | name :: directory, part :: path => if name = part then below? directory path else none

def distinct (texts : List Text) : List Text :=
  texts.foldl (fun seen text => if seen.contains text then seen else seen ++ [text]) []

def namesIn (tree : FileTree) (directory : List Text) : List Text :=
  distinct <| tree.entries.filterMap fun entry => (below? directory entry.1).bind List.head?

/-- A directory is the root, listed as such, or above something that is listed. -/
def isDirectory (tree : FileTree) (path : List Text) : Bool :=
  path.isEmpty || tree.entries.any fun entry =>
    match below? path entry.1 with
    | some [] => entry.2.isNone
    | some _ => true
    | none => false

/-- The content of the file at a path; of two files under one path the later one counts. -/
def file? (tree : FileTree) (path : List Text) : Option ByteArray :=
  (tree.entries.reverse.find? fun entry => entry.1 = path && entry.2.isSome).bind Prod.snd

def entryAt (tree : FileTree) (path : List Text) : Except ReadFault Entry :=
  match tree.file? path with
  | some content => .ok (.file content)
  | none =>
      if tree.isDirectory path then
        .ok (.directory directorySize (tree.namesIn path))
      else
        .error .notFound

def nameLimit : Nat :=
  255

def pathLimit : Nat :=
  4095

/--
Go from a directory along components; every step needs a directory to start from
and a name that is not too long.
-/
def walk (tree : FileTree) (place : List Text) : List Text → Except ReadFault (List Text)
  | [] => .ok place
  | part :: parts =>
      match tree.entryAt place with
      | .error cause => .error cause
      | .ok (.file _) => .error .notDirectory
      | .ok (.directory ..) =>
          if nameLimit < Text.byteSize part then
            .error .nameTooLong
          else
            tree.walk (if part = ['.', '.'] then place.dropLast else place ++ [part]) parts

/-- A path that ends in a slash or a point leads to a directory or nowhere. -/
def needsDirectory (path : Text) : Bool :=
  match (Path.split path).getLast? with
  | some last => last.isEmpty || last = ['.']
  | none => false

def lookup (tree : FileTree) (working : List Text) (path : Text) : Except ReadFault Entry :=
  if path.contains '\x00' then
    .error .nulInName
  else if path.isEmpty then
    .error .notFound
  else if pathLimit < Text.byteSize path then
    .error .nameTooLong
  else
    (tree.walk (if Path.isAbsolute path then [] else working) (Path.components path)).bind
      fun place =>
        match tree.entryAt place with
        | .ok (.file content) =>
            if needsDirectory path then .error .notDirectory else .ok (.file content)
        | answer => answer

def disk (tree : FileTree) (working : List Text) : Disk :=
  tree.lookup working

end FileTree

end TemplateDocs

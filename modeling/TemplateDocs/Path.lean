import TemplateDocs.Text.Basic

/-!
# Paths

A path is a text of components with slashes between them.  Empty components and
single points have no meaning; two points lead to the directory above.
-/

namespace TemplateDocs

namespace Path

def split (path : Text) : List Text :=
  Text.splitOn '/' path

def components (path : Text) : List Text :=
  (split path).filter fun part => !part.isEmpty && part != ['.']

def isAbsolute (path : Text) : Bool :=
  path.head? = some '/'

/-- The name of the file or directory that a path leads to, if the path ends in a name. -/
def fileName? (path : Text) : Option Text :=
  (components path).getLast?.filter fun part => part != ['.', '.']

/-- The name by which a path is known: its last component, or the path as it stands. -/
def displayName (path : Text) : Text :=
  (fileName? path).getD path

def join (directory name : Text) : Text :=
  if directory.isEmpty || directory.getLast? = some '/' then
    directory ++ name
  else
    directory ++ '/' :: name

def templateEnding : Text :=
  ['.', 'f', 't', 'l']

/-- A name with the ending of template files and something before it. -/
def isTemplate (name : Text) : Bool :=
  templateEnding.length < name.length &&
    Text.startsWith templateEnding.reverse name.reverse

end Path

end TemplateDocs

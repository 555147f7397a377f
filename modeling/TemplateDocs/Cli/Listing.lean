import TemplateDocs.Cli.Style
import TemplateDocs.Index.Basic

/-!
# The listing of an index

The listing shows each file with its description and its categories, each
definition with its parameters and the first sentence of its comment, and counts
at the end.
-/

namespace TemplateDocs

namespace Cli

/-- A definition as it is called: its kind, its name and its parameters. -/
def callForm (record : Record) : Text :=
  let rest :=
    match record.catchAll with
    | some name => [name ++ ['.', '.', '.']]
    | none => []
  record.kind.label ++ ' ' :: (record.name ++
    '(' :: (Text.join [',', ' '] (record.arguments ++ rest) ++ [')']))

def recordLine (color : Bool) (record : Record) : Text :=
  let summary := Text.trim record.doc.summary
  let call := "    ".toList ++ callForm record
  if summary.isEmpty then call else call ++ ' ' :: paint color .dimmed summary

def categoryLine (name : Text) : Text :=
  let label := if name.isEmpty then "(uncategorized)".toList else name
  "  [".toList ++ label ++ "]".toList

def categoryLines (color : Bool) (category : Text × List Record) : List Text :=
  categoryLine category.1 :: category.2.map (recordLine color)

def fileLines (color : Bool) (file : FileDoc) : List Text :=
  let summary := ((file.description.map DocComment.summary).map Text.trim).getD []
  let description := if summary.isEmpty then [] else ["  ".toList ++ summary]
  [[], paint color .bold file.filename] ++ description ++
    file.categories.entries.flatMap (categoryLines color)

def categoryCount (index : Index) : Nat :=
  (index.categories.keys.filter fun name => !name.isEmpty).length

def countLine (index : Index) : Text :=
  let categories := categoryCount index
  Text.ofNat index.files.length ++ " file(s), ".toList ++ Text.ofNat index.records.length ++
    " definition(s), ".toList ++ Text.ofNat categories ++ " categor".toList ++
    (if categories = 1 then "y".toList else "ies".toList)

def listing (color : Bool) (index : Index) : List Text :=
  index.files.flatMap (fileLines color) ++ [[], countLine index]

end Cli

end TemplateDocs

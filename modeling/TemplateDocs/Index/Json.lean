import TemplateDocs.Index.Basic
import TemplateDocs.Json.Basic

/-!
# The index as JSON

Every part of an index has its own field, so nothing of it is lost in writing.
-/

namespace TemplateDocs

def Position.toJson (position : Position) : Json :=
  .object [("line".toList, .number position.line), ("column".toList, .number position.column)]

def DefinitionKind.toJson (kind : DefinitionKind) : Json :=
  .string kind.label

def Param.toJson (param : Param) : Json :=
  .object [("name".toList, .string param.name),
    ("description".toList, .string param.description)]

def DocComment.toJson (comment : DocComment) : Json :=
  .object
    [("tags".toList, .object (comment.tags.entries.map fun entry => (entry.1, .string entry.2))),
      ("params".toList, .array (comment.params.map Param.toJson)),
      ("comment".toList, .string comment.comment),
      ("short_comment".toList, .string comment.summary)]

def DocComment.optionToJson : Option DocComment → Json
  | none => .null
  | some comment => comment.toJson

def Record.toJson (record : Record) : Json :=
  .object
    [("name".toList, .string record.name),
      ("type".toList, record.kind.toJson),
      ("arguments".toList, .ofTexts record.arguments),
      ("catch_all".toList, .ofOption record.catchAll),
      ("source".toList, .string record.source),
      ("filename".toList, .string record.filename),
      ("category".toList, .ofOption record.category),
      ("tags".toList, record.doc.toJson)]

def recordsToJson (records : List Record) : Json :=
  .array (records.map Record.toJson)

def Categories.toJson (categories : Categories) : Json :=
  .object (categories.entries.map fun entry => (entry.1, recordsToJson entry.2))

def FileDoc.toJson (file : FileDoc) : Json :=
  .object
    [("filename".toList, .string file.filename),
      ("description".toList, DocComment.optionToJson file.description),
      ("definitions".toList, recordsToJson file.records),
      ("categories".toList, file.categories.toJson)]

def Problem.toJson : Problem → Json
  | nestedBegin openName name =>
      .object [("NestedBegin".toList,
        .object [("open".toList, .string openName), ("name".toList, .string name)])]
  | endWithoutBegin => .string "EndWithoutBegin".toList
  | missingEnd name =>
      .object [("MissingEnd".toList, .object [("name".toList, .string name)])]

def FileDiagnostic.toJson (diagnostic : FileDiagnostic) : Json :=
  .object
    [("file".toList, .string diagnostic.file),
      ("kind".toList, diagnostic.diagnostic.problem.toJson),
      ("position".toList, diagnostic.diagnostic.position.toJson)]

def Failure.toJson (failure : Failure) : Json :=
  .object [("filename".toList, .string failure.filename),
    ("message".toList, .string failure.message)]

def Index.toJson (index : Index) : Json :=
  .object
    [("files".toList, .array (index.files.map FileDoc.toJson)),
      ("all_categories".toList, index.categories.toJson),
      ("all_definitions".toList, recordsToJson index.records),
      ("failures".toList, .array (index.failures.map Failure.toJson)),
      ("diagnostics".toList, .array (index.diagnostics.map FileDiagnostic.toJson))]

end TemplateDocs

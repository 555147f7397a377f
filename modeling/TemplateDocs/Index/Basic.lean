import TemplateDocs.Record
import TemplateDocs.Text.Lowercase

/-!
# Indexes

An index holds the documentation of many files: file by file, and for all files
together, both as one list and by category.  All lists of records are in the
order of their names without regard to case; records of equal names stay in the
order in which they came.
-/

namespace TemplateDocs

/-- Is the name of the first record not behind that of the second, case aside? -/
def Record.nameLe (first second : Record) : Bool :=
  Text.le (Text.lowercase first.name) (Text.lowercase second.name)

def sortRecords (records : List Record) : List Record :=
  records.mergeSort Record.nameLe

/-- Records by category; those without a category stand under the empty name. -/
abbrev Categories := Keyed (List Record)

namespace Categories

/-- Make sure that a category is listed, with or without records. -/
def ensure (categories : Categories) (name : Text) : Categories :=
  categories.update name fun records => records.getD []

/-- File a record under its category, behind those already there. -/
def file (categories : Categories) (record : Record) : Categories :=
  categories.update record.categoryKey fun records => records.getD [] ++ [record]

def extend (categories : Categories) (names : List Text) (records : List Record) :
    Categories :=
  records.foldl file (names.foldl ensure categories)

def sorted (categories : Categories) : Categories :=
  categories.mapValues sortRecords

end Categories

structure FileDoc where
  filename : Text
  description : Option DocComment
  records : List Record
  categories : Categories
deriving DecidableEq, Repr

def FileDoc.sorted (file : FileDoc) : FileDoc :=
  { file with records := sortRecords file.records, categories := file.categories.sorted }

structure Failure where
  filename : Text
  message : Text
deriving DecidableEq, Repr

structure Index where
  /-- The documented files in the order in which they were processed. -/
  files : List FileDoc
  categories : Categories
  records : List Record
  failures : List Failure
  diagnostics : List FileDiagnostic
deriving DecidableEq, Repr

namespace Index

def isComplete (index : Index) : Bool :=
  index.failures.isEmpty

def file? (index : Index) (filename : Text) : Option FileDoc :=
  index.files.find? fun file => file.filename = filename

end Index

/-- The files put together so far, with all records in the order in which they came. -/
structure Collection where
  files : List FileDoc
  categories : Categories
  records : List Record
deriving DecidableEq, Repr

namespace Collection

def empty : Collection :=
  ⟨[], .empty, []⟩

def addFile (collection : Collection) (filename : Text) (categories : List Text)
    (found : FileRecords) : Collection where
  files :=
    collection.files ++
      [⟨filename, found.description, found.records,
        Categories.extend .empty categories found.records⟩]
  categories := collection.categories.extend categories found.records
  records := collection.records ++ found.records

def sorted (collection : Collection) : Collection where
  files := collection.files.map FileDoc.sorted
  categories := collection.categories.sorted
  records := sortRecords collection.records

end Collection

end TemplateDocs

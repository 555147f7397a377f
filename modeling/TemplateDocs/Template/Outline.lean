import TemplateDocs.Fault
import TemplateDocs.Template.Header
import TemplateDocs.Template.Item

/-!
# Outlines

An outline is the nesting of a template: a run of leaves and definitions, each
definition with an outline of its own between its two tags.

`Levels` is what a run of items amounts to when it is read from its end: the
outline of its first level, then one level more for each closing tag that closes
nothing in the run.  An opening tag takes the first level as its inside and the
next closing tag as its own.  A fault keeps the levels before it, so that the
first fault of the whole source is the one reported.
-/

namespace TemplateDocs

/-- An item with the position of its first character and the one behind its last. -/
structure Piece where
  item : Item
  start : Position
  stop : Position
deriving DecidableEq, Repr

/-- The items of a source, located from the position of the first one on. -/
def Piece.locate (start : Position) : List Item → List Piece
  | [] => []
  | item :: rest =>
      let following := rest.head?.bind fun after => after.lexeme.head?
      let stop := start.advance item.lexeme following
      ⟨item, start, stop⟩ :: locate stop rest

@[simp] theorem Piece.map_item_locate (start : Position) (items : List Item) :
    (locate start items).map Piece.item = items := by
  induction items generalizing start with
  | nil => rfl
  | cons item rest ih => simp [locate, ih]

/-- The name and the parameters of a definition that has a name. -/
structure Signature where
  name : Text
  arguments : List Text
  catchAll : Option Text
deriving DecidableEq, Repr

def Header.signature? (header : Header) : Option Signature :=
  header.name.map fun name => ⟨name, header.arguments, header.catchAll⟩

structure Opening where
  kind : DefinitionKind
  /-- The text between keyword and `>`. -/
  header : Text
  signature : Signature
  start : Position
deriving DecidableEq, Repr

structure Closing where
  kind : DefinitionKind
  gap : Text
  start : Position
  stop : Position
deriving DecidableEq, Repr

def Opening.lexeme (opening : Opening) : Text :=
  (Item.opening opening.kind opening.header).lexeme

def Closing.lexeme (closing : Closing) : Text :=
  (Item.closing closing.kind closing.gap).lexeme

inductive Outline where
  | nil
  | leaf (part : Leaf) (start stop : Position) (next : Outline)
  | definition (opening : Opening) (inside : Outline) (closing : Closing) (next : Outline)
deriving DecidableEq, Repr

namespace Outline

def source : Outline → Text
  | nil => []
  | leaf part _ _ next => part.lexeme ++ next.source
  | definition opening inside closing next =>
      opening.lexeme ++ (inside.source ++ (closing.lexeme ++ next.source))

/--
The source text of an outline in front of a text.  Every character is put in place
once, however deep its definition stands.
-/
def sourceBefore (behind : Text) : Outline → Text
  | nil => behind
  | leaf part _ _ next => part.lexeme ++ next.sourceBefore behind
  | definition opening inside closing next =>
      opening.lexeme ++ inside.sourceBefore (closing.lexeme ++ next.sourceBefore behind)

theorem sourceBefore_eq (behind : Text) (outline : Outline) :
    outline.sourceBefore behind = outline.source ++ behind := by
  induction outline generalizing behind with
  | nil => rfl
  | leaf part start stop next ih => simp [sourceBefore, source, ih]
  | definition opening inside closing next ihInside ihNext =>
      simp [sourceBefore, source, ihInside, ihNext]

def definitionOf (opening : Opening) (inside : Outline) (closing : Closing) : Definition where
  name := opening.signature.name
  kind := opening.kind
  arguments := opening.signature.arguments
  catchAll := opening.signature.catchAll
  source := opening.lexeme ++ inside.sourceBefore closing.lexeme

end Outline

/-- What a run of items amounts to when it is read from its end. -/
inductive Levels where
  /-- All definitions of the run are closed in it. -/
  | done (outline : Outline)
  /-- Behind the outline stands a tag that closes a definition opened before the run. -/
  | closed (outline : Outline) (closing : Closing) (rest : Levels)
  | failed (fault : Fault)
deriving DecidableEq, Repr

namespace Levels

def mapFirst (change : Outline → Outline) : Levels → Levels
  | done outline => done (change outline)
  | closed outline closing rest => closed (change outline) closing rest
  | failed fault => failed fault

def unexpected (closing : Closing) : Fault :=
  .unexpectedClosing closing.lexeme closing.start

/-- Put an opening tag in front: it takes the first level and the tag that closes it. -/
def enclose (opening : Opening) : Levels → Levels
  | done _ => failed (.unclosedDefinition opening.kind opening.signature.name opening.start)
  | closed inside closing rest =>
      if closing.kind = opening.kind then
        rest.mapFirst (.definition opening inside closing)
      else
        failed (unexpected closing)
  | failed fault => failed fault

def add (piece : Piece) (levels : Levels) : Levels :=
  match piece.item with
  | .leaf part => levels.mapFirst (.leaf part piece.start piece.stop)
  | .closing kind gap => closed .nil ⟨kind, gap, piece.start, piece.stop⟩ levels
  | .openComment _ => failed (.unclosedComment piece.start)
  | .openHeader kind _ => failed (.unclosedDefinition kind [] piece.start)
  | .opening kind header =>
      match (Header.parse header).signature? with
      | some signature => levels.enclose ⟨kind, header, signature, piece.start⟩
      | none => failed (.missingName kind piece.start)

def ofPieces : List Piece → Levels
  | [] => done .nil
  | piece :: rest => (ofPieces rest).add piece

/-- A whole source is in order when no closing tag is left over. -/
def outline : Levels → Except Fault Outline
  | done outline => .ok outline
  | closed _ closing _ => .error (unexpected closing)
  | failed fault => .error fault

end Levels

def Outline.parse (source : Text) : Except Fault Outline :=
  (Levels.ofPieces (Piece.locate .origin (Item.scan source))).outline

end TemplateDocs

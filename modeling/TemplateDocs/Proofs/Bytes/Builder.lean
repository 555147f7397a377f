import TemplateDocs.Proofs.Bytes.Checked
import TemplateDocs.Proofs.Bytes.Scan
import TemplateDocs.Proofs.Template.Lexer
import TemplateDocs.Proofs.Tree.Draft

/-!
# Building a tree by offsets in bytes

A builder reads a source token by token and knows where it stands by offsets in bytes only:
where the buffered text starts, and where each open definition does.  All its steps are
checked.  It stands where a draft of the source does (`Draft.builder`), so no check fails,
and it comes to the tree or to the fault of the source (`parse_eq`).
-/

namespace TemplateDocs

open Checked

/-- An open definition, by the number of its node and the offset of its opening tag. -/
structure OpenDefinition where
  id : Nat
  kind : DefinitionKind
  start : Nat
deriving DecidableEq, Repr

/-- What has been built of a source. -/
structure Builder where
  tree : Tree
  opened : List OpenDefinition
  /-- Where the buffered text starts, if there is some. -/
  textStart : Option Nat
deriving DecidableEq, Repr

namespace Builder

def empty : Builder :=
  ⟨.empty, [], none⟩

def parent (builder : Builder) : Nat :=
  (builder.opened.head?.map OpenDefinition.id).getD 0

def push (source : Text) (builder : Builder) (content : Content) (first last : Nat) :
    Except Halt Builder := do
  let start ← position source first
  let stop ← position source last
  let _ ← found (builder.tree.node? builder.parent)
  .ok { builder with tree := builder.tree.push builder.parent content start stop }

def markText (builder : Builder) (offset : Nat) : Builder :=
  { builder with textStart := builder.textStart.or (some offset) }

def flushText (source : Text) (builder : Builder) (last : Nat) : Except Halt Builder :=
  match builder.textStart with
  | none => .ok builder
  | some first =>
      let flushed := { builder with textStart := none }
      if first < last then do
        let run ← slice source first last
        flushed.push source (.text run) first last
      else
        .ok flushed

def openDefinition (source : Text) (builder : Builder) (kind : DefinitionKind) (text : Text)
    (first last : Nat) : Except Halt Builder := do
  let header ← Checked.header text
  match header.signature? with
  | none => do
      let start ← position source first
      .error (.fault (.missingName kind start))
  | some signature => do
      let lexeme ← slice source first last
      let definition : Definition :=
        ⟨signature.name, kind, signature.arguments, signature.catchAll, lexeme⟩
      let pushed ← builder.push source (.definition definition) first last
      .ok { pushed with opened := ⟨builder.tree.size, kind, first⟩ :: builder.opened }

def unexpected (source : Text) (first last : Nat) : Except Halt Builder := do
  let start ← position source first
  let tag ← slice source first last
  .error (.fault (.unexpectedClosing tag.trim start))

def closeDefinition (source : Text) (builder : Builder) (kind : DefinitionKind)
    (first last : Nat) : Except Halt Builder :=
  match builder.opened with
  | [] => unexpected source first last
  | opened :: outer =>
      if kind = opened.kind then do
        let stop ← position source last
        let text ← slice source opened.start last
        let _ ← found (builder.tree.node? opened.id)
        .ok { builder with tree := builder.tree.close opened.id text stop, opened := outer }
      else
        unexpected source first last

def finish (source : Text) (builder : Builder) : Except Halt Tree := do
  let builder ← builder.flushText source source.byteSize
  let _ ← found (builder.tree.node? 0)
  let stop ← position source source.byteSize
  let tree := builder.tree.endAt stop
  match builder.opened with
  | [] => .ok tree
  | opened :: _ => do
      let node ← found (tree.node? opened.id)
      let name := (node.content.definition?.map Definition.name).getD []
      .error (.fault (.unclosedDefinition opened.kind name node.start))

/-! ## Reading tokens -/

def startsHeaderAt (source : Text) (offset : Nat) : Bool :=
  (source.bytes[offset]?).any (Text.isAnyOf [' ', '\t', '\r', '\n', '>', '('])

def readComment (source : Text) (builder : Builder) (offset inside : Nat) :
    Except Halt (Builder × Nat) := do
  let behind ← bytesFrom source inside
  match Text.findBytes? (Text.bytes Tag.commentClose) behind with
  | none => do
      let start ← position source offset
      .error (.fault (.unclosedComment start))
  | some count => do
      let last := inside + count + Tag.commentClose.byteSize
      let length ← minus last inside
      let next ← move source inside length
      let body ← slice source inside (inside + count)
      let builder ← builder.push source (.comment body) offset last
      .ok (builder, next)

def readOpening (source : Text) (builder : Builder) (kind : DefinitionKind)
    (offset inside : Nat) : Except Halt (Builder × Nat) :=
  match Tag.endOffset? source.bytes none 0 inside with
  | none => do
      let start ← position source offset
      .error (.fault (.unclosedDefinition kind [] start))
  | some last => do
      let length ← minus last inside
      let next ← move source inside length
      let headerEnd ← minus last 1
      let header ← slice source inside headerEnd
      let builder ← builder.openDefinition source kind header offset last
      .ok (builder, next)

/-- Read any other tag, from the end of its token on; one that never ends takes all the rest. -/
def readTag (source : Text) (builder : Builder) (offset inside : Nat) :
    Except Halt (Builder × Nat) := do
  let last := (Tag.endOffset? source.bytes none 0 inside).getD source.bytes.length
  let length ← minus last inside
  let next ← move source inside length
  let lexeme ← slice source offset last
  let builder ← builder.push source (.other (Tag.label lexeme)) offset last
  .ok (builder, next)

def readClosing (source : Text) (builder : Builder) (kind : DefinitionKind)
    (offset inside : Nat) : Except Halt (Builder × Nat) := do
  let builder ← builder.closeDefinition source kind offset inside
  .ok (builder, inside)

def readToken (source : Text) (builder : Builder) (offset inside : Nat) :
    RawToken → Except Halt (Builder × Nat)
  | .commentOpen => builder.readComment source offset inside
  | .opening kind =>
      if startsHeaderAt source inside then
        builder.readOpening source kind offset inside
      else
        builder.readTag source offset inside
  | .closing kind => builder.readClosing source kind offset inside
  | .directive => builder.readTag source offset inside
  | .text => .ok (builder.markText offset, inside)

/-- Read the next token of a source and what it starts; `rest` is what is left of the source. -/
def step (source : Text) (builder : Builder) (offset : Nat) (rest : Text) :
    Except Halt (Builder × Nat) :=
  match RawToken.lex rest with
  | (none, lexeme) | (some .text, lexeme) =>
      .ok (builder.markText offset, offset + lexeme.byteSize)
  | (some token, lexeme) => do
      let builder ← builder.flushText source offset
      builder.readToken source offset (offset + lexeme.byteSize) token

def run (source : Text) : Nat → Builder → Nat → Except Halt Tree
  | 0, _, _ => .error .misplaced
  | fuel + 1, builder, offset => do
      let rest ← found (Text.dropBytes? offset source)
      if rest = [] then
        builder.finish source
      else do
        let found ← builder.step source offset rest
        run source fuel found.1 found.2

/-- The tree of a source; every token takes at least one byte. -/
def parse (source : Text) : Except Halt Tree :=
  run source (source.byteSize + 1) empty 0

end Builder

end TemplateDocs

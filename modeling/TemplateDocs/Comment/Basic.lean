import TemplateDocs.Comment.Line
import TemplateDocs.Keyed
import TemplateDocs.Text.Lines

/-!
# Comments

A comment is read line by line.  The line that declares a parameter opens a
block: the lines of text behind it belong to the description of that parameter,
up to the next declaration or a blank line.  All other text is the body.  A tag
keeps the value it was given last, and so does a parameter, at the place of its
first declaration.
-/

namespace TemplateDocs

structure Param where
  name : Text
  /-- The description; further lines keep their line breaks. -/
  description : Text
deriving DecidableEq, Repr

structure DocComment where
  /-- The tags by their names, at sign included. -/
  tags : Keyed Text
  params : List Param
  /-- The body without its line breaks. -/
  comment : Text
  summary : Text
deriving DecidableEq, Repr

namespace DocComment

def empty : DocComment :=
  ⟨.empty, [], [], []⟩

def isEmpty (comment : DocComment) : Bool :=
  comment.tags.isEmpty && comment.params.isEmpty && comment.comment.isEmpty

/-- The value of a tag, named with its at sign. -/
def tag? (comment : DocComment) (name : Text) : Option Text :=
  comment.tags.get? name

def param? (comment : DocComment) (name : Text) : Option Param :=
  comment.params.find? fun param => param.name = name

/-- The text up to the first full stop, that included. -/
def firstSentence : Text → Text
  | [] => []
  | c :: rest => if c = '.' then ['.'] else c :: firstSentence rest

/-- A comment of which some lines have been read. -/
structure Draft where
  tags : Keyed Text
  params : List Param
  body : Text
  /-- The name of the parameter whose block is open. -/
  current : Option Text
deriving DecidableEq, Repr

def Draft.start : Draft :=
  ⟨.empty, [], [], none⟩

/-- Give a parameter a description, at its old place or at the end. -/
def declare (name description : Text) : List Param → List Param
  | [] => [⟨name, description⟩]
  | param :: rest =>
      if param.name = name then
        ⟨name, description⟩ :: rest
      else
        param :: declare name description rest

def extend (description line : Text) : Text :=
  if description.isEmpty || description.getLast? = some '\n' then
    description ++ line
  else
    description ++ '\n' :: line

def describe (name line : Text) (params : List Param) : List Param :=
  params.map fun param =>
    if param.name = name then
      { param with description := extend param.description line }
    else
      param

/-- Add a line of text to the open block, or else to the body. -/
def Draft.addText (draft : Draft) (captured : Text) : Draft :=
  let line := captured ++ ['\n']
  match draft.current with
  | some name => { draft with params := describe name line draft.params }
  | none => { draft with body := draft.body ++ line }

def Draft.read (draft : Draft) : CommentLine → Draft
  | .param name description =>
      { draft with params := declare name description draft.params, current := some name }
  | .tag name value => { draft with tags := draft.tags.insert name value }
  | .blank captured =>
      if draft.current.isSome then
        { draft with body := draft.body ++ ['\n'], current := none }
      else
        draft.addText captured
  | .text captured => draft.addText captured

def Draft.finish (draft : Draft) : DocComment :=
  let comment := draft.body.filter (· != '\n')
  ⟨draft.tags, draft.params, comment, firstSentence comment⟩

def parse (text : Text) : DocComment :=
  ((Text.lines text).foldl (fun draft line => draft.read (.ofText line)) Draft.start).finish

def defaultMarker : Char :=
  '-'

def isDoc (marker : Char) (text : Text) : Bool :=
  text.head? = some marker

/-- The text of a comment without the marker, if it starts with one. -/
def withoutMarker (marker : Char) (text : Text) : Text :=
  (Text.after? [marker] text).getD text

def parseMarked (marker : Char) (text : Text) : DocComment :=
  parse (withoutMarker marker text)

end DocComment

end TemplateDocs

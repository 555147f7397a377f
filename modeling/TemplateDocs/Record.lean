import TemplateDocs.Region

/-!
# Records

A record is a definition with everything the documentation says about it: the
file it stands in, its category, and the comment attached to it.  A comment is
attached to a definition when it is documentation and nothing but blank text
stands between the two.
-/

namespace TemplateDocs

structure Record where
  name : Text
  kind : DefinitionKind
  arguments : List Text
  catchAll : Option Text
  source : Text
  filename : Text
  /-- The category whose region the definition starts in. -/
  category : Option Text
  /-- The attached comment; it is empty when there is none. -/
  doc : DocComment
deriving DecidableEq, Repr

namespace Record

/-- The key under which a record is filed; records without a category share the empty one. -/
def categoryKey (record : Record) : Text :=
  record.category.getD []

end Record

structure FileRecords where
  records : List Record
  description : Option DocComment
deriving DecidableEq, Repr

namespace FileRecords

def firstSolid? (tree : Tree) (ids : List Nat) : Option Nat :=
  ids.find? fun id => !tree.isBlankText id

def commentText? (tree : Tree) (id : Nat) : Option Text :=
  (tree.content? id).bind Content.comment?

/-- The comment that stands right before a node, documentation or not. -/
def precedingComment? (tree : Tree) (id : Nat) : Option Nat :=
  (firstSolid? tree (tree.earlierSiblings id)).filter fun sibling =>
    (commentText? tree sibling).isSome

def attached? (marker : Char) (tree : Tree) (id : Nat) : Option Text :=
  ((precedingComment? tree id).bind (commentText? tree)).filter (DocComment.isDoc marker)

def recordOf (marker : Char) (tree : Tree) (regions : List Region) (filename : Text)
    (id : Nat) (definition : Definition) : Record where
  name := definition.name
  kind := definition.kind
  arguments := definition.arguments
  catchAll := definition.catchAll
  source := definition.source
  filename := filename
  category :=
    ((tree.node? id).bind fun node => Region.find? regions node.start).map Region.name
  doc := ((attached? marker tree id).map (DocComment.parseMarked marker)).getD .empty

/--
The documentation of the file: its first node apart from blank text, when that is
a comment, is documentation, and stands right before no definition.
-/
def description? (marker : Char) (tree : Tree) (taken : List Nat) : Option DocComment :=
  (firstSolid? tree (tree.children 0)).bind fun first =>
    if taken.contains first then
      none
    else
      ((commentText? tree first).filter (DocComment.isDoc marker)).map
        (DocComment.parseMarked marker)

def collect (marker : Char) (tree : Tree) (regions : List Region) (filename : Text) :
    FileRecords :=
  let definitions := tree.definitions
  let taken := definitions.filterMap fun entry => precedingComment? tree entry.1
  ⟨definitions.map fun entry => recordOf marker tree regions filename entry.1 entry.2,
    description? marker tree taken⟩

end FileRecords

end TemplateDocs

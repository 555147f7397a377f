import TemplateDocs.Template.Outline
import TemplateDocs.Tree.Basic

/-!
# Parsing

A template is parsed into a tree: its outline with every leaf and definition as a
node, numbered in the order of the source.
-/

namespace TemplateDocs

def Leaf.content : Leaf → Content
  | text run => .text run
  | comment body => .comment body
  | tag lexeme => .other (Tag.label lexeme)

namespace Tree

/-- Put an outline under a node, behind the children it has. -/
def addOutline (tree : Tree) (parent : Nat) : Outline → Tree
  | .nil => tree
  | .leaf part start stop next =>
      (tree.push parent part.content start stop).addOutline parent next
  | .definition opening inside closing next =>
      let definition := Outline.definitionOf opening inside closing
      let opened := tree.push parent (.definition definition) opening.start closing.stop
      (opened.addOutline tree.size inside).addOutline parent next

def ofOutline (outline : Outline) : Tree :=
  empty.addOutline 0 outline

def parse (source : Text) : Except Fault Tree :=
  (Outline.parse source).map ofOutline

end Tree

end TemplateDocs

import TemplateDocs.Proofs.LineBreak.Outline
import TemplateDocs.Tree.Parse

/-!
# Line breaks in trees

The tree of a source with returns has the nodes of the tree without, under the same
numbers, with the same parents and children and at the same positions.  Only the
texts that the nodes hold have returns.
-/

namespace TemplateDocs

open Text

def Definition.withReturns (definition : Definition) : Definition :=
  { definition with
    name := definition.name.withReturns
    source := definition.source.withReturns }

namespace Outline

theorem source_withReturns (outline : Outline) :
    outline.withReturns.source = outline.source.withReturns := by
  induction outline with
  | nil => rfl
  | leaf part start stop next ih =>
      have hpart : part.withReturns.lexeme = part.lexeme.withReturns :=
        Item.lexeme_withReturns (.leaf part)
      simp [withReturns, source, hpart, ih]
  | definition opening inside closing next ihInside ihNext =>
      simp [withReturns, source, Opening.lexeme_withReturns, Closing.lexeme_withReturns, ihInside,
        ihNext]

theorem definitionOf_withReturns (opening : Opening) (inside : Outline) (closing : Closing) :
    definitionOf opening.withReturns inside.withReturns closing.withReturns =
      (definitionOf opening inside closing).withReturns := by
  simp only [definitionOf, Definition.withReturns, sourceBefore_eq, Opening.lexeme_withReturns,
    Closing.lexeme_withReturns, source_withReturns, withReturns_append]
  rfl

end Outline

namespace Content

def withReturns : Content → Content
  | text run => text run.withReturns
  | comment body => comment body.withReturns
  | definition value => definition value.withReturns
  | other label => other label

theorem isBlankText_withReturns (content : Content) :
    content.withReturns.isBlankText = content.isBlankText := by
  cases content with
  | text run => exact allBlank_withReturns run
  | comment body => rfl
  | definition value => rfl
  | other label => rfl

theorem comment?_withReturns (content : Content) :
    content.withReturns.comment? = content.comment?.map Text.withReturns := by
  cases content <;> rfl

end Content

/-- The name of a tag ends before the first break. -/
theorem Tag.label_withReturns (lexeme : Text) : label lexeme.withReturns = label lexeme := by
  unfold label
  rw [dropWhile_withReturns (by decide), takeWhile_withReturns_of_false (by decide) (by decide)]

theorem Leaf.content_withReturns (part : Leaf) :
    part.withReturns.content = part.content.withReturns := by
  cases part with
  | text run => rfl
  | comment body => rfl
  | tag lexeme => exact congrArg Content.other (Tag.label_withReturns lexeme)

def Node.withReturns (node : Node) : Node :=
  { node with content := node.content.withReturns }

namespace Tree

def withReturns (tree : Tree) : Tree :=
  ⟨tree.nodes.map Node.withReturns⟩

@[simp] theorem size_withReturns (tree : Tree) : tree.withReturns.size = tree.size :=
  Array.size_map

@[simp] theorem node?_withReturns (tree : Tree) (id : Nat) :
    tree.withReturns.node? id = (tree.node? id).map Node.withReturns :=
  Array.getElem?_map

theorem push_withReturns (tree : Tree) (parent : Nat) (content : Content)
    (start stop : Position) :
    tree.withReturns.push parent content.withReturns start stop =
      (tree.push parent content start stop).withReturns := by
  apply ext_node?
  intro id
  have hgrown (node : Node) :
      tree.withReturns.grown parent stop id node.withReturns =
        (tree.grown parent stop id node).withReturns := by
    simp only [grown, Node.withReturns, size_withReturns]
  rw [node?_withReturns, node?_push, node?_push, size_withReturns, node?_withReturns]
  by_cases hid : id = tree.size
  · rw [if_pos hid, if_pos hid]
    exact congrArg some (hgrown ⟨content, start, stop, some parent, #[]⟩)
  · rw [if_neg hid, if_neg hid, Option.map_map, Option.map_map]
    exact congrArg (tree.node? id |>.map ·) (funext hgrown)

theorem addOutline_withReturns (tree : Tree) (parent : Nat) (outline : Outline) :
    tree.withReturns.addOutline parent outline.withReturns =
      (tree.addOutline parent outline).withReturns := by
  induction outline generalizing tree parent with
  | nil => rfl
  | leaf part start stop next ih =>
      simp only [Outline.withReturns, addOutline]
      rw [Leaf.content_withReturns, push_withReturns, ih]
  | definition opening inside closing next ihInside ihNext =>
      have hpush := push_withReturns tree parent
        (.definition (Outline.definitionOf opening inside closing)) opening.start closing.stop
      simp only [Outline.withReturns, addOutline, Outline.definitionOf_withReturns]
      rw [← ihNext, ← ihInside, ← hpush, size_withReturns]
      rfl

theorem ofOutline_withReturns (outline : Outline) :
    ofOutline outline.withReturns = (ofOutline outline).withReturns := by
  have hempty : empty.withReturns = empty := by
    simp [empty, withReturns, rootNode, Node.withReturns, Content.withReturns]
  rw [ofOutline, ofOutline, ← addOutline_withReturns, hempty]

theorem parse_withReturns {source : Text} (h : PlainBreaks source) :
    parse source.withReturns =
      ((parse source).map withReturns).mapError Fault.withReturns := by
  rw [parse, parse, Outline.parse_withReturns h]
  cases Outline.parse source with
  | error fault => rfl
  | ok outline => exact congrArg Except.ok (ofOutline_withReturns outline)

/-! ### What is looked up in a tree -/

@[simp] theorem content?_withReturns (tree : Tree) (id : Nat) :
    tree.withReturns.content? id = (tree.content? id).map Content.withReturns := by
  simp only [content?, node?_withReturns, Option.map_map]
  rfl

@[simp] theorem children_withReturns (tree : Tree) (id : Nat) :
    tree.withReturns.children id = tree.children id := by
  simp only [children, node?_withReturns, Option.map_map]
  rfl

@[simp] theorem parent?_withReturns (tree : Tree) (id : Nat) :
    tree.withReturns.parent? id = tree.parent? id := by
  simp only [parent?, node?_withReturns]
  cases tree.node? id <;> rfl

theorem walk_withReturns (tree : Tree) (fuel : Nat) (waiting : List Nat) :
    tree.withReturns.walk fuel waiting = tree.walk fuel waiting := by
  induction fuel generalizing waiting with
  | zero => rfl
  | succ fuel ih =>
      cases waiting with
      | nil => rfl
      | cons id waiting => simp only [walk, children_withReturns, ih]

@[simp] theorem preorder_withReturns (tree : Tree) :
    tree.withReturns.preorder = tree.preorder := by
  rw [preorder, size_withReturns, walk_withReturns]
  rfl

@[simp] theorem earlierSiblings_withReturns (tree : Tree) (id : Nat) :
    tree.withReturns.earlierSiblings id = tree.earlierSiblings id := by
  simp only [earlierSiblings, indexInParent?, parent?_withReturns, children_withReturns]

@[simp] theorem isBlankText_withReturns (tree : Tree) (id : Nat) :
    tree.withReturns.isBlankText id = tree.isBlankText id := by
  simp only [isBlankText, content?_withReturns, Option.any_map]
  cases tree.content? id with
  | none => rfl
  | some content => exact Content.isBlankText_withReturns content

theorem definitions_withReturns (tree : Tree) :
    tree.withReturns.definitions =
      tree.definitions.map fun entry => (entry.1, entry.2.withReturns) := by
  simp only [definitions, preorder_withReturns, List.map_filterMap]
  congr 1
  funext id
  rw [content?_withReturns]
  cases tree.content? id with
  | none => rfl
  | some content => cases content <;> rfl

end Tree

end TemplateDocs

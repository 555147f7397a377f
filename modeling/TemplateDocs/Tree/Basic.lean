import TemplateDocs.Definition
import TemplateDocs.Position
import TemplateDocs.Text.Blank

/-!
# Trees

A tree holds the nodes of a template under consecutive numbers, the root under
number zero.  Every node but the root is put in as the last child of a node that
is already there, so children stand in the order in which they came, and a child
has a larger number than its parent.
-/

namespace TemplateDocs

inductive Content where
  | text (run : Text)
  /-- A comment, by what stands between its delimiters. -/
  | comment (body : Text)
  | definition (value : Definition)
  /-- The root or a tag of no interest, by its name. -/
  | other (label : Text)
deriving DecidableEq, Repr

namespace Content

def isBlankText : Content → Bool
  | text run => Text.allBlank run
  | _ => false

def comment? : Content → Option Text
  | comment body => some body
  | _ => none

def definition? : Content → Option Definition
  | definition value => some value
  | _ => none

end Content

structure Node where
  content : Content
  start : Position
  stop : Position
  parent : Option Nat
  children : Array Nat
deriving DecidableEq, Repr

/-- Nodes under consecutive numbers; number zero is the root. -/
structure Tree where
  nodes : Array Node
deriving DecidableEq, Repr

namespace Tree

def rootNode : Node :=
  ⟨.other ['r', 'o', 'o', 't'], .origin, .origin, none, #[]⟩

def empty : Tree :=
  ⟨#[rootNode]⟩

def size (tree : Tree) : Nat :=
  tree.nodes.size

def isEmpty (tree : Tree) : Bool :=
  tree.size == 1

def node? (tree : Tree) (id : Nat) : Option Node :=
  tree.nodes[id]?

def content? (tree : Tree) (id : Nat) : Option Content :=
  (tree.node? id).map Node.content

def children (tree : Tree) (id : Nat) : List Nat :=
  ((tree.node? id).map fun node => node.children.toList).getD []

def parent? (tree : Tree) (id : Nat) : Option Nat :=
  (tree.node? id).bind Node.parent

def indexInParent? (tree : Tree) (id : Nat) : Option Nat :=
  (tree.parent? id).bind fun parent => (tree.children parent).idxOf? id

/--
Put in a node as the last child of `parent`.  Its number is the number of nodes
before, and the root now ends no earlier than the new node.
-/
def push (tree : Tree) (parent : Nat) (content : Content) (start stop : Position) : Tree :=
  let id := tree.size
  let nodes := tree.nodes.push ⟨content, start, stop, some parent, #[]⟩
  let nodes := nodes.modify parent fun node => { node with children := node.children.push id }
  ⟨nodes.modify 0 fun node => { node with stop := node.stop.max stop }⟩

theorem ext_node? {first second : Tree} (h : ∀ id, first.node? id = second.node? id) :
    first = second := by
  cases first
  cases second
  exact congrArg Tree.mk (Array.ext_getElem? h)

@[simp] theorem size_empty : empty.size = 1 :=
  rfl

@[simp] theorem size_push (tree : Tree) (parent : Nat) (content : Content)
    (start stop : Position) : (tree.push parent content start stop).size = tree.size + 1 := by
  simp [push, size]

/-- A node behind a push: the parent gets a child, and the root may end later. -/
def grown (tree : Tree) (parent : Nat) (stop : Position) (id : Nat) (node : Node) : Node :=
  { node with
    children := if parent = id then node.children.push tree.size else node.children
    stop := if 0 = id then node.stop.max stop else node.stop }

theorem node?_push (tree : Tree) (parent : Nat) (content : Content) (start stop : Position)
    (id : Nat) :
    (tree.push parent content start stop).node? id =
      (if id = tree.size then
          some ⟨content, start, stop, some parent, #[]⟩
        else
          tree.node? id).map (tree.grown parent stop id) := by
  have hfound (new : Node) :
      (tree.nodes.push new)[id]? = if id = tree.size then some new else tree.node? id := by
    by_cases hid : id = tree.size <;> simp_all [Array.getElem?_push, size, node?]
  unfold push
  rw [node?, Array.getElem?_modify, Array.getElem?_modify, hfound]
  generalize (if id = tree.size then _ else tree.node? id) = found
  cases found <;> by_cases hroot : 0 = id <;> by_cases hparent : parent = id <;>
    simp [grown, hroot, hparent]

theorem parent?_push (tree : Tree) (parent : Nat) (content : Content)
    (start stop : Position) (id : Nat) :
    (tree.push parent content start stop).parent? id =
      if id = tree.size then some parent else tree.parent? id := by
  simp only [parent?, node?_push]
  by_cases hid : id = tree.size
  · simp [hid, grown]
  · cases tree.node? id <;> simp [hid, grown]

theorem node?_eq_none {tree : Tree} {id : Nat} (h : tree.size ≤ id) : tree.node? id = none :=
  Array.getElem?_eq_none h

theorem children_push {tree : Tree} {parent : Nat} (h : parent < tree.size)
    (content : Content) (start stop : Position) (id : Nat) :
    (tree.push parent content start stop).children id =
      if id = parent then tree.children parent ++ [tree.size] else tree.children id := by
  have hnode : ∃ node, tree.node? parent = some node := ⟨_, Array.getElem?_eq_getElem h⟩
  obtain ⟨node, hnode⟩ := hnode
  have hnew : tree.node? tree.size = none := node?_eq_none (Nat.le_refl _)
  simp only [children, node?_push, Option.map_map, Function.comp_def, grown]
  by_cases hid : id = tree.size
  · simp [hid, hnew, show ¬ parent = tree.size by omega, show ¬ tree.size = parent by omega]
  · by_cases hparent : id = parent
    · simp [hparent, hnode, show ¬ parent = tree.size by omega]
    · simp [hid, hparent, Ne.symm hparent]

def rootStop (tree : Tree) : Position :=
  ((tree.node? 0).map Node.stop).getD .origin

/-- Fuelled walk: the listed nodes and all below them, each before those below it. -/
def walk (tree : Tree) : Nat → List Nat → List Nat
  | 0, _ => []
  | _ + 1, [] => []
  | fuel + 1, id :: waiting => id :: tree.walk fuel (tree.children id ++ waiting)

def preorder (tree : Tree) : List Nat :=
  tree.walk tree.size [0]

def definitions (tree : Tree) : List (Nat × Definition) :=
  tree.preorder.filterMap fun id =>
    ((tree.content? id).bind Content.definition?).map fun definition => (id, definition)

/-- The siblings before a node, the nearest first. -/
def earlierSiblings (tree : Tree) (id : Nat) : List Nat :=
  match tree.parent? id, tree.indexInParent? id with
  | some parent, some index => ((tree.children parent).take index).reverse
  | _, _ => []

def isBlankText (tree : Tree) (id : Nat) : Bool :=
  (tree.content? id).any Content.isBlankText

end Tree

end TemplateDocs

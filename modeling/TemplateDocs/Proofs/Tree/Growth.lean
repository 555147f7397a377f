import TemplateDocs.Tree.Parse

/-!
# Trees that grow by pushes

A tree grows by nodes that are put in one after the other, each under a node that is
there already.  Whatever the run of pushes, every node but the root is filed once, under
its own parent, and the children of a node stand in the order of their numbers
(`Rooted.grow`).  The trees of templates are such trees (`exists_pushes_of_parse`).
-/

namespace TemplateDocs

namespace Position

def IsLatest (position : Position) (positions : List Position) : Prop :=
  position ∈ positions ∧ ∀ other ∈ positions, ¬ position < other

theorem isLatest_singleton (position : Position) : position.IsLatest [position] := by
  refine ⟨List.mem_singleton_self position, fun other hother => ?_⟩
  rw [List.mem_singleton.mp hother]
  exact lt_irrefl position

theorem IsLatest.of_max {position first second : Position} {rest : List Position}
    (h : position.IsLatest (first.max second :: rest)) :
    position.IsLatest (first :: second :: rest) := by
  obtain ⟨hmem, hlatest⟩ := h
  have hmax : ¬ position < first.max second := hlatest _ List.mem_cons_self
  have hrest : ∀ other ∈ rest, ¬ position < other := fun other hother =>
    hlatest other (List.mem_cons_of_mem _ hother)
  simp only [IsLatest, List.mem_cons, forall_eq_or_imp] at hmem ⊢
  by_cases hlt : first < second
  · rw [max, if_pos hlt] at hmem hmax
    exact ⟨.inr hmem, fun hfirst => hmax (lt_trans hfirst hlt), hmax, hrest⟩
  · rw [max, if_neg hlt] at hmem hmax
    have hsecond : ¬ position < second := by
      rw [lt_def] at *
      omega
    exact ⟨hmem.imp_right .inr, hmax, hsecond, hrest⟩

end Position

namespace Tree

structure Push where
  parent : Nat
  content : Content
  start : Position
  stop : Position
deriving DecidableEq, Repr

def Push.onto (tree : Tree) (push : Push) : Tree :=
  tree.push push.parent push.content push.start push.stop

/-- The tree behind a run of pushes. -/
def grow (tree : Tree) (pushes : List Push) : Tree :=
  pushes.foldl Push.onto tree

/-- Every push finds its parent in the tree. -/
def Admits (tree : Tree) : List Push → Prop
  | [] => True
  | push :: rest => push.parent < tree.size ∧ (push.onto tree).Admits rest

@[simp] theorem size_onto (tree : Tree) (push : Push) :
    (push.onto tree).size = tree.size + 1 :=
  size_push ..

@[simp] theorem size_grow (tree : Tree) (pushes : List Push) :
    (tree.grow pushes).size = tree.size + pushes.length := by
  induction pushes generalizing tree with
  | nil => rfl
  | cons push rest ih =>
      rw [grow, List.foldl_cons, ← grow, ih, size_onto, List.length_cons]
      omega

theorem grow_append (tree : Tree) (first second : List Push) :
    tree.grow (first ++ second) = (tree.grow first).grow second :=
  List.foldl_append ..

theorem Admits.append {tree : Tree} {first second : List Push} (hfirst : tree.Admits first)
    (hsecond : (tree.grow first).Admits second) : tree.Admits (first ++ second) := by
  induction first generalizing tree with
  | nil => exact hsecond
  | cons push rest ih => exact ⟨hfirst.1, ih hfirst.2 hsecond⟩

theorem lt_size_of_parent? {tree : Tree} {id parent : Nat} (h : tree.parent? id = some parent) :
    id < tree.size := by
  rcases Nat.lt_or_ge id tree.size with hlt | hge
  · exact hlt
  · rw [parent?, node?_eq_none hge] at h
    cases h

/-! ## Filing -/

/--
Every node but the root has a parent with a smaller number, and is a child of that node
and of no other; children stand in the order of their numbers.
-/
structure Rooted (tree : Tree) : Prop where
  pos : 0 < tree.size
  root : tree.parent? 0 = none
  parent : ∀ id, 0 < id → id < tree.size → ∃ parent < id, tree.parent? id = some parent
  mem_children : ∀ parent id, id ∈ tree.children parent ↔ tree.parent? id = some parent
  ascending : ∀ id, (tree.children id).Pairwise (· < ·)

theorem rooted_empty : empty.Rooted where
  pos := Nat.one_pos
  root := rfl
  parent := fun id hpos hlt => absurd hlt (Nat.not_lt.mpr hpos)
  mem_children := by
    intro parent id
    have hchildren : empty.children parent = [] := by
      rcases parent with _ | parent <;> rfl
    have hparent : empty.parent? id = none := by
      rcases id with _ | id <;> rfl
    simp [hchildren, hparent]
  ascending := by
    intro id
    rcases id with _ | id <;> exact List.Pairwise.nil

namespace Rooted

variable {tree : Tree}

theorem lt_of_parent? (h : tree.Rooted) {id parent : Nat}
    (hparent : tree.parent? id = some parent) : parent < id := by
  have hpos : 0 < id := by
    rcases Nat.eq_zero_or_pos id with rfl | hpos
    · rw [h.root] at hparent
      cases hparent
    · exact hpos
  obtain ⟨found, hlt, hfound⟩ := h.parent id hpos (lt_size_of_parent? hparent)
  rw [hparent, Option.some.injEq] at hfound
  exact hfound ▸ hlt

theorem nodup_children (h : tree.Rooted) (id : Nat) : (tree.children id).Nodup :=
  (h.ascending id).imp Nat.ne_of_lt

theorem count_children (h : tree.Rooted) {id parent : Nat}
    (hparent : tree.parent? id = some parent) (other : Nat) :
    (tree.children other).count id = if other = parent then 1 else 0 := by
  rw [(h.nodup_children other).count]
  simp only [h.mem_children, hparent, Option.some.injEq, eq_comm]

/-- A new node goes behind the children of its parent, and all others stay where they are. -/
theorem push (h : tree.Rooted) {parent : Nat} (hparent : parent < tree.size) (content : Content)
    (start stop : Position) : (tree.push parent content start stop).Rooted where
  pos := by simp
  root := by
    rw [parent?_push, if_neg (Nat.ne_of_lt h.pos)]
    exact h.root
  parent := by
    intro id hpos hlt
    rw [size_push] at hlt
    rw [parent?_push]
    by_cases hid : id = tree.size
    · exact ⟨parent, hid ▸ hparent, if_pos hid⟩
    · rw [if_neg hid]
      exact h.parent id hpos (by omega)
  mem_children := by
    intro other id
    have hnew : tree.parent? tree.size ≠ some other := fun hfound =>
      Nat.lt_irrefl _ (lt_size_of_parent? hfound)
    rw [parent?_push, children_push hparent]
    by_cases hother : other = parent <;> by_cases hid : id = tree.size
    · simp [hother, hid]
    · simp [hother, hid, h.mem_children]
    · simp [hother, hid, h.mem_children, hnew, Ne.symm hother]
    · simp [hother, hid, h.mem_children]
  ascending := by
    intro id
    rw [children_push hparent]
    split
    · refine List.pairwise_append.mpr ⟨h.ascending parent, List.pairwise_singleton _ _, ?_⟩
      intro child hchild new hnew
      rw [List.mem_singleton.mp hnew]
      exact lt_size_of_parent? ((h.mem_children parent child).mp hchild)
    · exact h.ascending id

theorem grow (h : tree.Rooted) {pushes : List Push} (hpushes : tree.Admits pushes) :
    (tree.grow pushes).Rooted := by
  induction pushes generalizing tree with
  | nil => exact h
  | cons push rest ih => exact ih (h.push hpushes.1 _ _ _) hpushes.2

end Rooted

/-! ## The end of the root -/

theorem node?_zero_onto {tree : Tree} {root : Node} (h : tree.node? 0 = some root)
    (push : Push) :
    ∃ next, (push.onto tree).node? 0 = some next ∧ next.stop = root.stop.max push.stop := by
  have hne : 0 ≠ tree.size := by
    intro hsize
    rw [node?_eq_none (Nat.le_of_eq hsize.symm)] at h
    cases h
  refine ⟨tree.grown push.parent push.stop 0 root, ?_, rfl⟩
  rw [Push.onto, node?_push, if_neg hne, h, Option.map_some]

/-- The root ends with the latest of its own end before and the ends put in. -/
theorem isLatest_stop_grow {tree : Tree} {root : Node} (h : tree.node? 0 = some root)
    (pushes : List Push) :
    ∃ last, (tree.grow pushes).node? 0 = some last ∧
      last.stop.IsLatest (root.stop :: pushes.map Push.stop) := by
  induction pushes generalizing tree root with
  | nil => exact ⟨root, h, Position.isLatest_singleton root.stop⟩
  | cons push rest ih =>
      obtain ⟨next, hnext, hstop⟩ := node?_zero_onto h push
      obtain ⟨last, hlast, hlatest⟩ := ih hnext
      rw [hstop] at hlatest
      exact ⟨last, hlast, hlatest.of_max⟩

/-! ## The trees of templates -/

theorem exists_pushes_addOutline {tree : Tree} {parent : Nat} (hparent : parent < tree.size)
    (outline : Outline) :
    ∃ pushes, tree.Admits pushes ∧ tree.addOutline parent outline = tree.grow pushes := by
  induction outline generalizing tree parent with
  | nil => exact ⟨[], trivial, rfl⟩
  | leaf part start stop next ih =>
      let first : Push := ⟨parent, part.content, start, stop⟩
      have hsize : parent < (first.onto tree).size := by
        rw [size_onto]
        omega
      obtain ⟨rest, hrest, heq⟩ := ih hsize
      exact ⟨first :: rest, ⟨hparent, hrest⟩, heq⟩
  | definition opening inside closing next ihInside ihNext =>
      let first : Push :=
        ⟨parent, .definition (Outline.definitionOf opening inside closing), opening.start,
          closing.stop⟩
      have hopened : tree.size < (first.onto tree).size := by
        rw [size_onto]
        omega
      obtain ⟨inner, hinner, heqInner⟩ := ihInside hopened
      have hsize : parent < ((first.onto tree).grow inner).size := by
        rw [size_grow, size_onto]
        omega
      obtain ⟨rest, hrest, heqRest⟩ := ihNext hsize
      refine ⟨first :: inner ++ rest, ⟨hparent, hinner.append hrest⟩, ?_⟩
      calc
        tree.addOutline parent (.definition opening inside closing next) =
            ((first.onto tree).addOutline tree.size inside).addOutline parent next := rfl
        _ = ((first.onto tree).grow inner).grow rest := by rw [heqInner, heqRest]
        _ = tree.grow (first :: inner ++ rest) := (grow_append (first.onto tree) inner rest).symm

theorem exists_pushes_of_parse {source : Text} {tree : Tree} (h : parse source = .ok tree) :
    ∃ pushes, empty.Admits pushes ∧ tree = empty.grow pushes := by
  cases houtline : Outline.parse source with
  | error fault =>
      rw [parse, houtline] at h
      cases h
  | ok outline =>
      rw [parse, houtline] at h
      cases h
      exact exists_pushes_addOutline Nat.one_pos outline

end Tree

end TemplateDocs

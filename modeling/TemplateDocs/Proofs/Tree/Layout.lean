import TemplateDocs.Tree.Parse

/-!
# The layout of a tree

The parts of an outline stand in its tree under consecutive numbers in the order
of the source, the inside of a definition right behind the definition
(`standsIn_ofOutline`).  So document order is the order of the numbers
(`preorder_ofOutline`).
-/

namespace TemplateDocs

namespace Outline

def count : Outline → Nat
  | nil => 0
  | leaf _ _ _ next => next.count + 1
  | definition _ inside _ next => inside.count + next.count + 1

/-- The numbers of the parts of the first level, when all parts are numbered from `first` on. -/
def topIds (first : Nat) : Outline → List Nat
  | nil => []
  | leaf _ _ _ next => first :: next.topIds (first + 1)
  | definition _ inside _ next => first :: next.topIds (first + inside.count + 1)

/-- The latest of a position and the ends of the parts. -/
def latest (position : Position) : Outline → Position
  | nil => position
  | leaf _ _ stop next => next.latest (position.max stop)
  | definition _ inside closing next =>
      next.latest (inside.latest (position.max closing.stop))

/-- The parts of an outline are the nodes of a tree from number `first` on. -/
def StandsIn (tree : Tree) (parent first : Nat) : Outline → Prop
  | nil => True
  | leaf part start stop next =>
      tree.node? first = some ⟨part.content, start, stop, some parent, #[]⟩ ∧
        next.StandsIn tree parent (first + 1)
  | definition opening inside closing next =>
      tree.node? first =
          some ⟨.definition (definitionOf opening inside closing), opening.start, closing.stop,
            some parent, (inside.topIds (first + 1)).toArray⟩ ∧
        inside.StandsIn tree first (first + 1) ∧
        next.StandsIn tree parent (first + inside.count + 1)

theorem StandsIn.congr {tree other : Tree} {parent first : Nat} {outline : Outline}
    (h : outline.StandsIn tree parent first)
    (hsame : ∀ id, first ≤ id → id < first + outline.count → other.node? id = tree.node? id) :
    outline.StandsIn other parent first := by
  induction outline generalizing parent first with
  | nil => trivial
  | leaf part start stop next ih =>
      obtain ⟨hnode, hnext⟩ := h
      simp only [count] at hsame
      refine ⟨?_, ih hnext fun id hle hlt => hsame id (by omega) (by omega)⟩
      rw [hsame first (by omega) (by omega), hnode]
  | definition opening inside closing next ihInside ihNext =>
      obtain ⟨hnode, hinside, hnext⟩ := h
      simp only [count] at hsame
      refine ⟨?_, ihInside hinside fun id hle hlt => hsame id (by omega) (by omega),
        ihNext hnext fun id hle hlt => hsame id (by omega) (by omega)⟩
      rw [hsame first (by omega) (by omega), hnode]

theorem StandsIn.node?_eq {tree other : Tree} {parent first : Nat} {outline : Outline}
    (h : outline.StandsIn tree parent first) (hother : outline.StandsIn other parent first)
    {id : Nat} (hle : first ≤ id) (hlt : id < first + outline.count) :
    other.node? id = tree.node? id := by
  induction outline generalizing parent first with
  | nil =>
      rw [count] at hlt
      omega
  | leaf part start stop next ih =>
      rw [count] at hlt
      rcases Nat.eq_or_lt_of_le hle with rfl | hbehind
      · rw [h.1, hother.1]
      · exact ih h.2 hother.2 hbehind (by omega)
  | definition opening inside closing next ihInside ihNext =>
      rw [count] at hlt
      rcases Nat.eq_or_lt_of_le hle with rfl | hbehind
      · rw [h.1, hother.1]
      · by_cases hinner : id < first + 1 + inside.count
        · exact ihInside h.2.1 hother.2.1 hbehind hinner
        · exact ihNext h.2.2 hother.2.2 (by omega) (by omega)

end Outline

namespace Tree

@[simp] theorem size_addOutline (tree : Tree) (parent : Nat) (outline : Outline) :
    (tree.addOutline parent outline).size = tree.size + outline.count := by
  induction outline generalizing tree parent with
  | nil => rfl
  | leaf part start stop next ih =>
      rw [addOutline, ih, size_push, Outline.count]
      omega
  | definition opening inside closing next ihInside ihNext =>
      simp only [addOutline, ihNext, ihInside, size_push, Outline.count]
      omega

/-- An old node behind an outline: the parent gets children, and the root may end later. -/
def adopting (parent : Nat) (ids : List Nat) (outline : Outline) (id : Nat)
    (node : Node) : Node :=
  { node with
    children := if parent = id then node.children ++ ids.toArray else node.children
    stop := if 0 = id then outline.latest node.stop else node.stop }

theorem node?_addOutline {tree : Tree} {parent : Nat} (hparent : parent < tree.size)
    (outline : Outline) {id : Nat} (hid : id < tree.size) :
    (tree.addOutline parent outline).node? id =
      (tree.node? id).map (adopting parent (outline.topIds tree.size) outline id) := by
  have hne : id ≠ tree.size := Nat.ne_of_lt hid
  induction outline generalizing tree parent with
  | nil =>
      rw [addOutline]
      cases tree.node? id <;> simp [adopting, Outline.topIds, Outline.latest]
  | leaf part start stop next ih =>
      have hold := tree.node?_push parent part.content start stop id
      rw [if_neg hne] at hold
      rw [addOutline, ih (by simp; omega) (by simp; omega) (by simp; omega), hold]
      cases tree.node? id with
      | none => rfl
      | some node =>
          by_cases hroot : 0 = id <;> by_cases hown : parent = id <;>
            simp [adopting, grown, hroot, hown, Outline.topIds, Outline.latest]
  | definition opening inside closing next ihInside ihNext =>
      have hold := tree.node?_push parent
        (.definition (Outline.definitionOf opening inside closing)) opening.start closing.stop id
      rw [if_neg hne] at hold
      simp only [addOutline]
      rw [ihNext (by simp; omega) (by simp; omega) (by simp; omega),
        ihInside (by simp) (by simp; omega) (by simp; omega), hold]
      cases tree.node? id with
      | none => rfl
      | some node =>
          by_cases hroot : 0 = id <;> by_cases hown : parent = id <;>
            simp [adopting, grown, hroot, hown, Ne.symm hne, Outline.topIds, Outline.latest,
              Nat.add_right_comm]

/-- Below another parent than the node itself and the root, an old node stays as it is. -/
theorem node?_addOutline_of_ne {tree : Tree} {parent : Nat} (hparent : parent < tree.size)
    (outline : Outline) {id : Nat} (hid : id < tree.size) (hown : parent ≠ id)
    (hroot : 0 ≠ id) : (tree.addOutline parent outline).node? id = tree.node? id := by
  rw [node?_addOutline hparent outline hid]
  cases tree.node? id with
  | none => rfl
  | some node => simp [adopting, hown, hroot]

theorem standsIn_addOutline {tree : Tree} {parent : Nat} (hparent : parent < tree.size)
    (outline : Outline) :
    outline.StandsIn (tree.addOutline parent outline) parent tree.size := by
  induction outline generalizing tree parent with
  | nil => trivial
  | leaf part start stop next ih =>
      rw [addOutline]
      let pushed := tree.push parent part.content start stop
      have hsize : pushed.size = tree.size + 1 := size_push ..
      have hnext : next.StandsIn (pushed.addOutline parent next) parent pushed.size :=
        ih (by omega)
      have hnode : (pushed.addOutline parent next).node? tree.size = pushed.node? tree.size :=
        node?_addOutline_of_ne (by omega) next (by omega) (by omega) (by omega)
      refine ⟨?_, hsize ▸ hnext⟩
      rw [hnode, node?_push, if_pos rfl, Option.map_some]
      simp [grown, show parent ≠ tree.size by omega, show 0 ≠ tree.size by omega]
  | definition opening inside closing next ihInside ihNext =>
      simp only [addOutline]
      let opened := tree.push parent (.definition (Outline.definitionOf opening inside closing))
        opening.start closing.stop
      let inner := opened.addOutline tree.size inside
      have hopened : opened.size = tree.size + 1 := size_push ..
      have hinner : inner.size = tree.size + inside.count + 1 := by
        rw [size_addOutline, hopened]
        omega
      have hinside : inside.StandsIn inner tree.size opened.size := ihInside (by omega)
      have hnext : next.StandsIn (inner.addOutline parent next) parent inner.size :=
        ihNext (by omega)
      -- Behind the inside only the parent and the root still change.
      have hframe (id : Nat) (hle : tree.size ≤ id) (hlt : id < inner.size) :
          (inner.addOutline parent next).node? id = inner.node? id :=
        node?_addOutline_of_ne (by omega) next hlt (by omega) (by omega)
      refine ⟨?_, ?_, hinner ▸ hnext⟩
      · rw [hframe tree.size (Nat.le_refl _) (by omega),
          node?_addOutline (by omega) inside (by omega), node?_push, if_pos rfl,
          Option.map_some, Option.map_some]
        simp [grown, adopting, hopened, show parent ≠ tree.size by omega,
          show 0 ≠ tree.size by omega]
      · rw [hopened] at hinside
        exact hinside.congr fun id hle hlt => hframe id (by omega) (by omega)

/-! ## The tree of an outline -/

@[simp] theorem size_ofOutline (outline : Outline) :
    (ofOutline outline).size = outline.count + 1 := by
  rw [ofOutline, size_addOutline, size_empty, Nat.add_comm]

theorem standsIn_ofOutline (outline : Outline) :
    outline.StandsIn (ofOutline outline) 0 1 :=
  standsIn_addOutline Nat.one_pos outline

theorem node?_zero_ofOutline (outline : Outline) :
    (ofOutline outline).node? 0 =
      some { rootNode with
        children := (outline.topIds 1).toArray
        stop := outline.latest .origin } := by
  rw [ofOutline, node?_addOutline Nat.one_pos outline Nat.one_pos]
  simp [empty, node?, adopting, rootNode, size]

theorem children_zero_ofOutline (outline : Outline) :
    (ofOutline outline).children 0 = outline.topIds 1 := by
  simp [children, node?_zero_ofOutline]

/-! ## Document order -/

theorem children_eq_of_node? {tree : Tree} {id : Nat} {node : Node}
    (h : tree.node? id = some node) : tree.children id = node.children.toList := by
  simp [children, h]

theorem mem_definitions_iff {tree : Tree} {id : Nat} {definition : Definition} :
    (id, definition) ∈ tree.definitions ↔
      id ∈ tree.preorder ∧ tree.content? id = some (.definition definition) := by
  have hcontent {content : Content} {value : Definition} :
      content.definition? = some value ↔ content = .definition value := by
    cases content <;> simp [Content.definition?]
  simp only [definitions, List.mem_filterMap, Option.map_eq_some_iff, Option.bind_eq_some_iff,
    hcontent, Prod.mk.injEq]
  constructor
  · rintro ⟨_, hmem, _, ⟨_, hid, rfl⟩, rfl, rfl⟩
    exact ⟨hmem, hid⟩
  · rintro ⟨hmem, hid⟩
    exact ⟨id, hmem, definition, ⟨_, hid, rfl⟩, rfl, rfl⟩

theorem walk_topIds {tree : Tree} {parent first : Nat} {outline : Outline}
    (h : outline.StandsIn tree parent first) (fuel : Nat) (waiting : List Nat) :
    tree.walk (outline.count + fuel) (outline.topIds first ++ waiting) =
      List.range' first outline.count ++ tree.walk fuel waiting := by
  induction outline generalizing parent first fuel waiting with
  | nil => simp [Outline.count, Outline.topIds]
  | leaf part start stop next ih =>
      obtain ⟨hnode, hnext⟩ := h
      rw [Outline.count, Nat.add_right_comm, Outline.topIds, List.cons_append, walk,
        children_eq_of_node? hnode, List.range'_succ, List.cons_append, List.nil_append]
      rw [ih hnext]
  | definition opening inside closing next ihInside ihNext =>
      obtain ⟨hnode, hinside, hnext⟩ := h
      rw [Outline.count, Nat.add_right_comm, Outline.topIds, List.cons_append, walk,
        children_eq_of_node? hnode, Nat.add_assoc, ihInside hinside, ihNext hnext]
      rw [List.range'_succ, List.cons_append, ← List.range'_append_1, List.append_assoc,
        Nat.add_right_comm first inside.count 1]

theorem preorder_ofOutline (outline : Outline) :
    (ofOutline outline).preorder = List.range (ofOutline outline).size := by
  have hwalk := walk_topIds (standsIn_ofOutline outline) 0 []
  rw [List.append_nil, Nat.add_zero, ← children_zero_ofOutline] at hwalk
  rw [preorder, size_ofOutline, walk, List.append_nil, hwalk, List.range_eq_range',
    List.range'_succ, walk, List.append_nil]

theorem parse_eq_ok_iff {source : Text} {tree : Tree} :
    parse source = .ok tree ↔
      ∃ outline, Outline.parse source = .ok outline ∧ ofOutline outline = tree := by
  unfold parse
  cases Outline.parse source with
  | error fault => simp [Except.map]
  | ok outline => simp [Except.map]

theorem preorder_of_parse {source : Text} {tree : Tree} (h : parse source = .ok tree) {id : Nat}
    (hid : id < tree.size) :
    tree.preorder = List.range id ++ id :: List.range' (id + 1) (tree.size - (id + 1)) := by
  obtain ⟨outline, -, rfl⟩ := parse_eq_ok_iff.mp h
  rw [preorder_ofOutline, List.range_eq_range', List.range_eq_range', ← List.range'_succ]
  have hsplit := List.range'_append_1 (s := 0) (m := id)
    (n := (ofOutline outline).size - (id + 1) + 1)
  rw [Nat.zero_add] at hsplit
  rw [hsplit]
  congr 1
  omega

theorem node?_zero_of_parse {source : Text} {tree : Tree} (h : parse source = .ok tree) :
    ∃ node, tree.node? 0 = some node ∧ node.content = rootNode.content := by
  obtain ⟨outline, -, rfl⟩ := parse_eq_ok_iff.mp h
  exact ⟨_, node?_zero_ofOutline outline, rfl⟩

theorem parse_eq_error_iff {source : Text} {fault : Fault} :
    parse source = .error fault ↔ Outline.parse source = .error fault := by
  unfold parse
  cases Outline.parse source with
  | error other => simp [Except.map]
  | ok outline => simp [Except.map]

end Tree

end TemplateDocs

import TemplateDocs.Proofs.Concatenation.Tree
import TemplateDocs.Proofs.Template.FirstFault
import TemplateDocs.Proofs.Template.Token

/-!
# Drafts

A tree can also be built from the start of the source on.  A draft is what has been built so
far: an opening tag puts in a node that ends with the tag, and the closing tag gives the node
its end and its source afterwards.  The last draft of a source is the tree that is found from
its end (`parse_eq_readAll`).
-/

namespace TemplateDocs

def Content.withSource (text : Text) : Content → Content
  | definition value => definition { value with source := text }
  | content => content

def Node.closed (text : Text) (stop : Position) (node : Node) : Node :=
  { node with content := node.content.withSource text, stop := stop }

/-- The definition of an opening tag before its closing tag is read. -/
def Opening.provisional (opening : Opening) : Definition where
  name := opening.signature.name
  kind := opening.kind
  arguments := opening.signature.arguments
  catchAll := opening.signature.catchAll
  source := opening.lexeme

namespace Tree

def close (tree : Tree) (id : Nat) (text : Text) (stop : Position) : Tree :=
  ⟨tree.nodes.modify id (Node.closed text stop)⟩

def endAt (tree : Tree) (stop : Position) : Tree :=
  ⟨tree.nodes.modify 0 fun node => { node with stop := stop }⟩

@[simp] theorem size_close (tree : Tree) (id : Nat) (text : Text) (stop : Position) :
    (tree.close id text stop).size = tree.size :=
  Array.size_modify

@[simp] theorem size_endAt (tree : Tree) (stop : Position) : (tree.endAt stop).size = tree.size :=
  Array.size_modify

theorem node?_close (tree : Tree) (id : Nat) (text : Text) (stop : Position) (other : Nat) :
    (tree.close id text stop).node? other =
      if id = other then (tree.node? other).map (Node.closed text stop) else tree.node? other :=
  Array.getElem?_modify

theorem node?_endAt (tree : Tree) (stop : Position) (id : Nat) :
    (tree.endAt stop).node? id =
      if 0 = id then (tree.node? id).map fun node => { node with stop := stop }
      else tree.node? id :=
  Array.getElem?_modify

theorem grown_eq_of_size {first second : Tree} (h : first.size = second.size) :
    first.grown = second.grown := by
  funext parent stop id node
  rw [grown, grown, h]

theorem endAt_rootStop (tree : Tree) : tree.endAt tree.rootStop = tree := by
  apply ext_node?
  intro id
  rw [node?_endAt, rootStop]
  split
  · next hroot =>
      subst hroot
      cases tree.node? 0 <;> rfl
  · rfl

/-! ## Where the root ends does not matter before the end -/

theorem endAt_push (tree : Tree) (parent : Nat) (content : Content) (start stop : Position)
    (first last : Position) :
    ((tree.endAt first).push parent content start stop).endAt last =
      (tree.push parent content start stop).endAt last := by
  apply ext_node?
  intro id
  simp only [node?_endAt, node?_push, size_endAt]
  by_cases hroot : 0 = id
  · subst hroot
    by_cases hnew : 0 = tree.size
    · simp [hnew, grown]
    · cases tree.node? 0 <;> simp [hnew, grown]
  · rw [if_neg hroot, if_neg hroot, if_neg hroot, grown_eq_of_size (tree.size_endAt first)]

theorem endAt_addOutline (tree : Tree) (parent : Nat) (outline : Outline)
    (first last : Position) :
    ((tree.endAt first).addOutline parent outline).endAt last =
      (tree.addOutline parent outline).endAt last := by
  induction outline generalizing tree parent first last with
  | nil =>
      apply ext_node?
      intro id
      simp only [addOutline, node?_endAt]
      split
      · cases tree.node? id <;> rfl
      · rfl
  | leaf part start stop next ih =>
      rw [addOutline, addOutline, ← ih _ _ first, endAt_push, ih]
  | definition opening inside closing next ihInside ihNext =>
      simp only [addOutline, size_endAt]
      rw [← ihNext _ _ first, ← ihInside _ _ first, endAt_push, ihInside, ihNext]

theorem endAt_close (tree : Tree) (id : Nat) (text : Text) (stop first last : Position) :
    ((tree.endAt first).close id text stop).endAt last = (tree.close id text stop).endAt last := by
  apply ext_node?
  intro other
  simp only [node?_endAt, node?_close]
  by_cases hroot : 0 = other
  · cases tree.node? other <;> by_cases hid : id = other <;> simp [hroot, hid, Node.closed]
  · simp [hroot]

/-! ## Closing a definition afterwards -/

theorem close_push {tree : Tree} {id : Nat} (hid : id < tree.size) (hroot : 0 ≠ id)
    (text : Text) (last : Position) (parent : Nat) (content : Content) (start stop : Position) :
    (tree.push parent content start stop).close id text last =
      (tree.close id text last).push parent content start stop := by
  apply ext_node?
  intro other
  simp only [node?_close, node?_push, size_close]
  by_cases hother : id = other
  · subst hother
    cases tree.node? id <;> simp [Nat.ne_of_lt hid, hroot, grown, Node.closed]
  · rw [if_neg hother, if_neg hother, grown_eq_of_size (tree.size_close id text last)]

theorem close_addOutline {tree : Tree} {id : Nat} (hid : id < tree.size) (hroot : 0 ≠ id)
    (text : Text) (last : Position) (parent : Nat) (outline : Outline) :
    (tree.addOutline parent outline).close id text last =
      (tree.close id text last).addOutline parent outline := by
  induction outline generalizing tree parent with
  | nil => rfl
  | leaf part start stop next ih =>
      rw [addOutline, addOutline, ih (by simp; omega), close_push hid hroot]
  | definition opening inside closing next ihInside ihNext =>
      simp only [addOutline, size_close]
      rw [ihNext (by simp; omega), ihInside (by simp; omega), close_push hid hroot]

/-- A new node that is closed at once could have been put in closed, but for the root's end. -/
theorem close_push_self {tree : Tree} (hpos : 0 < tree.size) (text : Text) (parent : Nat)
    (content : Content) (start stop : Position) (first last : Position) :
    ((tree.push parent content start first).close tree.size text stop).endAt last =
      (tree.push parent (content.withSource text) start stop).endAt last := by
  apply ext_node?
  intro id
  simp only [node?_endAt, node?_close, node?_push]
  by_cases hroot : 0 = id
  · subst hroot
    cases tree.node? 0 <;> simp [Nat.ne_of_gt hpos, Nat.ne_of_lt hpos, grown]
  · by_cases hnew : tree.size = id
    · simp [hroot, hnew, grown, Node.closed]
    · cases tree.node? id <;> simp [hroot, hnew, Ne.symm hnew, grown]

/-! ## Reading from the start -/

/-- A definition whose closing tag has not been read yet. -/
structure Frame where
  id : Nat
  opening : Opening
  /-- What stands in the source before its opening tag. -/
  before : Text

/-- What has been built when so much of the source is read. -/
structure Draft where
  tree : Tree
  frames : List Frame
  passed : Text

namespace Draft

def empty : Draft :=
  ⟨.empty, [], []⟩

def parent (draft : Draft) : Nat :=
  (draft.frames.head?.map Frame.id).getD 0

def addLeaf (draft : Draft) (part : Leaf) (start stop : Position) : Draft where
  tree := draft.tree.push draft.parent part.content start stop
  frames := draft.frames
  passed := draft.passed ++ part.lexeme

/-- Put in the node of a definition that ends with its opening tag for now. -/
def enter (draft : Draft) (opening : Opening) (stop : Position) : Draft where
  tree := draft.tree.push draft.parent (.definition opening.provisional) opening.start stop
  frames := ⟨draft.tree.size, opening, draft.passed⟩ :: draft.frames
  passed := draft.passed ++ opening.lexeme

def leave (draft : Draft) (frame : Frame) (outer : List Frame) (closing : Closing) : Draft where
  tree :=
    draft.tree.close frame.id
      ((draft.passed ++ closing.lexeme).drop frame.before.length) closing.stop
  frames := outer
  passed := draft.passed ++ closing.lexeme

def read (draft : Draft) (piece : Piece) : Except Fault Draft :=
  match piece.item with
  | .leaf part => .ok (draft.addLeaf part piece.start piece.stop)
  | .openComment _ => .error (.unclosedComment piece.start)
  | .openHeader kind _ => .error (.unclosedDefinition kind [] piece.start)
  | .opening kind header =>
      match (Header.parse header).signature? with
      | some signature => .ok (draft.enter ⟨kind, header, signature, piece.start⟩ piece.stop)
      | none => .error (.missingName kind piece.start)
  | .closing kind gap =>
      let closing : Closing := ⟨kind, gap, piece.start, piece.stop⟩
      match draft.frames with
      | [] => .error (Levels.unexpected closing)
      | frame :: outer =>
          if kind = frame.opening.kind then
            .ok (draft.leave frame outer closing)
          else
            .error (Levels.unexpected closing)

def readAll (draft : Draft) (pieces : List Piece) : Except Fault Draft :=
  pieces.foldlM read draft

def finish (stop : Position) (draft : Draft) : Except Fault Tree :=
  match draft.frames with
  | [] => .ok (draft.tree.endAt stop)
  | frame :: _ => .error frame.opening.unclosed

theorem readAll_cons (draft : Draft) (piece : Piece) (rest : List Piece) :
    draft.readAll (piece :: rest) = draft.read piece >>= (·.readAll rest) :=
  List.foldlM_cons

end Draft

/-! ## Open definitions in a draft -/

/-- The node of a frame holds the definition that its opening tag has named. -/
def Frame.StandsIn (tree : Tree) (frame : Frame) : Prop :=
  ∃ node definition, tree.node? frame.id = some node ∧ node.content = .definition definition ∧
    definition.name = frame.opening.signature.name ∧ node.start = frame.opening.start

namespace Frame

variable {frame : Frame} {tree : Tree}

theorem StandsIn.push (h : frame.StandsIn tree) (parent : Nat) (content : Content)
    (start stop : Position) : frame.StandsIn (tree.push parent content start stop) := by
  rcases h with ⟨node, definition, hnode, hcontent, hname, hstart⟩
  have hold : frame.id ≠ tree.size := by
    intro heq
    rw [heq, node?_eq_none (Nat.le_refl _)] at hnode
    cases hnode
  refine ⟨tree.grown parent stop frame.id node, definition, ?_, hcontent, hname, hstart⟩
  rw [node?_push, if_neg hold, hnode]
  rfl

theorem StandsIn.close (h : frame.StandsIn tree) (id : Nat) (text : Text) (stop : Position) :
    frame.StandsIn (tree.close id text stop) := by
  rcases h with ⟨node, definition, hnode, hcontent, hname, hstart⟩
  by_cases hid : id = frame.id
  · refine ⟨node.closed text stop, { definition with source := text }, ?_, ?_, hname, hstart⟩
    · rw [node?_close, if_pos hid, hnode]
      rfl
    · rw [Node.closed, hcontent]
      rfl
  · exact ⟨node, definition, by rw [node?_close, if_neg hid, hnode], hcontent, hname, hstart⟩

theorem StandsIn.endAt (h : frame.StandsIn tree) (stop : Position) :
    frame.StandsIn (tree.endAt stop) := by
  rcases h with ⟨node, definition, hnode, hcontent, hname, hstart⟩
  by_cases hid : 0 = frame.id
  · refine ⟨{ node with stop := stop }, definition, ?_, hcontent, hname, hstart⟩
    rw [node?_endAt, if_pos hid, hnode]
    rfl
  · exact ⟨node, definition, by rw [node?_endAt, if_neg hid, hnode], hcontent, hname, hstart⟩

end Frame

namespace Draft

/-- The open definitions have nodes, and their opening tags have been passed. -/
structure Sound (draft : Draft) : Prop where
  size_pos : 0 < draft.tree.size
  before_passed : ∀ frame ∈ draft.frames, frame.before <+: draft.passed
  standsIn : ∀ frame ∈ draft.frames, frame.StandsIn draft.tree

theorem sound_empty : empty.Sound where
  size_pos := Nat.one_pos
  before_passed := fun _ hframe => absurd hframe List.not_mem_nil
  standsIn := fun _ hframe => absurd hframe List.not_mem_nil

theorem Sound.addLeaf {draft : Draft} (h : draft.Sound) (part : Leaf) (start stop : Position) :
    (draft.addLeaf part start stop).Sound where
  size_pos := by simp [Draft.addLeaf]
  before_passed := fun frame hframe =>
    (h.before_passed frame hframe).trans (List.prefix_append _ _)
  standsIn := fun frame hframe => (h.standsIn frame hframe).push ..

theorem Sound.enter {draft : Draft} (h : draft.Sound) (opening : Opening) (stop : Position) :
    (draft.enter opening stop).Sound where
  size_pos := by simp [Draft.enter]
  before_passed := by
    intro frame hframe
    rcases List.mem_cons.mp hframe with heq | hframe
    · rw [heq]
      exact List.prefix_append _ _
    · exact (h.before_passed frame hframe).trans (List.prefix_append _ _)
  standsIn := by
    intro frame hframe
    rcases List.mem_cons.mp hframe with heq | hframe
    · rw [heq]
      have hnode := draft.tree.node?_push draft.parent (.definition opening.provisional)
        opening.start stop draft.tree.size
      rw [if_pos rfl] at hnode
      exact ⟨_, opening.provisional, hnode, rfl, rfl, rfl⟩
    · exact (h.standsIn frame hframe).push ..

theorem Sound.leave {draft : Draft} (h : draft.Sound) {frame : Frame} {outer : List Frame}
    (hframes : draft.frames = frame :: outer) (closing : Closing) :
    (draft.leave frame outer closing).Sound := by
  have hmem {other : Frame} (hother : other ∈ outer) : other ∈ draft.frames := by
    rw [hframes]
    exact List.mem_cons_of_mem frame hother
  refine ⟨by simpa [Draft.leave] using h.size_pos, fun other hother => ?_, fun other hother => ?_⟩
  · exact (h.before_passed other (hmem hother)).trans (List.prefix_append _ _)
  · exact (h.standsIn other (hmem hother)).close ..

theorem Sound.read {draft next : Draft} {piece : Piece} (h : draft.Sound)
    (hread : draft.read piece = .ok next) :
    next.Sound ∧ next.passed = draft.passed ++ piece.item.lexeme := by
  cases piece with
  | mk item start stop =>
  cases item with
  | leaf part =>
      cases hread
      exact ⟨h.addLeaf part start stop, rfl⟩
  | openComment rest => cases hread
  | openHeader kind rest => cases hread
  | opening kind header =>
      simp only [Draft.read] at hread
      split at hread
      · next signature hsignature =>
          cases hread
          exact ⟨h.enter _ stop, rfl⟩
      · cases hread
  | closing kind gap =>
      simp only [Draft.read] at hread
      split at hread
      · cases hread
      · next frame outer hframes =>
          split at hread
          · cases hread
            exact ⟨h.leave hframes _, rfl⟩
          · cases hread

theorem Sound.exists_parent {draft : Draft} (h : draft.Sound) :
    ∃ node, draft.tree.node? draft.parent = some node := by
  cases hframes : draft.frames with
  | nil =>
      rw [Draft.parent, hframes]
      exact ⟨_, Array.getElem?_eq_getElem h.size_pos⟩
  | cons frame outer =>
      rw [Draft.parent, hframes]
      rcases h.standsIn frame (by rw [hframes]; exact List.mem_cons_self) with ⟨node, -, hnode, -⟩
      exact ⟨node, hnode⟩

/-! ## Levels behind a draft -/

/-- The tree of a source whose start is a draft and whose rest amounts to the levels. -/
def complete (stop : Position) : Draft → Levels → Except Fault Tree
  | _, .failed fault => .error fault
  | draft, .done outline =>
      finish stop { draft with tree := draft.tree.addOutline draft.parent outline }
  | draft, .closed outline closing rest =>
      match draft.frames with
      | [] => .error (Levels.unexpected closing)
      | frame :: outer =>
          if closing.kind = frame.opening.kind then
            let inner : Draft :=
              ⟨draft.tree.addOutline frame.id outline, draft.frames, draft.passed ++ outline.source⟩
            complete stop (inner.leave frame outer closing) rest
          else
            .error (Levels.unexpected closing)

/-- The end of the root is set at the end only. -/
theorem complete_endAt (stop first : Position) (tree : Tree) (frames : List Frame)
    (passed : Text) (levels : Levels) :
    complete stop ⟨tree.endAt first, frames, passed⟩ levels =
      complete stop ⟨tree, frames, passed⟩ levels := by
  induction levels generalizing tree frames passed with
  | failed fault => rfl
  | done outline =>
      cases frames with
      | nil => exact congrArg Except.ok (Tree.endAt_addOutline ..)
      | cons frame outer => rfl
  | closed outline closing rest ih =>
      cases frames with
      | nil => rfl
      | cons frame outer =>
          simp only [complete]
          split
          · simp only [leave]
            rw [← ih, ← Tree.endAt_close _ _ _ _ first, Tree.endAt_addOutline, Tree.endAt_close, ih]
          · rfl

/-- A leaf or a definition at the start of the first level can be put in beforehand. -/
theorem complete_mapFirst_leaf (stop : Position) (draft : Draft) (part : Leaf)
    (start last : Position) (levels : Levels) :
    complete stop draft (levels.mapFirst (.leaf part start last)) =
      complete stop (draft.addLeaf part start last) levels := by
  cases draft with
  | mk tree frames passed =>
  cases levels with
  | failed fault => rfl
  | done outline => rfl
  | closed outline closing rest =>
      cases frames with
      | nil => rfl
      | cons frame outer =>
          simp only [Levels.mapFirst, complete, addLeaf, Outline.source, ← List.append_assoc]
          rfl

theorem complete_mapFirst_definition (stop : Position) (draft : Draft) (opening : Opening)
    (inside : Outline) (closing : Closing) (levels : Levels) :
    complete stop draft (levels.mapFirst (.definition opening inside closing)) =
      complete stop
        ⟨(draft.tree.push draft.parent (.definition (Outline.definitionOf opening inside closing))
            opening.start closing.stop).addOutline draft.tree.size inside,
          draft.frames, draft.passed ++ opening.lexeme ++ inside.source ++ closing.lexeme⟩
        levels := by
  cases draft with
  | mk tree frames passed =>
  cases levels with
  | failed fault => rfl
  | done outline => rfl
  | closed outline last rest =>
      cases frames with
      | nil => rfl
      | cons frame outer =>
          simp only [Levels.mapFirst, complete, Outline.source, ← List.append_assoc]
          rfl

theorem leave_enter {draft : Draft} (hpos : 0 < draft.tree.size) (opening : Opening)
    (first last : Position) (inside : Outline) (closing : Closing) :
    ((((draft.enter opening first).tree.addOutline draft.tree.size inside).close draft.tree.size
        ((draft.passed ++ opening.lexeme ++ inside.source ++ closing.lexeme).drop
          draft.passed.length) closing.stop).endAt last) =
      ((draft.tree.push draft.parent (.definition (Outline.definitionOf opening inside closing))
          opening.start closing.stop).addOutline draft.tree.size inside).endAt last := by
  have htext : (draft.passed ++ opening.lexeme ++ inside.source ++ closing.lexeme).drop
      draft.passed.length = opening.lexeme ++ inside.sourceBefore closing.lexeme := by
    rw [Outline.sourceBefore_eq, List.append_assoc, List.append_assoc, List.drop_left]
  have hcontent : (Content.definition opening.provisional).withSource
      (opening.lexeme ++ inside.sourceBefore closing.lexeme) =
      .definition (Outline.definitionOf opening inside closing) := rfl
  rw [htext, enter, Tree.close_addOutline (by simp) (Nat.ne_of_lt hpos), ← hcontent,
    ← Tree.endAt_addOutline _ _ _ last, Tree.close_push_self hpos, Tree.endAt_addOutline]

theorem complete_enclose (stop : Position) {draft : Draft} (hpos : 0 < draft.tree.size)
    (opening : Opening) (last : Position) (levels : Levels) :
    complete stop draft (levels.enclose opening) =
      complete stop (draft.enter opening last) levels := by
  cases levels with
  | failed fault => rfl
  | done outline => rfl
  | closed inside closing rest =>
      simp only [Levels.enclose, complete, enter]
      split
      · -- The two trees differ only in where the root ends.
        rw [complete_mapFirst_definition, ← complete_endAt _ last, ← leave_enter hpos opening last,
          complete_endAt]
        rfl
      · rfl

/-- One more piece in front of the levels is one more piece behind the draft. -/
theorem complete_add (stop : Position) {draft : Draft} (hpos : 0 < draft.tree.size)
    (piece : Piece) (levels : Levels) :
    complete stop draft (levels.add piece) = draft.read piece >>= (complete stop · levels) := by
  cases piece with
  | mk item start last =>
  cases item with
  | leaf part => exact complete_mapFirst_leaf ..
  | openComment rest => rfl
  | openHeader kind rest => rfl
  | opening kind header =>
      simp only [Levels.add, read]
      cases (Header.parse header).signature? with
      | none => rfl
      | some signature => exact complete_enclose stop hpos _ last levels
  | closing kind gap =>
      simp only [Levels.add, read, complete]
      cases hframes : draft.frames with
      | nil => rfl
      | cons frame outer =>
          simp only [Tree.addOutline, Outline.source, List.append_nil]
          split
          · rw [← hframes]
            rfl
          · rfl

theorem finish_readAll (stop : Position) {draft : Draft} (hsound : draft.Sound)
    (pieces : List Piece) :
    draft.readAll pieces >>= finish stop = complete stop draft (Levels.ofPieces pieces) := by
  induction pieces generalizing draft with
  | nil => rfl
  | cons piece rest ih =>
      rw [readAll_cons, Levels.ofPieces, complete_add stop hsound.size_pos]
      cases hread : draft.read piece with
      | error fault => rfl
      | ok next => exact ih (hsound.read hread).1

theorem complete_empty (stop : Position) (levels : Levels) :
    complete stop empty levels =
      levels.outline.map fun outline => (Tree.ofOutline outline).endAt stop := by
  cases levels <;> rfl

/-- Reading a source from its start on gives the tree or the fault that it has. -/
theorem parse_eq_readAll (source : Text) :
    Tree.parse source =
      empty.readAll (Piece.spread source 0 (Item.scan source)) >>=
        finish (.ofOffset source source.length) := by
  rw [finish_readAll _ sound_empty, complete_empty, ← Piece.locate_scan]
  show _ = (Outline.parse source).map _
  cases hparse : Outline.parse source with
  | error fault => simp [Tree.parse, hparse, Except.map]
  | ok outline =>
      have htree : Tree.parse source = .ok (Tree.ofOutline outline) := by
        rw [Tree.parse, hparse]
        rfl
      rw [htree, ← Tree.rootStop_of_parse htree]
      exact congrArg Except.ok (Tree.endAt_rootStop _).symm

/-! ## Buffered text -/

def pieceOf (source : Text) (draft : Draft) (item : Item) : Piece :=
  ⟨item, .ofOffset source draft.passed.length,
    .ofOffset source (draft.passed.length + item.lexeme.length)⟩

def flushed (source : Text) (draft : Draft) (buffer : Text) : Draft :=
  if buffer = [] then
    draft
  else
    draft.addLeaf (.text buffer) (.ofOffset source draft.passed.length)
      (.ofOffset source (draft.passed.length + buffer.length))

@[simp] theorem passed_flushed (source : Text) (draft : Draft) (buffer : Text) :
    (draft.flushed source buffer).passed = draft.passed ++ buffer := by
  rw [flushed]
  split
  · next hbuffer => rw [hbuffer, List.append_nil]
  · rfl

theorem Sound.flushed {draft : Draft} (h : draft.Sound) (source buffer : Text) :
    (draft.flushed source buffer).Sound := by
  rw [Draft.flushed]
  split
  · exact h
  · exact h.addLeaf ..

theorem readAll_flush (source : Text) (draft : Draft) (buffer : Text) (items : List Item) :
    draft.readAll (Piece.spread source draft.passed.length (Item.flush buffer ++ items)) =
      (draft.flushed source buffer).readAll
        (Piece.spread source (draft.passed ++ buffer).length items) := by
  cases buffer with
  | nil =>
      rw [List.append_nil]
      rfl
  | cons c run =>
      rw [List.length_append]
      rfl

theorem readAll_scanBehind {draft : Draft} (hsound : draft.Sound) {source rest behind : Text}
    {item : Item} (hreads : Item.Reads rest item behind) (buffer : Text) :
    draft.readAll (Piece.spread source draft.passed.length (Item.scanBehind buffer rest)) =
      (draft.flushed source buffer).read ((draft.flushed source buffer).pieceOf source item) >>=
        fun next =>
          next.readAll (Piece.spread source next.passed.length (Item.scanBehind [] behind)) := by
  rw [Item.scanBehind_reads hreads, readAll_flush, Piece.spread, readAll_cons,
    ← passed_flushed source draft buffer]
  show read _ (pieceOf source _ item) >>= _ = _
  cases hread : (draft.flushed source buffer).read
      ((draft.flushed source buffer).pieceOf source item) with
  | error fault => rfl
  | ok next =>
      have hpassed := ((hsound.flushed source buffer).read hread).2
      show next.readAll _ = next.readAll _
      rw [hpassed, List.length_append]
      rfl

end Draft

end Tree

end TemplateDocs

import Mathlib.Logic.Relation
import TemplateDocs.Proofs.Replacement.Outline
import TemplateDocs.Proofs.Tree.Order

/-!
# Trees with another comment

Comments are opaque: another body in a comment leaves the tree as it is, but for the text
of that comment and the source of the definitions around it, in which the body is replaced
as well.  Nodes that end before the comment keep their positions
(`Tree.parse_replace_comment`).
-/

namespace TemplateDocs

namespace Tree

/-- The first node stands above the second one: it is its parent, or above its parent. -/
def IsAbove (tree : Tree) (outer id : Nat) : Prop :=
  Relation.TransGen (fun child parent => tree.parent? child = some parent) id outer

def ParentsFirst (tree : Tree) : Prop :=
  ∀ id parent, tree.parent? id = some parent → parent < id

theorem ParentsFirst.lt_of_isAbove {tree : Tree} (h : tree.ParentsFirst) {outer id : Nat}
    (habove : tree.IsAbove outer id) : outer < id := by
  induction habove with
  | single hparent => exact h _ _ hparent
  | tail _ hparent ih => exact Nat.lt_trans (h _ _ hparent) ih

theorem eq_or_isAbove_of_parent? {tree : Tree} {outer id parent : Nat}
    (hparent : tree.parent? id = some parent) (habove : tree.IsAbove outer id) :
    outer = parent ∨ tree.IsAbove outer parent := by
  rcases Relation.TransGen.head'_iff.mp habove with ⟨next, hnext, hrest⟩
  rw [hparent, Option.some.injEq] at hnext
  rw [hnext]
  exact Relation.reflTransGen_iff_eq_or_transGen.mp hrest

end Tree

def Node.displaced (node : Node) : Node :=
  { node with start := .origin, stop := .origin }

theorem Node.displaced_raised_zero (node : Node) (move : Position → Position) :
    (node.raised move 0).displaced = node.displaced := by
  have hsame : (fun id => if id = 0 then 0 else id + 0) = @id Nat := by
    funext id
    split <;> simp_all
  rw [displaced, displaced, raised, hsame]
  simp

namespace Outline

section Above

variable {tree : Tree} {parent first : Nat} {outline : Outline}

theorem StandsIn.exists_parent? (h : outline.StandsIn tree parent first) {id : Nat}
    (hle : first ≤ id) (hlt : id < first + outline.count) :
    ∃ found, tree.parent? id = some found ∧ (found = parent ∨ first ≤ found ∧ found < id) := by
  induction outline generalizing parent first with
  | nil =>
      rw [count] at hlt
      omega
  | leaf part start stop next ih =>
      rw [count] at hlt
      rcases Nat.eq_or_lt_of_le hle with rfl | hbehind
      · exact ⟨parent, by rw [Tree.parent?, h.1]; rfl, .inl rfl⟩
      · rcases ih h.2 hbehind (by omega) with ⟨found, hfound, hplace⟩
        exact ⟨found, hfound, by omega⟩
  | definition opening inside closing next ihInside ihNext =>
      rw [count] at hlt
      rcases Nat.eq_or_lt_of_le hle with rfl | hbehind
      · exact ⟨parent, by rw [Tree.parent?, h.1]; rfl, .inl rfl⟩
      · by_cases hinner : id < first + 1 + inside.count
        · rcases ihInside h.2.1 hbehind hinner with ⟨found, hfound, hplace⟩
          exact ⟨found, hfound, by omega⟩
        · rcases ihNext h.2.2 (by omega) (by omega) with ⟨found, hfound, hplace⟩
          exact ⟨found, hfound, by omega⟩

theorem StandsIn.isAbove (h : outline.StandsIn tree parent first) {id : Nat} (hle : first ≤ id)
    (hlt : id < first + outline.count) : tree.IsAbove parent id := by
  induction id using Nat.strongRecOn with
  | ind id ih =>
      rcases h.exists_parent? hle hlt with ⟨found, hfound, rfl | ⟨hfirst, hless⟩⟩
      · exact .single hfound
      · exact .head hfound (ih found hless hfirst (by omega))

/-- Of the nodes behind the one that an outline hangs under, only earlier parts are above a part. -/
theorem StandsIn.le_of_isAbove (h : outline.StandsIn tree parent first)
    (hparents : tree.ParentsFirst) {outer id : Nat} (hle : first ≤ id)
    (hlt : id < first + outline.count) (habove : tree.IsAbove outer id) (hparent : parent < outer) :
    first ≤ outer := by
  induction id using Nat.strongRecOn with
  | ind id ih =>
      rcases h.exists_parent? hle hlt with ⟨found, hfound, hplace⟩
      rcases Tree.eq_or_isAbove_of_parent? hfound habove with rfl | hmore
      · omega
      · rcases hplace with rfl | ⟨hfirst, hless⟩
        · have hbefore := hparents.lt_of_isAbove hmore
          omega
        · exact ih found hless hfirst (by omega) hmore

end Above

/--
What another body in the comment with number `target` makes of the node with number `id`.
The texts are those on both sides of the comment from `offset` on.
-/
inductive NodeChange (source : Text) (tree changed : Tree) (target : Nat) (body other : Text)
    (offset : Nat) (front back : Text) (id : Nat) : Prop where
  | comment (node : Node) (hid : id = target) (hnode : tree.node? id = some node)
      (hchanged : changed.node? id = some { node with content := .comment other })
  | around (node : Node) (definition : Definition) (outer inner behind tail : Text)
      (habove : tree.IsAbove id target) (hfront : front = outer ++ inner)
      (hback : back = behind ++ tail) (hnode : tree.node? id = some node)
      (hcontent : node.content = .definition definition)
      (hstart : node.start = .ofOffset source (offset + outer.length))
      (hsource : definition.source = inner ++ (Leaf.comment body).lexeme ++ behind)
      (hchanged : changed.node? id = some { node with
        content := .definition
          { definition with source := inner ++ (Leaf.comment other).lexeme ++ behind } })
  | same (hid : id ≠ target) (habove : ¬ tree.IsAbove id target)
      (hnode : changed.node? id = tree.node? id)

theorem NodeChange.widen {source : Text} {tree changed : Tree} {target : Nat} {body other : Text}
    {offset : Nat} {front back : Text} {id : Nat} (lead trail : Text)
    (h : NodeChange source tree changed target body other (offset + lead.length) front back id) :
    NodeChange source tree changed target body other offset (lead ++ front) (back ++ trail) id := by
  cases h with
  | comment node hid hnode hchanged => exact .comment node hid hnode hchanged
  | same hid habove hnode => exact .same hid habove hnode
  | around node definition outer inner behind tail habove hfront hback hnode hcontent hstart
      hsource hchanged =>
      refine .around node definition (lead ++ outer) inner behind (tail ++ trail) habove ?_ ?_ hnode
        hcontent ?_ hsource hchanged
      · rw [hfront, List.append_assoc]
      · rw [hback, List.append_assoc]
      · rw [hstart, List.length_append, Nat.add_assoc]

theorem NodeChange.family_eq {source : Text} {tree changed : Tree} {target : Nat}
    {body other : Text} {offset : Nat} {front back : Text} {id : Nat}
    (h : NodeChange source tree changed target body other offset front back id) :
    changed.parent? id = tree.parent? id ∧ changed.children id = tree.children id := by
  cases h with
  | comment node hid hnode hchanged =>
      simp [Tree.parent?, Tree.children, hnode, hchanged]
  | around node definition outer inner behind tail habove hfront hback hnode hcontent hstart
      hsource hchanged =>
      simp [Tree.parent?, Tree.children, hnode, hchanged]
  | same hid habove hnode => simp [Tree.parent?, Tree.children, hnode]

theorem Recommented.definitionOf_eq {first target : Nat} {body other front back : Text}
    {inside changed : Outline} (h : Recommented body other first target front back inside changed)
    (opening : Opening) (closing : Closing) :
    (definitionOf opening inside closing).source =
        opening.lexeme ++ front ++ (Leaf.comment body).lexeme ++ (back ++ closing.lexeme) ∧
      definitionOf opening changed closing =
        { definitionOf opening inside closing with
          source := opening.lexeme ++ front ++ (Leaf.comment other).lexeme ++
            (back ++ closing.lexeme) } := by
  simp [definitionOf, sourceBefore_eq, h.source_eq, h.symm.source_eq]

theorem Recommented.nodeChange {source : Text} {tree replaced : Tree} {parent first target : Nat}
    {body other front back : Text} {outline changed : Outline}
    (h : Recommented body other first target front back outline changed)
    (hstands : outline.StandsIn tree parent first)
    (hchanged : changed.StandsIn replaced parent first) {offset : Nat}
    (hplaced : outline.PlacedAt source offset) (hparents : tree.ParentsFirst)
    (hparent : parent < first) {id : Nat} (hle : first ≤ id) (hlt : id < first + outline.count) :
    NodeChange source tree replaced target body other offset front back id := by
  have hbefore {outer : Nat} (habove : tree.IsAbove outer target) : outer < target :=
    hparents.lt_of_isAbove habove
  induction h generalizing parent offset with
  | @here first start stop next =>
      rw [count] at hlt
      rcases Nat.eq_or_lt_of_le hle with rfl | hbehind
      · exact .comment _ rfl hstands.1 hchanged.1
      · refine .same (by omega) (fun habove => ?_) ?_
        · have hless := hbefore habove
          omega
        · exact hstands.2.node?_eq hchanged.2 hbehind (by omega)
  | @behindLeaf first target front back part start stop next changed h ih =>
      rw [count] at hlt
      have htarget := h.le_target
      rcases Nat.eq_or_lt_of_le hle with rfl | hbehind
      · refine .same (by omega) (fun habove => ?_) (hchanged.1.trans hstands.1.symm)
        have hfirst := hstands.2.le_of_isAbove hparents htarget.1 htarget.2 habove hparent
        omega
      · have hchange := ih hstands.2 hchanged.2 hplaced.2 (by omega) hbehind (by omega) hbefore
        simpa using hchange.widen part.lexeme []
  | @inside first target front back opening closing inside changed next h ih =>
      rw [count] at hlt
      have htarget := h.le_target
      rcases Nat.eq_or_lt_of_le hle with rfl | hbehind
      · have habove := hstands.2.1.isAbove htarget.1 htarget.2
        rcases hplaced.2.1 with ⟨headerStop, hopening⟩
        have hdefinition := h.definitionOf_eq opening closing
        refine .around _ _ [] (opening.lexeme ++ front) (back ++ closing.lexeme) next.source habove
          rfl (List.append_assoc ..).symm hstands.1 rfl hopening.start_eq hdefinition.1 ?_
        rw [hchanged.1, hdefinition.2, h.topIds_eq]
      · by_cases hinner : id < first + 1 + inside.count
        · have hchange :=
            ih hstands.2.1 hchanged.2.1 hplaced.2.2.1 (by omega) hbehind hinner hbefore
          exact hchange.widen opening.lexeme (closing.lexeme ++ next.source)
        · refine .same (by omega) (fun habove => ?_) ?_
          · have hless := hbefore habove
            omega
          · have hnext := hchanged.2.2
            rw [h.count_eq] at hnext
            exact hstands.2.2.node?_eq hnext (by omega) (by omega)
  | @behindDefinition first target front back opening closing inside next changed h ih =>
      rw [count] at hlt
      have htarget := h.le_target
      by_cases hearlier : id < first + inside.count + 1
      · refine .same (by omega) (fun habove => ?_) ?_
        · have hfirst := hstands.2.2.le_of_isAbove hparents htarget.1 htarget.2 habove (by omega)
          omega
        · rcases Nat.eq_or_lt_of_le hle with rfl | hbehind
          · exact hchanged.1.trans hstands.1.symm
          · exact hstands.2.1.node?_eq hchanged.2.1 hbehind (by omega)
      · have hchange := ih hstands.2.2 hchanged.2.2 hplaced.2.2.2.2 (by omega) (by omega) (by omega)
          hbefore
        have hlead : offset + opening.lexeme.length + inside.source.length + closing.lexeme.length =
            offset + (opening.lexeme ++ (inside.source ++ closing.lexeme)).length := by
          simp [Nat.add_assoc]
        rw [hlead] at hchange
        simpa using hchange.widen (opening.lexeme ++ (inside.source ++ closing.lexeme)) []

end Outline

namespace Tree

theorem parentsFirst_ofOutline (outline : Outline) : (ofOutline outline).ParentsFirst := by
  intro id parent hparent
  rcases Nat.eq_zero_or_pos id with rfl | hpos
  · rw [parent?, node?_zero_ofOutline] at hparent
    cases hparent
  · have hlt : id < (ofOutline outline).size := by
      by_contra hnot
      rw [parent?, node?_eq_none (Nat.not_lt.mp hnot)] at hparent
      cases hparent
    rw [size_ofOutline] at hlt
    rcases (standsIn_ofOutline outline).exists_parent? hpos (by omega) with ⟨found, hfound, hplace⟩
    rw [hparent, Option.some.injEq] at hfound
    omega

/-- The trees are the same but for positions. -/
def SameNodes (first second : Tree) : Prop :=
  ∀ id, (first.node? id).map Node.displaced = (second.node? id).map Node.displaced

theorem sameNodes_moved (move : Position → Position) (outline : Outline) :
    SameNodes (ofOutline (outline.moved move)) (ofOutline outline) := by
  intro id
  rcases Nat.eq_zero_or_pos id with rfl | hpos
  · rw [node?_zero_ofOutline, node?_zero_ofOutline, Outline.topIds_moved]
    rfl
  · by_cases hlt : id < 1 + outline.count
    · have hstands := standsIn_ofOutline (outline.moved move)
      have hnode : (ofOutline (outline.moved move)).node? (id + 0) = _ :=
        (standsIn_ofOutline outline).node?_raised hstands Nat.one_pos rfl hpos hlt
      rw [Nat.add_zero] at hnode
      rw [hnode, Option.map_map]
      congr 1
      funext node
      exact node.displaced_raised_zero move
    · rw [node?_eq_none (by simp; omega), node?_eq_none (by simp; omega)]

namespace SameNodes

variable {first second : Tree}

theorem content?_eq (h : SameNodes first second) (id : Nat) :
    first.content? id = second.content? id := by
  have hnode := congrArg (Option.map Node.content) (h id)
  rwa [Option.map_map, Option.map_map] at hnode

theorem parent?_eq (h : SameNodes first second) (id : Nat) :
    first.parent? id = second.parent? id := by
  have hnode := congrArg (Option.bind · Node.parent) (h id)
  simp only [Option.bind_map] at hnode
  exact hnode

theorem children_eq (h : SameNodes first second) (id : Nat) :
    first.children id = second.children id := by
  have hnode := congrArg (Option.map fun node => node.children.toList) (h id)
  rw [Option.map_map, Option.map_map] at hnode
  exact congrArg (Option.getD · []) hnode

end SameNodes

/--
The second tree is the first one, that of a source, with another body in the comment with
number `id`.  The texts are those before and behind the comment.
-/
structure Recommented (source : Text) (tree changed : Tree) (id : Nat)
    (body other before behind : Text) : Prop where
  size_eq : changed.size = tree.size
  parent?_eq : ∀ number, changed.parent? number = tree.parent? number
  children_eq : ∀ number, changed.children number = tree.children number
  comment : changed.content? id = some (.comment other)
  /-- A definition around the comment starts behind `outer`, and has the body replaced. -/
  around : ∀ number node definition, tree.IsAbove number id → tree.node? number = some node →
    node.content = .definition definition →
    ∃ outer inner back tail, before = outer ++ inner ∧ behind = back ++ tail ∧
      node.start = .ofOffset source outer.length ∧
      definition.source = inner ++ (Leaf.comment body).lexeme ++ back ∧
      changed.content? number = some (.definition
        { definition with source := inner ++ (Leaf.comment other).lexeme ++ back })
  others : ∀ number, number ≠ id →
    (tree.IsAbove number id →
      ∀ definition, tree.content? number ≠ some (.definition definition)) →
    changed.content? number = tree.content? number
  /-- What ends where the comment starts, or before, keeps its positions. -/
  earlier : ∀ number node, tree.node? number = some node →
    ¬ Position.ofOffset source before.length < node.stop →
    ∃ other, changed.node? number = some other ∧ other.start = node.start ∧
      other.stop = node.stop

theorem ofOffset_comment_eq {before body other behind : Text} {offset : Nat}
    (h : offset ≤ before.length) :
    Position.ofOffset (before ++ (Leaf.comment other).lexeme ++ behind) offset =
      Position.ofOffset (before ++ (Leaf.comment body).lexeme ++ behind) offset := by
  have hopen (body : Text) :
      Position.ofOffset (before ++ (Leaf.comment body).lexeme ++ behind) offset =
        Position.ofOffset (before ++ Tag.commentOpen) offset := by
    have hlast : (before ++ Tag.commentOpen).getLast? ≠ some '\r' := by
      simp [Tag.commentOpen, List.getLast?_append]
    have hsplit : before ++ (Leaf.comment body).lexeme ++ behind =
        before ++ Tag.commentOpen ++ (body ++ Tag.commentClose ++ behind) := by
      simp [Leaf.lexeme]
    rw [hsplit, Position.ofOffset_append_of_le hlast _ (by simp; omega)]
  rw [hopen, hopen]

theorem pos_of_content {outline : Outline} {id : Nat} {node : Node}
    (hnode : (ofOutline outline).node? id = some node) (h : node.content ≠ rootNode.content) :
    0 < id := by
  rcases Nat.eq_zero_or_pos id with rfl | hpos
  · rw [node?_zero_ofOutline, Option.some.injEq] at hnode
    rw [← hnode] at h
    exact absurd rfl h
  · exact hpos

section Replacement

variable {source body other front back : Text} {id : Nat} {outline changed found : Outline}

theorem count_eq_of_moved (hway : Outline.Recommented body other 1 id front back outline changed)
    (hmoved : found.moved (fun _ => .origin) = changed.moved fun _ => .origin) :
    found.count = outline.count := by
  rw [← Outline.count_moved (fun _ => .origin) found, hmoved, Outline.count_moved, hway.count_eq]

theorem nodeChange_ofOutline (h : Outline.parse source = .ok outline)
    (hway : Outline.Recommented body other 1 id front back outline changed) {number : Nat}
    (hpos : 0 < number) (hlt : number < 1 + outline.count) :
    Outline.NodeChange source (ofOutline outline) (ofOutline changed) id body other 0 front back
      number :=
  hway.nodeChange (standsIn_ofOutline outline) (standsIn_ofOutline changed)
    (Outline.placedAt_of_parse h) (parentsFirst_ofOutline outline) Nat.one_pos hpos hlt

theorem family_ofOutline_eq (h : Outline.parse source = .ok outline)
    (hway : Outline.Recommented body other 1 id front back outline changed) (number : Nat) :
    (ofOutline changed).parent? number = (ofOutline outline).parent? number ∧
      (ofOutline changed).children number = (ofOutline outline).children number := by
  rcases Nat.eq_zero_or_pos number with rfl | hpos
  · rw [children_zero_ofOutline, children_zero_ofOutline, hway.topIds_eq, parent?, parent?,
      node?_zero_ofOutline, node?_zero_ofOutline]
    exact ⟨rfl, rfl⟩
  · by_cases hlt : number < 1 + outline.count
    · exact (nodeChange_ofOutline h hway hpos hlt).family_eq
    · have hcount := hway.count_eq
      rw [parent?, parent?, children, children, node?_eq_none (by simp; omega),
        node?_eq_none (by simp; omega)]
      exact ⟨rfl, rfl⟩

theorem content?_ofOutline_eq (h : Outline.parse source = .ok outline)
    (hway : Outline.Recommented body other 1 id front back outline changed) {number : Nat}
    (hne : number ≠ id)
    (habove : (ofOutline outline).IsAbove number id →
      ∀ definition, (ofOutline outline).content? number ≠ some (.definition definition)) :
    (ofOutline changed).content? number = (ofOutline outline).content? number := by
  rcases Nat.eq_zero_or_pos number with rfl | hpos
  · rw [content?, content?, node?_zero_ofOutline, node?_zero_ofOutline]
    rfl
  · by_cases hlt : number < 1 + outline.count
    · cases nodeChange_ofOutline h hway hpos hlt with
      | comment node hid hnode hchanged => exact absurd hid hne
      | around node definition outer inner behind tail hover hfront hback hnode hcontent =>
          have hnot := habove hover definition
          rw [content?, hnode, Option.map_some, hcontent] at hnot
          exact absurd rfl hnot
      | same hid hnot hnode => rw [content?, content?, hnode]
    · have hcount := hway.count_eq
      rw [content?, content?, node?_eq_none (by simp; omega), node?_eq_none (by simp; omega)]

theorem around_ofOutline (h : Outline.parse source = .ok outline)
    (hway : Outline.Recommented body other 1 id front back outline changed) {number : Nat}
    {node : Node} {definition : Definition} (habove : (ofOutline outline).IsAbove number id)
    (hnode : (ofOutline outline).node? number = some node)
    (hdefinition : node.content = .definition definition) :
    ∃ outer inner behind tail, front = outer ++ inner ∧ back = behind ++ tail ∧
      node.start = .ofOffset source outer.length ∧
      definition.source = inner ++ (Leaf.comment body).lexeme ++ behind ∧
      (ofOutline changed).content? number = some (.definition
        { definition with source := inner ++ (Leaf.comment other).lexeme ++ behind }) := by
  have hlt := lt_size_of_node? hnode
  have hpos := pos_of_content hnode (by simp [hdefinition, rootNode])
  rw [size_ofOutline] at hlt
  cases nodeChange_ofOutline h hway hpos (by omega) with
  | comment _ hid =>
      have hbefore := (parentsFirst_ofOutline outline).lt_of_isAbove habove
      omega
  | same _ hnot => exact absurd habove hnot
  | around other value outer inner behind tail _ hfront hback hother hvalue hstart hsource
      hchanged =>
      rw [hnode, Option.some.injEq] at hother
      subst hother
      rw [hdefinition, Content.definition.injEq] at hvalue
      subst hvalue
      rw [Nat.zero_add] at hstart
      refine ⟨outer, inner, behind, tail, hfront, hback, hstart, hsource, ?_⟩
      rw [content?, hchanged, Option.map_some]

theorem located_of_parse (h : Outline.parse source = .ok outline) {number : Nat} {node : Node}
    (hpos : 0 < number) (hnode : (ofOutline outline).node? number = some node) :
    node.start = .ofOffset source (outline.span 1 0 number).1 ∧
      node.stop = .ofOffset source (outline.span 1 0 number).2 ∧
      (outline.span 1 0 number).1 < (outline.span 1 0 number).2 ∧
      (outline.span 1 0 number).2 ≤ source.length := by
  have hpart := partAt_of_parse h hpos (lt_size_of_node? hnode)
  have hplace := located_of_partAt hpart hnode
  exact ⟨hplace.1, hplace.2, ne_nil_of_partAt hpart⟩

theorem earlier_of_parse (h : Outline.parse source = .ok outline)
    (hway : Outline.Recommented body other 1 id front back outline changed)
    (hfound : Outline.parse (front ++ (Leaf.comment other).lexeme ++ back) = .ok found)
    (hmoved : found.moved (fun _ => .origin) = changed.moved fun _ => .origin) {number : Nat}
    {node : Node} (hnode : (ofOutline outline).node? number = some node)
    (hearlier : ¬ Position.ofOffset source front.length < node.stop) :
    ∃ other, (ofOutline found).node? number = some other ∧ other.start = node.start ∧
      other.stop = node.stop := by
  have hsource := hway.source_eq
  rw [Outline.source_of_parse h] at hsource
  have hparse : parse source = .ok (ofOutline outline) := parse_eq_ok_iff.mpr ⟨outline, h, rfl⟩
  have hcomment : 0 < (Leaf.comment body).lexeme.length := by simp [Leaf.lexeme, Tag.commentOpen]
  have hlength := congrArg List.length hsource
  simp only [List.length_append] at hlength
  have hpos : 0 < number := by
    -- The root ends with the source, and so behind the start of the comment.
    rcases Nat.eq_zero_or_pos number with rfl | hpos
    · have hstop := rootStop_of_parse hparse
      rw [rootStop, hnode, Option.map_some, Option.getD_some] at hstop
      rw [hstop] at hearlier
      exact absurd (Position.ofOffset_lt_ofOffset (by omega) (Nat.le_refl _)) hearlier
    · exact hpos
  rcases located_of_parse h hpos hnode with ⟨hstart, hstop, hne, hwithin⟩
  have hends : (outline.span 1 0 number).2 ≤ front.length := by
    by_contra hnot
    rw [hstop] at hearlier
    exact hearlier (Position.ofOffset_lt_ofOffset (Nat.not_le.mp hnot) hwithin)
  have hbefore : number < id := by
    have htarget := hway.span_target 0
    rcases Nat.lt_trichotomy number id with hless | rfl | hmore
    · exact hless
    · omega
    · have hcount := lt_size_of_node? hnode
      rw [size_ofOutline] at hcount
      have horder := Outline.ordered (standsIn_ofOutline outline) (outline.spannedBy_span 1 0)
        (Outline.placedAt_of_parse h) hway.le_target.1 hmore (by omega)
      omega
  have hspan : found.span 1 0 number = outline.span 1 0 number := by
    rcases hway.span_eq_or_lt 0 hpos hbefore with hspan | hover
    · rw [← hspan, ← Outline.span_moved (fun _ => .origin), hmoved, Outline.span_moved]
    · omega
  have hlt : number < (ofOutline found).size := by
    have hcount := lt_size_of_node? hnode
    rwa [size_ofOutline, ← count_eq_of_moved hway hmoved, ← size_ofOutline] at hcount
  have hother : (ofOutline found).node? number = some _ := Array.getElem?_eq_getElem hlt
  rcases located_of_parse hfound hpos hother with ⟨hstart', hstop', -⟩
  refine ⟨_, hother, ?_, ?_⟩
  · rw [hstart', hspan, hstart, hsource]
    exact ofOffset_comment_eq (by omega)
  · rw [hstop', hspan, hstop, hsource]
    exact ofOffset_comment_eq hends

end Replacement

/-- Another body in a comment is a change of that comment and of what stands around it. -/
theorem parse_replace_comment {source : Text} {tree : Tree} (h : parse source = .ok tree)
    {id : Nat} {comment : Node} (hcomment : tree.node? id = some comment) {body : Text}
    (hbody : comment.content = .comment body) {other : Text} (hother : Tag.IsCommentBody other) :
    ∃ before behind changed,
      source = before ++ (Leaf.comment body).lexeme ++ behind ∧
        comment.start = .ofOffset source before.length ∧
        parse (before ++ (Leaf.comment other).lexeme ++ behind) = .ok changed ∧
        Recommented source tree changed id body other before behind := by
  rcases parse_eq_ok_iff.mp h with ⟨outline, houtline, rfl⟩
  have hpos := pos_of_content hcomment (by simp [hbody, rootNode])
  have hlt := lt_size_of_node? hcomment
  rw [size_ofOutline] at hlt
  have hcontent : (ofOutline outline).content? id = some (.comment body) := by
    rw [content?, hcomment, Option.map_some, hbody]
  rcases (standsIn_ofOutline outline).exists_recommented hpos (by omega) hcontent other with
    ⟨before, behind, changed, hway⟩
  rcases Outline.parse_replace houtline hway hother with ⟨found, hfound, hmoved⟩
  have hstart := (located_of_parse houtline hpos hcomment).1
  rw [hway.span_target, Nat.zero_add] at hstart
  have hsame : SameNodes (ofOutline found) (ofOutline changed) := by
    intro number
    rw [← sameNodes_moved (fun _ => .origin) found number, hmoved,
      sameNodes_moved (fun _ => .origin) changed number]
  refine ⟨before, behind, ofOutline found, ?_, hstart, parse_eq_ok_iff.mpr ⟨found, hfound, rfl⟩, ?_⟩
  · rw [← hway.source_eq, Outline.source_of_parse houtline]
  refine ⟨?_, ?_, ?_, ?_, ?_, ?_, ?_⟩
  · rw [size_ofOutline, size_ofOutline, count_eq_of_moved hway hmoved]
  · intro number
    rw [hsame.parent?_eq, (family_ofOutline_eq houtline hway number).1]
  · intro number
    rw [hsame.children_eq, (family_ofOutline_eq houtline hway number).2]
  · rw [hsame.content?_eq]
    cases nodeChange_ofOutline houtline hway hpos (by omega) with
    | comment node hid hnode hchanged => rw [content?, hchanged, Option.map_some]
    | around node definition outer inner behind tail habove =>
        exact absurd ((parentsFirst_ofOutline outline).lt_of_isAbove habove) (Nat.lt_irrefl id)
    | same hid => exact absurd rfl hid
  · intro number node definition habove hnode hdefinition
    rw [hsame.content?_eq]
    exact around_ofOutline houtline hway habove hnode hdefinition
  · intro number hne hnot
    rw [hsame.content?_eq, content?_ofOutline_eq houtline hway hne hnot]
  · intro number node hnode hearlier
    exact earlier_of_parse houtline hway hfound hmoved hnode hearlier

/-- A comment in two definitions, with a body of tags, an open quote and dashes in its place. -/
theorem parse_replace_comment_nested : ∃ source tree comment other,
    source = "a\r\n<#macro m x>\n<#function f><#-- one --></#function></#macro>b".toList ∧
      other = "</#function><#macro \"(></#macro> --".toList ∧
      parse source = .ok tree ∧ tree.node? 5 = some comment ∧
      comment.content = .comment " one ".toList ∧ Tag.IsCommentBody other ∧
      ∃ before behind changed,
        source = before ++ (Leaf.comment " one ".toList).lexeme ++ behind ∧
          comment.start = .ofOffset source before.length ∧
          parse (before ++ (Leaf.comment other).lexeme ++ behind) = .ok changed ∧
          Recommented source tree changed 5 " one ".toList other before behind := by
  rcases (⟨_, rfl⟩ : ∃ source : Text, source =
      "a\r\n<#macro m x>\n<#function f><#-- one --></#function></#macro>b".toList) with
    ⟨source, hsource⟩
  rcases (⟨_, rfl⟩ : ∃ other : Text, other =
      "</#function><#macro \"(></#macro> --".toList) with ⟨other, hother⟩
  have hbody : Tag.IsCommentBody other := by
    rw [hother, Tag.isCommentBody_iff]
    decide +kernel
  have hcontent : (parse source).toOption.bind (·.content? 5) =
      some (.comment " one ".toList) := by
    rw [hsource]
    decide +kernel
  cases hparse : parse source with
  | error fault =>
      rw [hparse] at hcontent
      cases hcontent
  | ok tree =>
      rw [hparse] at hcontent
      rcases Option.map_eq_some_iff.mp hcontent with ⟨comment, hcomment, hone⟩
      exact ⟨source, tree, comment, other, hsource, hother, hparse, hcomment, hone, hbody,
        parse_replace_comment hparse hcomment hone hbody⟩

end Tree

end TemplateDocs

import TemplateDocs.Proofs.Concatenation.Outline
import TemplateDocs.Proofs.Template.Placement
import TemplateDocs.Proofs.Tree.Layout

/-!
# The tree of two sources in a row

When the last child of the root is a comment or a definition, whatever is written behind
the source is parsed as if it stood alone.  Its nodes follow those of the source under
the same root, with their numbers raised and their positions counted on from the end of
the source (`Tree.parse_append_of_isSealed`).
-/

namespace TemplateDocs

def Content.isSealed : Content → Bool
  | comment _ | definition _ => true
  | _ => false

/-- A node at other positions; all numbers but that of the root are raised. -/
def Node.raised (move : Position → Position) (count : Nat) (node : Node) : Node where
  content := node.content
  start := move node.start
  stop := move node.stop
  parent := node.parent.map fun id => if id = 0 then 0 else id + count
  children := node.children.map (· + count)

namespace Tree

def isSealed (tree : Tree) : Bool :=
  ((tree.children 0).getLast?.bind tree.content?).any Content.isSealed

/-- The root of two trees: it has the children of both and ends with the second. -/
def sharedRoot (move : Position → Position) (count : Nat) (next : Tree) (root : Node) : Node :=
  { root with
    stop := move next.rootStop
    children := root.children ++ ((next.children 0).map (· + count)).toArray }

/--
The nodes of a tree and behind them those of another one, which stand at other positions
there.  The two trees share their root.
-/
def followedBy (tree : Tree) (move : Position → Position) (next : Tree) : Tree :=
  let count := tree.size - 1
  ⟨tree.nodes.modify 0 (sharedRoot move count next) ++
    (next.nodes.extract 1).map (Node.raised move count)⟩

section FollowedBy

variable (tree : Tree) (move : Position → Position) (next : Tree)

theorem node?_followedBy_of_lt {id : Nat} (hlt : id < tree.size) :
    (tree.followedBy move next).node? id =
      if 0 = id then (tree.node? id).map (sharedRoot move (tree.size - 1) next)
      else tree.node? id := by
  unfold followedBy node?
  rw [Array.getElem?_append, if_pos (by simpa [size] using hlt), Array.getElem?_modify]

theorem node?_followedBy_add (id : Nat) :
    (tree.followedBy move next).node? (id + tree.size) =
      (next.node? (id + 1)).map (Node.raised move (tree.size - 1)) := by
  have hnot : ¬ id + tree.size < (tree.nodes.modify 0
      (sharedRoot move (tree.size - 1) next)).size := by
    rw [Array.size_modify]
    exact Nat.not_lt.mpr (Nat.le_add_left tree.size id)
  have hindex : id + tree.size - tree.nodes.size = id := Nat.add_sub_cancel id tree.nodes.size
  unfold followedBy node?
  rw [Array.getElem?_append, if_neg hnot, Array.size_modify, hindex, Array.getElem?_map,
    Array.getElem?_extract, Nat.add_comm 1 id]
  by_cases hid : id + 1 < next.nodes.size
  · rw [if_pos (by omega)]
  · rw [if_neg (by omega), Array.getElem?_eq_none (Nat.not_lt.mp hid)]

end FollowedBy

end Tree

/-! ## Outlines behind other outlines -/

namespace Outline

variable (move : Position → Position)

@[simp] theorem count_moved (outline : Outline) : (outline.moved move).count = outline.count := by
  induction outline with
  | nil => rfl
  | leaf part start stop next ih => rw [moved, count, count, ih]
  | definition opening inside closing next ihInside ihNext =>
      rw [moved, count, count, ihInside, ihNext]

@[simp] theorem topIds_moved (first : Nat) (outline : Outline) :
    (outline.moved move).topIds first = outline.topIds first := by
  induction outline generalizing first with
  | nil => rfl
  | leaf part start stop next ih => rw [moved, topIds, topIds, ih]
  | definition opening inside closing next ihInside ihNext =>
      rw [moved, topIds, topIds, ihNext, count_moved]

theorem topIds_add (first count : Nat) (outline : Outline) :
    outline.topIds (first + count) = (outline.topIds first).map (· + count) := by
  induction outline generalizing first with
  | nil => rfl
  | leaf part start stop next ih =>
      rw [topIds, topIds, List.map_cons, Nat.add_right_comm, ih]
  | definition opening inside closing next ihInside ihNext =>
      have hnext : first + count + inside.count + 1 = first + inside.count + 1 + count := by omega
      rw [topIds, topIds, List.map_cons, hnext, ihNext]

@[simp] theorem source_moved (outline : Outline) :
    (outline.moved move).source = outline.source := by
  induction outline with
  | nil => rfl
  | leaf part start stop next ih => rw [moved, source, source, ih]
  | definition opening inside closing next ihInside ihNext =>
      rw [moved, source, source, ihInside, ihNext]
      rfl

theorem definitionOf_moved (opening : Opening) (inside : Outline) (closing : Closing) :
    definitionOf (opening.moved move) (inside.moved move) (closing.moved move) =
      definitionOf opening inside closing := by
  simp only [definitionOf, sourceBefore_eq, source_moved]
  rfl

theorem StandsIn.node?_raised {move : Position → Position} {tree other : Tree}
    {parent parent' first count : Nat} {outline : Outline}
    (h : outline.StandsIn tree parent first)
    (h' : (outline.moved move).StandsIn other parent' (first + count)) (hfirst : 0 < first)
    (hparent : parent' = if parent = 0 then 0 else parent + count) {id : Nat}
    (hle : first ≤ id) (hlt : id < first + outline.count) :
    other.node? (id + count) = (tree.node? id).map (Node.raised move count) := by
  induction outline generalizing parent parent' first with
  | nil =>
      rw [Outline.count] at hlt
      omega
  | leaf part start stop next ih =>
      obtain ⟨hnode, hnext⟩ := h
      obtain ⟨hnode', hnext'⟩ := h'
      rw [Outline.count] at hlt
      rcases Nat.eq_or_lt_of_le hle with rfl | hbehind
      · rw [hnode, hnode', hparent]
        simp [Node.raised]
      · rw [Nat.add_right_comm] at hnext'
        exact ih hnext hnext' (by omega) hparent hbehind (by omega)
  | definition opening inside closing next ihInside ihNext =>
      obtain ⟨hnode, hinside, hnext⟩ := h
      obtain ⟨hnode', hinside', hnext'⟩ := h'
      rw [Outline.count] at hlt
      rcases Nat.eq_or_lt_of_le hle with rfl | hbehind
      · rw [hnode, hnode', hparent, definitionOf_moved, topIds_moved, Nat.add_right_comm,
          topIds_add]
        simp [Node.raised, Opening.moved, Closing.moved]
      · by_cases hinner : id < first + inside.count + 1
        -- The inside hangs under the definition, whose own number is raised as well.
        · rw [Nat.add_right_comm] at hinside'
          exact ihInside hinside hinside' (by omega) (by rw [if_neg (by omega)]) (by omega)
            (by omega)
        · have hcount : first + count + inside.count + 1 = first + inside.count + 1 + count := by
            omega
          rw [count_moved, hcount] at hnext'
          exact ihNext hnext hnext' (by omega) hparent (by omega) (by omega)

end Outline

namespace Tree

theorem addOutline_append (tree : Tree) (parent : Nat) (first second : Outline) :
    tree.addOutline parent (first.append second) =
      (tree.addOutline parent first).addOutline parent second := by
  induction first generalizing tree parent with
  | nil => rfl
  | leaf part start stop next ih => rw [Outline.append, addOutline, addOutline, ih]
  | definition opening inside closing next ihInside ihNext =>
      simp only [Outline.append, addOutline, ihNext]

theorem ofOutline_append {move : Position → Position} {first second : Outline}
    (hstop : (ofOutline (first.append (second.moved move))).rootStop =
      move (ofOutline second).rootStop) :
    ofOutline (first.append (second.moved move)) =
      (ofOutline first).followedBy move (ofOutline second) := by
  obtain ⟨tree, htree⟩ : ∃ tree, tree = ofOutline first := ⟨_, rfl⟩
  have hpos : 0 < tree.size := by simp [htree]
  have happend : ofOutline (first.append (second.moved move)) =
      tree.addOutline 0 (second.moved move) := by
    rw [htree]
    exact addOutline_append ..
  have hids : (second.moved move).topIds tree.size =
      ((ofOutline second).children 0).map (· + (tree.size - 1)) := by
    rw [Outline.topIds_moved, children_zero_ofOutline, ← Outline.topIds_add]
    congr 1
    omega
  rw [happend] at hstop ⊢
  rw [← htree]
  apply ext_node?
  intro id
  rcases Nat.lt_or_ge id tree.size with hlt | hge
  · rw [node?_followedBy_of_lt _ _ _ hlt, node?_addOutline hpos _ hlt]
    -- Of the nodes in front only the root changes.
    by_cases hroot : 0 = id
    · subst hroot
      rw [rootStop, node?_addOutline hpos _ hlt] at hstop
      cases hnode : tree.node? 0 with
      | none => rfl
      | some root =>
          simp only [hnode, Option.map_some, Option.getD_some, adopting, if_true] at hstop
          simp [adopting, sharedRoot, hstop, hids]
    · cases tree.node? id with
      | none => simp [hroot]
      | some node => simp [adopting, hroot]
  · obtain ⟨index, rfl⟩ := Nat.exists_eq_add_of_le' hge
    have hstands := standsIn_addOutline hpos (second.moved move)
    have hsize : tree.size = 1 + (tree.size - 1) := by omega
    have hindex : index + tree.size = index + 1 + (tree.size - 1) := by omega
    rw [node?_followedBy_add]
    by_cases hcount : index < second.count
    · rw [hsize] at hstands
      rw [hindex]
      exact (standsIn_ofOutline second).node?_raised hstands Nat.one_pos (by simp) (by omega)
        (by omega)
    · rw [node?_eq_none (by simp; omega), node?_eq_none (by simp; omega)]
      rfl

end Tree

/-! ## Where the root ends -/

theorem Position.max_ofOffset {source : Text} {first second : Nat} (hfirst : first ≤ source.length)
    (hsecond : second ≤ source.length) :
    (ofOffset source first).max (ofOffset source second) =
      ofOffset source (Max.max first second) := by
  unfold Position.max
  rcases Nat.lt_or_ge first second with hlt | hge
  · rw [if_pos (ofOffset_lt_ofOffset hlt hsecond), Nat.max_eq_right (Nat.le_of_lt hlt)]
  · rw [Nat.max_eq_left hge]
    rcases Nat.eq_or_lt_of_le hge with rfl | hlt
    · simp
    · rw [if_neg (not_lt_of_lt (ofOffset_lt_ofOffset hlt hfirst))]

theorem Outline.PlacedAt.latest_ofOffset {source : Text} {offset reached : Nat}
    {outline : Outline} (h : outline.PlacedAt source offset) (hle : offset ≤ reached)
    (hreached : reached ≤ source.length) :
    outline.latest (.ofOffset source reached) =
      .ofOffset source (max reached (offset + outline.source.length)) := by
  induction outline generalizing offset reached with
  | nil =>
      have hend : offset + nil.source.length ≤ reached := hle
      rw [max_eq_left hend]
      rfl
  | leaf part start stop next ih =>
      obtain ⟨hleaf, hnext⟩ := h
      have hstop : stop = .ofOffset source (offset + part.lexeme.length) := hleaf.stop_eq
      have hwithin : offset + part.lexeme.length ≤ source.length := hleaf.within
      rw [latest, hstop, Position.max_ofOffset hreached hwithin,
        ih hnext (le_max_right _ _) (max_le hreached hwithin), Outline.source,
        List.length_append]
      congr 1
      omega
  | definition opening inside closing next ihInside ihNext =>
      obtain ⟨-, ⟨headerStop, hopening⟩, hinside, hclosing, hnext⟩ := h
      have hstop := hclosing.stop_eq
      have hwithin := hclosing.within
      rw [Closing.item_lexeme_piece] at hstop hwithin
      have hclosingStop : closing.stop = _ := hstop
      rw [latest, hclosingStop, Position.max_ofOffset hreached hwithin,
        ihInside hinside (by omega) (by omega), ihNext hnext (by omega) (by omega), Outline.source]
      simp only [List.length_append]
      congr 1
      omega

namespace Tree

theorem rootStop_of_parse {source : Text} {tree : Tree} (h : parse source = .ok tree) :
    tree.rootStop = .ofOffset source source.length := by
  obtain ⟨outline, houtline, rfl⟩ := parse_eq_ok_iff.mp h
  have hplaced := Outline.placedAt_of_parse houtline
  have hlatest := hplaced.latest_ofOffset (Nat.le_refl 0) (Nat.zero_le _)
  rw [Position.ofOffset_zero, Outline.source_of_parse houtline] at hlatest
  simp [rootStop, node?_zero_ofOutline, hlatest]

end Tree

/-! ## Two sources in a row -/

namespace Outline

theorem eq_nil_of_topIds {first : Nat} {outline : Outline} (h : outline.topIds first = []) :
    outline = nil := by
  cases outline with
  | nil => rfl
  | leaf part start stop next => cases h
  | definition opening inside closing next => cases h

theorem Derives.isSealed_getLast? {pieces : List Piece} {outline : Outline}
    (h : Derives pieces outline) {tree : Tree} {parent first : Nat}
    (hstands : outline.StandsIn tree parent first)
    (hsealed : ((outline.topIds first).getLast?.bind tree.content?).any Content.isSealed = true) :
    ∃ piece, pieces.getLast? = some piece ∧ piece.item.isSealed = true := by
  induction h generalizing parent first with
  | nil => cases hsealed
  | @leaf part start stop rest next hnext ih =>
      obtain ⟨hnode, hnextStands⟩ := hstands
      cases hlast : (next.topIds (first + 1)).getLast? with
      | none =>
          -- Nothing stands behind the leaf, and so it is the last piece as well.
          obtain rfl := eq_nil_of_topIds (List.getLast?_eq_none_iff.mp hlast)
          cases hnext
          refine ⟨_, rfl, ?_⟩
          cases part <;> simp_all [topIds, Tree.content?, Content.isSealed, Leaf.content,
            Item.isSealed]
      | some last =>
          rw [topIds, List.getLast?_cons, hlast, Option.getD_some] at hsealed
          obtain ⟨piece, hpiece, hitem⟩ := ih hnextStands (by rw [hlast]; exact hsealed)
          exact ⟨piece, by rw [List.getLast?_cons, hpiece, Option.getD_some], hitem⟩
  | @definition kind header signature start headerStop inner rest inside next closing hkind
      hsignature hinside hnext ihInside ihNext =>
      obtain ⟨-, -, hnextStands⟩ := hstands
      cases hlast : (next.topIds (first + inside.count + 1)).getLast? with
      | none =>
          obtain rfl := eq_nil_of_topIds (List.getLast?_eq_none_iff.mp hlast)
          cases hnext
          exact ⟨closing.piece, by simp [List.getLast?_cons], rfl⟩
      | some last =>
          rw [topIds, List.getLast?_cons, hlast, Option.getD_some] at hsealed
          obtain ⟨piece, hpiece, hitem⟩ := ihNext hnextStands (by rw [hlast]; exact hsealed)
          exact ⟨piece, by simp [List.getLast?_cons, hpiece], hitem⟩

end Outline

namespace Tree

theorem endsSealed_of_parse {source : Text} {tree : Tree} (h : parse source = .ok tree)
    (hsealed : tree.isSealed = true) : Item.EndsSealed source := by
  obtain ⟨outline, houtline, rfl⟩ := parse_eq_ok_iff.mp h
  rw [isSealed, children_zero_ofOutline] at hsealed
  have hderives := Outline.parse_eq_ok_iff.mp houtline
  obtain ⟨piece, hpiece, hitem⟩ :=
    hderives.isSealed_getLast? (standsIn_ofOutline outline) hsealed
  have hitems : (Item.scan source).getLast? = some piece.item := by
    rw [← Piece.map_item_locate .origin (Item.scan source), List.getLast?_map, hpiece,
      Option.map_some]
  intro item hlast
  rw [hitems] at hlast
  cases hlast
  exact hitem

/--
Behind a source whose last part is a comment or a definition, every source is parsed as
if it stood alone, and counted on from the end of the first.
-/
theorem parse_append_of_isSealed {front : Text} {tree : Tree} (h : parse front = .ok tree)
    (hsealed : tree.isSealed = true) (behind : Text) :
    let move := (Position.ofOffset front front.length).shift
    parse (front ++ behind) =
        ((parse behind).map (tree.followedBy move)).mapError (Fault.moved move) ∧
      ∀ whole, parse (front ++ behind) = .ok whole →
        whole.rootStop = move (.ofOffset behind behind.length) := by
  have hends := endsSealed_of_parse h hsealed
  obtain ⟨outline, houtline, rfl⟩ := parse_eq_ok_iff.mp h
  have hparse := Outline.parse_append houtline hends behind
  have hstop : ∀ whole, parse (front ++ behind) = .ok whole →
      whole.rootStop =
        (Position.ofOffset front front.length).shift (.ofOffset behind behind.length) := by
    intro whole hwhole
    rw [rootStop_of_parse hwhole, List.length_append,
      Position.ofOffset_append_add hends.getLast?_ne]
  refine ⟨?_, hstop⟩
  rw [parse, hparse] at hstop ⊢
  cases hbehind : Outline.parse behind with
  | error fault => simp [parse, hbehind, Except.map, Except.mapError]
  | ok next =>
      have htree : parse behind = .ok (ofOutline next) := by rw [parse, hbehind]; rfl
      rw [hbehind] at hstop
      have hroot := hstop _ rfl
      rw [← rootStop_of_parse htree] at hroot
      rw [htree]
      exact congrArg Except.ok (ofOutline_append hroot)

/-- Behind a definition of two lines, the first line of a source goes on in the second line. -/
theorem parse_append_of_isSealed_multiline : ∃ front behind faulty tree next,
    front = "é<#macro m x>\r\n<@y/></#macro >".toList ∧
      behind = "z\n<#function f></#function>".toList ∧
      faulty = "b<#-- c --></#function>".toList ∧
      parse front = .ok tree ∧ tree.isSealed = true ∧
      parse behind = .ok next ∧
      parse (front ++ behind) = .ok (tree.followedBy (Position.shift ⟨2, 16⟩) next) ∧
      parse faulty = .error (.unexpectedClosing "</#function>".toList ⟨1, 12⟩) ∧
      parse (front ++ faulty) =
        .error (.unexpectedClosing "</#function>".toList ⟨2, 27⟩) := by
  obtain ⟨front, hfront⟩ : ∃ front : Text, front =
      "é<#macro m x>\r\n<@y/></#macro >".toList := ⟨_, rfl⟩
  obtain ⟨behind, hbehind⟩ : ∃ behind : Text, behind =
      "z\n<#function f></#function>".toList := ⟨_, rfl⟩
  obtain ⟨faulty, hfaulty⟩ : ∃ faulty : Text, faulty = "b<#-- c --></#function>".toList :=
    ⟨_, rfl⟩
  have hsealed : (parse front).toOption.any isSealed = true := by
    rw [hfront]
    decide +kernel
  have hend : Position.ofOffset front front.length = ⟨2, 16⟩ := by
    rw [hfront]
    decide +kernel
  have hparsed : (parse behind).toOption.isSome = true := by
    rw [hbehind]
    decide +kernel
  have hfault : parse faulty = .error (.unexpectedClosing "</#function>".toList ⟨1, 12⟩) := by
    rw [hfaulty]
    decide +kernel
  cases hparse : parse front with
  | error fault =>
      rw [hparse] at hsealed
      cases hsealed
  | ok tree =>
  cases hnext : parse behind with
  | error fault =>
      rw [hnext] at hparsed
      cases hparsed
  | ok next =>
      rw [hparse] at hsealed
      have happend := (parse_append_of_isSealed hparse hsealed behind).1
      have hfailed := (parse_append_of_isSealed hparse hsealed faulty).1
      rw [hend, hnext] at happend
      rw [hend, hfault] at hfailed
      exact ⟨front, behind, faulty, tree, next, hfront, hbehind, hfaulty, hparse, hsealed, hnext,
        happend, hfault, hfailed⟩

end Tree

end TemplateDocs

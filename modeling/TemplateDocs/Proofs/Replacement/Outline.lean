import TemplateDocs.Proofs.Concatenation.Tree
import TemplateDocs.Proofs.Replacement.Item
import TemplateDocs.Proofs.Tree.Tiling

/-!
# Outlines with another comment

An outline with another body in one of its comments is described by the way to that
comment (`Outline.Recommented`), together with the texts on both sides of it.  Numbers and
nesting stay as they are, and the pieces of the one outline are those of the other but for
the comment; so the source with the other body has the other outline, up to positions
(`Outline.parse_replace`).
-/

namespace TemplateDocs

namespace Outline

/--
The second outline is the first one with another body in the comment with number `target`,
when parts are numbered from `first` on.  The texts are those before and behind the comment.
-/
inductive Recommented (body other : Text) :
    Nat → Nat → Text → Text → Outline → Outline → Prop where
  | here {first : Nat} {start stop : Position} {next : Outline} :
      Recommented body other first first [] next.source
        (.leaf (.comment body) start stop next) (.leaf (.comment other) start stop next)
  | behindLeaf {first target : Nat} {front back : Text} {part : Leaf} {start stop : Position}
      {next changed : Outline}
      (h : Recommented body other (first + 1) target front back next changed) :
      Recommented body other first target (part.lexeme ++ front) back
        (.leaf part start stop next) (.leaf part start stop changed)
  | inside {first target : Nat} {front back : Text} {opening : Opening} {closing : Closing}
      {inside changed next : Outline}
      (h : Recommented body other (first + 1) target front back inside changed) :
      Recommented body other first target (opening.lexeme ++ front)
        (back ++ (closing.lexeme ++ next.source))
        (.definition opening inside closing next) (.definition opening changed closing next)
  | behindDefinition {first target : Nat} {front back : Text} {opening : Opening}
      {closing : Closing} {inside next changed : Outline}
      (h : Recommented body other (first + inside.count + 1) target front back next changed) :
      Recommented body other first target
        (opening.lexeme ++ (inside.source ++ (closing.lexeme ++ front))) back
        (.definition opening inside closing next) (.definition opening inside closing changed)

/-- The way to a comment of a tree, and what another body makes of the outline. -/
theorem StandsIn.exists_recommented {tree : Tree} {parent first target : Nat} {outline : Outline}
    (h : outline.StandsIn tree parent first) (hle : first ≤ target)
    (hlt : target < first + outline.count) {body : Text}
    (hbody : tree.content? target = some (.comment body)) (other : Text) :
    ∃ front back changed, Recommented body other first target front back outline changed := by
  induction outline generalizing parent first with
  | nil =>
      rw [count] at hlt
      omega
  | leaf part start stop next ih =>
      rw [count] at hlt
      rcases Nat.eq_or_lt_of_le hle with rfl | hbehind
      · rw [Tree.content?, h.1, Option.map_some, Option.some.injEq] at hbody
        rw [Leaf.eq_comment_of_content hbody]
        exact ⟨_, _, _, .here⟩
      · rcases ih h.2 hbehind (by omega) with ⟨front, back, changed, hway⟩
        exact ⟨_, _, _, .behindLeaf hway⟩
  | definition opening inside closing next ihInside ihNext =>
      rw [count] at hlt
      rcases Nat.eq_or_lt_of_le hle with rfl | hbehind
      · rw [Tree.content?, h.1, Option.map_some, Option.some.injEq] at hbody
        cases hbody
      · by_cases hinner : target < first + 1 + inside.count
        · rcases ihInside h.2.1 hbehind hinner with ⟨front, back, changed, hway⟩
          exact ⟨_, _, _, .inside hway⟩
        · rcases ihNext h.2.2 (by omega) (by omega) with ⟨front, back, changed, hway⟩
          exact ⟨_, _, _, .behindDefinition hway⟩

namespace Recommented

variable {body other : Text} {first target : Nat} {front back : Text} {outline changed : Outline}

theorem symm (h : Recommented body other first target front back outline changed) :
    Recommented other body first target front back changed outline := by
  induction h with
  | here => exact .here
  | behindLeaf h ih => exact .behindLeaf ih
  | inside h ih => exact .inside ih
  | behindDefinition h ih => exact .behindDefinition ih

theorem source_eq (h : Recommented body other first target front back outline changed) :
    outline.source = front ++ (Leaf.comment body).lexeme ++ back := by
  induction h with
  | here => rfl
  | behindLeaf h ih => rw [source, ih, List.append_assoc, List.append_assoc, List.append_assoc]
  | inside h ih => simp [source, ih]
  | behindDefinition h ih => simp [source, ih]

theorem count_eq (h : Recommented body other first target front back outline changed) :
    changed.count = outline.count := by
  induction h with
  | here => rfl
  | behindLeaf h ih => rw [count, count, ih]
  | inside h ih => rw [count, count, ih]
  | behindDefinition h ih => rw [count, count, ih]

theorem topIds_eq (h : Recommented body other first target front back outline changed)
    (number : Nat) : changed.topIds number = outline.topIds number := by
  induction h generalizing number with
  | here => rfl
  | behindLeaf h ih => rw [topIds, topIds, ih]
  | inside h ih => rw [topIds, topIds, h.count_eq]
  | behindDefinition h ih => rw [topIds, topIds, ih]

theorem le_target (h : Recommented body other first target front back outline changed) :
    first ≤ target ∧ target < first + outline.count := by
  induction h with
  | here =>
      rw [count]
      omega
  | behindLeaf h ih =>
      rw [count]
      omega
  | inside h ih =>
      rw [count]
      omega
  | behindDefinition h ih =>
      rw [count]
      omega

theorem exists_pieces (h : Recommented body other first target front back outline changed)
    {pieces : List Piece} (hpieces : Derives pieces outline) :
    ∃ before after start stop,
      pieces = before ++ ⟨.leaf (.comment body), start, stop⟩ :: after ∧
        Derives (before ++ ⟨.leaf (.comment other), start, stop⟩ :: after) changed ∧
        (before.map Piece.item).flatMap Item.lexeme = front := by
  induction h generalizing pieces with
  | here =>
      cases hpieces with
      | leaf hnext => exact ⟨[], _, _, _, rfl, .leaf hnext, rfl⟩
  | behindLeaf h ih =>
      cases hpieces with
      | leaf hnext =>
          rcases ih hnext with ⟨before, after, start, stop, rfl, hchanged, rfl⟩
          exact ⟨_ :: before, after, start, stop, rfl, .leaf hchanged, rfl⟩
  | @inside first target front back opening closing inside changed next h ih =>
      cases hpieces with
      | @definition kind header _ tagStart tagStop _ rest _ _ _ hkind hsignature hinside hnext =>
          rcases ih hinside with ⟨before, after, start, stop, rfl, hchanged, rfl⟩
          refine ⟨⟨.opening kind header, tagStart, tagStop⟩ :: before,
            after ++ closing.piece :: rest, start, stop, by simp, ?_, rfl⟩
          simpa using Derives.definition hkind hsignature hchanged hnext
  | @behindDefinition first target front back opening closing inside next changed h ih =>
      cases hpieces with
      | @definition kind header _ tagStart tagStop inner _ _ _ _ hkind hsignature hinside hnext =>
          rcases ih hnext with ⟨before, after, start, stop, rfl, hchanged, rfl⟩
          refine ⟨⟨.opening kind header, tagStart, tagStop⟩ :: (inner ++ closing.piece :: before),
            after, start, stop, by simp, ?_, ?_⟩
          · simpa using Derives.definition hkind hsignature hinside hchanged
          · rw [← hinside.flatMap_lexeme, List.map_cons, List.flatMap_cons, List.map_append,
              List.flatMap_append]
            rfl

/-- In front of the comment the stretches of the parts stay, but for those around it. -/
theorem span_eq_or_lt (h : Recommented body other first target front back outline changed)
    (offset : Nat) {id : Nat} (hle : first ≤ id) (hlt : id < target) :
    changed.span first offset id = outline.span first offset id ∨
      offset + front.length < (outline.span first offset id).2 := by
  induction h generalizing offset with
  | here => omega
  | @behindLeaf first target front back part start stop next changed h ih =>
      rw [span, span]
      split
      · exact .inl rfl
      · next hid =>
          rw [List.length_append, ← Nat.add_assoc]
          exact ih _ (by omega) hlt
  | @inside first target front back opening closing inside changed next h ih =>
      have htarget := h.le_target
      have hsource := congrArg List.length h.source_eq
      rw [List.length_append, List.length_append] at hsource
      have hcomment : 0 < (Leaf.comment body).lexeme.length := by
        simp [Leaf.lexeme, Tag.commentOpen]
      by_cases hid : id = first
      · simp only [span, hid, if_true, List.length_append]
        omega
      · have hinner : id < first + inside.count + 1 := by omega
        simp only [span, h.count_eq, hid, hinner, if_true, if_false]
        rw [List.length_append, ← Nat.add_assoc]
        exact ih _ (by omega) hlt
  | @behindDefinition first target front back opening closing inside next changed h ih =>
      simp only [span, List.length_append, ← Nat.add_assoc]
      split
      · exact .inl rfl
      · split
        · exact .inl rfl
        · exact ih _ (by omega) hlt

theorem span_target (h : Recommented body other first target front back outline changed)
    (offset : Nat) : (outline.span first offset target).1 = offset + front.length := by
  induction h generalizing offset with
  | here => simp [span]
  | @behindLeaf first target front back part start stop next changed h ih =>
      have htarget := h.le_target
      have hne : target ≠ first := by omega
      rw [span, if_neg hne, ih, List.length_append, Nat.add_assoc]
  | @inside first target front back opening closing inside changed next h ih =>
      have htarget := h.le_target
      have hne : target ≠ first := by omega
      have hinner : target < first + inside.count + 1 := by omega
      simp only [span, hne, hinner, if_true, if_false]
      rw [ih, List.length_append, Nat.add_assoc]
  | @behindDefinition first target front back opening closing inside next changed h ih =>
      have htarget := h.le_target
      have hne : target ≠ first := by omega
      have hbehind : ¬ target < first + inside.count + 1 := by omega
      simp only [span, hne, hbehind, if_false]
      rw [ih]
      simp only [List.length_append, Nat.add_assoc]

end Recommented

@[simp] theorem span_moved (move : Position → Position) (first offset : Nat) (outline : Outline)
    (id : Nat) : (outline.moved move).span first offset id = outline.span first offset id := by
  induction outline generalizing first offset with
  | nil => rfl
  | leaf part start stop next ih => rw [moved, span, span, ih]
  | definition opening inside closing next ihInside ihNext =>
      rw [moved, span, span, ihInside, ihNext, source_moved, count_moved]
      rfl

theorem Piece.map_moved_origin (pieces : List Piece) :
    pieces.map (Piece.moved fun _ => .origin) =
      (pieces.map Piece.item).map fun item => ⟨item, .origin, .origin⟩ := by
  rw [List.map_map]
  rfl

theorem parse_replace {source : Text} {outline : Outline} (h : parse source = .ok outline)
    {body other front back : Text} {target : Nat} {changed : Outline}
    (hway : Recommented body other 1 target front back outline changed)
    (hother : Tag.IsCommentBody other) :
    ∃ found, parse (front ++ (Leaf.comment other).lexeme ++ back) = .ok found ∧
      found.moved (fun _ => .origin) = changed.moved fun _ => .origin := by
  have hsource := source_of_parse h
  rw [hway.source_eq] at hsource
  rw [parse_eq_ok_iff] at h
  rcases hway.exists_pieces h with ⟨before, after, start, stop, hpieces, hchanged, hfront⟩
  have hscan := congrArg (List.map Piece.item) hpieces
  rw [Piece.map_item_locate, List.map_append, List.map_cons, ← hsource, ← hfront] at hscan
  have hreplaced := Item.scan_replace hscan hother
  rw [hfront] at hreplaced
  have hmoved := congrArg (Levels.moved fun _ => Position.origin)
    (Levels.ofPieces_eq_done_iff.mpr hchanged)
  rw [← Levels.ofPieces_moved, Piece.map_moved_origin, List.map_append, List.map_cons,
    ← hreplaced, ← Piece.map_item_locate .origin (Item.scan _), ← Piece.map_moved_origin,
    Levels.ofPieces_moved] at hmoved
  rw [parse]
  cases hfound : Levels.ofPieces (Piece.locate .origin
      (Item.scan (front ++ (Leaf.comment other).lexeme ++ back))) with
  | done found =>
      rw [hfound] at hmoved
      exact ⟨found, rfl, Levels.done.inj hmoved⟩
  | closed outline closing rest =>
      rw [hfound] at hmoved
      cases hmoved
  | failed fault =>
      rw [hfound] at hmoved
      cases hmoved

end Outline

end TemplateDocs

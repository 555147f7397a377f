import TemplateDocs.Proofs.Concatenation.Item
import TemplateDocs.Proofs.Template.Grammar

/-!
# The outline of two sources in a row

Behind another source every position is counted on from the end of that source
(`Position.shift`), and nothing else changes: the outline is that of the first source with
the one of the second behind it, or the first fault is that of the second
(`Outline.parse_append`).
-/

namespace TemplateDocs

namespace Position

/-- A position of a text that starts at `base`: only its first line goes on in the line there. -/
def shift (base position : Position) : Position :=
  if position.line = 1 then
    ⟨base.line, base.column + position.column - 1⟩
  else
    ⟨base.line + position.line - 1, position.column⟩

@[simp] theorem shift_origin (base : Position) : base.shift origin = base :=
  rfl

def IsCounted (position : Position) : Prop :=
  1 ≤ position.line ∧ 1 ≤ position.column

theorem IsCounted.step {position : Position} (h : position.IsCounted) (c : Char)
    (following : Option Char) : (position.step c following).IsCounted := by
  obtain ⟨hline, hcolumn⟩ := h
  unfold IsCounted Position.step
  split <;> simp only <;> omega

theorem IsCounted.shift_step {position : Position} (h : position.IsCounted) (base : Position)
    (c : Char) (following : Option Char) :
    base.shift (position.step c following) = (base.shift position).step c following := by
  obtain ⟨hline, hcolumn⟩ := h
  by_cases hfirst : position.line = 1 <;> by_cases hend : endsLine c following = true
  · simp [Position.step, shift, hfirst, hend]
  · simp [Position.step, shift, hfirst, hend]
    omega
  · simp [Position.step, shift, hfirst, hend, show position.line ≠ 0 by omega]
    omega
  · simp [Position.step, shift, hfirst, hend]

theorem IsCounted.shift_advance {position : Position} (h : position.IsCounted) (base : Position)
    (text : Text) (following : Option Char) :
    base.shift (position.advance text following) =
      (base.shift position).advance text following := by
  induction text generalizing position with
  | nil => rfl
  | cons c rest ih => rw [advance, advance, ih (h.step ..), h.shift_step]

theorem isCounted_origin : origin.IsCounted :=
  ⟨Nat.le_refl 1, Nat.le_refl 1⟩

/-- Only behind a return does it matter what follows a text. -/
theorem advance_eq_of_getLast? {text : Text} (h : text.getLast? ≠ some '\r')
    (position : Position) (following other : Option Char) :
    position.advance text following = position.advance text other := by
  induction text generalizing position with
  | nil => rfl
  | cons c rest ih =>
      rw [advance, advance]
      cases rest with
      | nil =>
          have hc : c ≠ '\r' := by simpa using h
          simp [advance, step, endsLine, hc]
      | cons d rest =>
          rw [List.getLast?_cons_cons] at h
          exact ih h _

theorem ofOffset_append_of_le {front : Text} (h : front.getLast? ≠ some '\r') (behind : Text)
    {offset : Nat} (hle : offset ≤ front.length) :
    ofOffset (front ++ behind) offset = ofOffset front offset := by
  unfold ofOffset
  rw [List.take_append_of_le_length hle, List.drop_append_of_le_length hle, List.head?_append]
  cases hdrop : front.drop offset with
  | cons c rest => rfl
  | nil =>
      have htake : front.take offset = front :=
        List.take_of_length_le (List.drop_eq_nil_iff.mp hdrop)
      rw [htake]
      exact advance_eq_of_getLast? h origin _ _

theorem ofOffset_append_add {front : Text} (h : front.getLast? ≠ some '\r') (behind : Text)
    (offset : Nat) :
    ofOffset (front ++ behind) (front.length + offset) =
      (ofOffset front front.length).shift (ofOffset behind offset) := by
  have hbase : ofOffset front front.length = origin.advance front none := by simp [ofOffset]
  unfold ofOffset at hbase ⊢
  rw [List.take_length_add_append, List.drop_length_add_append, advance_append, hbase,
    isCounted_origin.shift_advance, shift_origin, advance_eq_of_getLast? h origin _ none]

end Position

namespace Piece

def moved (move : Position → Position) (piece : Piece) : Piece :=
  ⟨piece.item, move piece.start, move piece.stop⟩

theorem spread_append (source : Text) (offset : Nat) (first second : List Item) :
    spread source offset (first ++ second) =
      spread source offset first ++
        spread source (offset + (first.flatMap Item.lexeme).length) second := by
  induction first generalizing offset with
  | nil => rfl
  | cons item first ih => simp [spread, ih, Nat.add_assoc]

theorem spread_front {front : Text} (h : front.getLast? ≠ some '\r') (behind : Text)
    {items : List Item} {offset : Nat}
    (hle : offset + (items.flatMap Item.lexeme).length ≤ front.length) :
    spread (front ++ behind) offset items = spread front offset items := by
  induction items generalizing offset with
  | nil => rfl
  | cons item items ih =>
      rw [List.flatMap_cons, List.length_append] at hle
      rw [spread, spread, ih (by omega), Position.ofOffset_append_of_le h behind (by omega),
        Position.ofOffset_append_of_le h behind (by omega)]

theorem spread_behind {front : Text} (h : front.getLast? ≠ some '\r') (behind : Text)
    (items : List Item) (offset : Nat) :
    spread (front ++ behind) (front.length + offset) items =
      (spread behind offset items).map
        (moved (Position.ofOffset front front.length).shift) := by
  induction items generalizing offset with
  | nil => rfl
  | cons item items ih =>
      rw [spread, spread, List.map_cons, moved, Nat.add_assoc, ih,
        Position.ofOffset_append_add h, Position.ofOffset_append_add h]

theorem locate_scan_append {front : Text} (hsealed : Item.EndsSealed front) (behind : Text) :
    locate .origin (Item.scan (front ++ behind)) =
      locate .origin (Item.scan front) ++
        (locate .origin (Item.scan behind)).map
          (moved (Position.ofOffset front front.length).shift) := by
  have h := hsealed.getLast?_ne
  have hlength : 0 + ((Item.scan front).flatMap Item.lexeme).length = front.length := by
    rw [Item.flatMap_lexeme_scan, Nat.zero_add]
  rw [locate_scan, locate_scan, locate_scan, Item.scan_append hsealed, spread_append, hlength,
    spread_front h behind (Nat.le_of_eq hlength)]
  exact congrArg _ (spread_behind h behind (Item.scan behind) 0)

end Piece

/-! ## Outlines at other positions -/

def Fault.moved (move : Position → Position) : Fault → Fault
  | unclosedComment start => unclosedComment (move start)
  | unclosedDefinition kind name start => unclosedDefinition kind name (move start)
  | unexpectedClosing tag start => unexpectedClosing tag (move start)
  | missingName kind start => missingName kind (move start)
  | fault => fault

def Opening.moved (move : Position → Position) (opening : Opening) : Opening :=
  { opening with start := move opening.start }

def Closing.moved (move : Position → Position) (closing : Closing) : Closing :=
  { closing with start := move closing.start, stop := move closing.stop }

def Outline.moved (move : Position → Position) : Outline → Outline
  | nil => nil
  | leaf part start stop next => leaf part (move start) (move stop) (next.moved move)
  | definition opening inside closing next =>
      definition (opening.moved move) (inside.moved move) (closing.moved move) (next.moved move)

namespace Levels

variable (move : Position → Position)

def moved : Levels → Levels
  | done outline => done (outline.moved move)
  | closed outline closing rest =>
      closed (outline.moved move) (closing.moved move) rest.moved
  | failed fault => failed (fault.moved move)

theorem mapFirst_moved (change other : Outline → Outline)
    (h : ∀ outline, (change outline).moved move = other (outline.moved move)) (levels : Levels) :
    (levels.moved move).mapFirst other = (levels.mapFirst change).moved move := by
  cases levels with
  | done outline => simp [mapFirst, moved, h]
  | closed outline closing rest => simp [mapFirst, moved, h]
  | failed fault => rfl

theorem enclose_moved (opening : Opening) (levels : Levels) :
    (levels.moved move).enclose (opening.moved move) = (levels.enclose opening).moved move := by
  cases levels with
  | done outline => rfl
  | closed inside closing rest =>
      have hkinds : (closing.moved move).kind = (opening.moved move).kind ↔
          closing.kind = opening.kind := Iff.rfl
      by_cases hkind : closing.kind = opening.kind
      · rw [moved, enclose, enclose, if_pos hkind, if_pos (hkinds.mpr hkind)]
        exact mapFirst_moved move (.definition opening inside closing)
          (.definition (opening.moved move) (inside.moved move) (closing.moved move))
          (fun _ => rfl) rest
      · rw [moved, enclose, enclose, if_neg hkind, if_neg (mt hkinds.mp hkind)]
        rfl
  | failed fault => rfl

theorem add_moved (piece : Piece) (levels : Levels) :
    (levels.moved move).add (piece.moved move) = (levels.add piece).moved move := by
  obtain ⟨item, start, stop⟩ := piece
  cases item with
  | leaf part =>
      exact mapFirst_moved move (.leaf part start stop) (.leaf part (move start) (move stop))
        (fun _ => rfl) levels
  | closing kind gap => rfl
  | openComment rest => rfl
  | openHeader kind rest => rfl
  | opening kind header =>
      simp only [add, Piece.moved]
      cases (Header.parse header).signature? with
      | none => rfl
      | some signature => exact enclose_moved move ⟨kind, header, signature, start⟩ levels

theorem ofPieces_moved (pieces : List Piece) :
    ofPieces (pieces.map (Piece.moved move)) = (ofPieces pieces).moved move := by
  induction pieces with
  | nil => rfl
  | cons piece rest ih => rw [List.map_cons, ofPieces, ofPieces, ih, add_moved]

/-- Behind an outline that is in order, the first fault is that of the rest. -/
theorem outline_mapFirst_moved (change : Outline → Outline) (levels : Levels) :
    ((levels.moved move).mapFirst change).outline =
      (levels.outline.map fun outline => change (outline.moved move)).mapError
        (Fault.moved move) := by
  cases levels <;> rfl

end Levels

/-- The outline of two sources in a row, or the first fault of the second. -/
theorem Outline.parse_append {front : Text} {outline : Outline}
    (h : parse front = .ok outline) (hsealed : Item.EndsSealed front) (behind : Text) :
    let move := (Position.ofOffset front front.length).shift
    parse (front ++ behind) =
      ((parse behind).map fun next => outline.append (next.moved move)).mapError
        (Fault.moved move) := by
  rw [parse_eq_ok_iff] at h
  simp only [parse]
  rw [Piece.locate_scan_append hsealed, Levels.ofPieces_append h, Levels.ofPieces_moved,
    Levels.outline_mapFirst_moved]

end TemplateDocs

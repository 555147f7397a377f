import TemplateDocs.Proofs.Position.Offset
import TemplateDocs.Template.Outline

/-!
# Located items

The items of a source fill it: each stands at the offset where the one before it
ends, is what the scan finds there, and has the positions of its two ends
(`fillsFrom_spread_scan`).
-/

namespace TemplateDocs

namespace Text

theorem drop_add_of_drop_eq {source stretch rest : Text} {offset : Nat}
    (h : source.drop offset = stretch ++ rest) :
    source.drop (offset + stretch.length) = rest := by
  rw [← List.drop_drop, h, List.drop_left]

theorem extract_of_drop_eq {source stretch rest : Text} {offset : Nat}
    (h : source.drop offset = stretch ++ rest) :
    source.extract offset (offset + stretch.length) = stretch := by
  rw [List.extract_eq_take_drop, h, Nat.add_sub_cancel_left, List.take_left]

end Text

namespace Item

theorem tagItem_cases (text : Text) :
    comment? text = some (tagItem text) ∨
      (∃ kind, closing? kind text = some (tagItem text)) ∨
      (∃ kind, opening? kind text = some (tagItem text)) ∨
      tagItem text = otherTag text := by
  unfold tagItem
  cases hcomment : comment? text with
  | some found => exact .inl rfl
  | none =>
  cases hmacro : closing? .macroDef text with
  | some found => exact .inr (.inl ⟨.macroDef, hmacro⟩)
  | none =>
  cases hfunction : closing? .functionDef text with
  | some found => exact .inr (.inl ⟨.functionDef, hfunction⟩)
  | none =>
  cases hmacro : opening? .macroDef text with
  | some found => exact .inr (.inr (.inl ⟨.macroDef, hmacro⟩))
  | none =>
  cases hfunction : opening? .functionDef text with
  | some found => exact .inr (.inr (.inl ⟨.functionDef, hfunction⟩))
  | none => exact .inr (.inr (.inr rfl))

theorem tagItem_ne_text (text run : Text) : (tagItem text).1 ≠ leaf (.text run) := by
  rcases tagItem_cases text with h | ⟨kind, h⟩ | ⟨kind, h⟩ | h
  · simp only [comment?, Option.map_eq_some_iff] at h
    obtain ⟨inside, -, h⟩ := h
    rw [← h]
    split <;> simp
  · simp only [closing?, Option.bind_eq_some_iff] at h
    obtain ⟨inside, -, h⟩ := h
    split at h <;> simp only [Option.some.injEq, reduceCtorEq] at h
    rw [← h]
    simp
  · simp only [opening?, Option.bind_eq_some_iff] at h
    obtain ⟨inside, -, h⟩ := h
    split at h
    · split at h <;>
        · rw [← Option.some.inj h]
          simp
    · cases h
  · rw [h, otherTag]
    split <;> simp

theorem startsHere_textRun {text : Text} (h : (textRun text).2 ≠ []) :
    Tag.startsHere (textRun text).2 = true := by
  induction text with
  | nil => exact absurd rfl h
  | cons c rest ih =>
      simp only [textRun] at h ⊢
      split
      · next hstarts => exact hstarts
      · next hstarts =>
          rw [if_neg hstarts] at h
          exact ih h

/-- Of two neighbours at most one is text, since a run of text goes on to the next tag. -/
theorem next_ne_text_of_next_eq_text {text run rest : Text}
    (h : next text = (leaf (.text run), rest)) (hrest : rest ≠ []) (other : Text) :
    (next rest).1 ≠ leaf (.text other) := by
  have hstarts : Tag.startsHere rest = true := by
    unfold next at h
    split at h
    · exact absurd (congrArg Prod.fst h) (tagItem_ne_text text run)
    · simp only [Prod.mk.injEq] at h
      rw [← h.2]
      exact startsHere_textRun (by rw [h.2]; exact hrest)
  unfold next
  rw [if_pos hstarts]
  exact tagItem_ne_text rest other

end Item

namespace Piece

def spread (source : Text) (offset : Nat) : List Item → List Piece
  | [] => []
  | item :: rest =>
      ⟨item, .ofOffset source offset, .ofOffset source (offset + item.lexeme.length)⟩ ::
        spread source (offset + item.lexeme.length) rest

@[simp] theorem map_item_spread (source : Text) (offset : Nat) (items : List Item) :
    (spread source offset items).map Piece.item = items := by
  induction items generalizing offset with
  | nil => rfl
  | cons item rest ih => simp [spread, ih]

theorem locate_eq_spread {source : Text} {offset : Nat} {items : List Item}
    (hfill : source.drop offset = items.flatMap Item.lexeme)
    (hne : ∀ item ∈ items, item.lexeme ≠ []) :
    locate (.ofOffset source offset) items = spread source offset items := by
  induction items generalizing offset with
  | nil => rfl
  | cons item rest ih =>
      rw [List.flatMap_cons] at hfill
      have hfollowing : (rest.flatMap Item.lexeme).head? =
          rest.head?.bind fun after => after.lexeme.head? := by
        cases rest with
        | nil => rfl
        | cons after rest =>
            have hafter : after.lexeme ≠ [] := hne after (by simp)
            rw [List.flatMap_cons, List.head?_append]
            cases hlexeme : after.lexeme with
            | nil => exact absurd hlexeme hafter
            | cons c lexeme => simp [hlexeme]
      have hstop := Position.ofOffset_add hfill
      have hrest := Text.drop_add_of_drop_eq hfill
      simp only [locate, spread]
      rw [← hfollowing, ← hstop, ih hrest fun other hother => hne other (by simp [hother])]

theorem locate_scan (source : Text) :
    locate .origin (Item.scan source) = spread source 0 (Item.scan source) := by
  rw [← Position.ofOffset_zero source]
  apply locate_eq_spread
  · rw [Item.flatMap_lexeme_scan, List.drop_zero]
  · intro item hitem
    exact Item.lexeme_ne_nil_of_mem_scan hitem

/-- The piece is what the scan finds at an offset of the source, with its two positions. -/
structure StandsAt (source : Text) (offset : Nat) (piece : Piece) : Prop where
  scanned : Item.next (source.drop offset) =
    (piece.item, source.drop (offset + piece.item.lexeme.length))
  ne_nil : piece.item.lexeme ≠ []
  within : offset + piece.item.lexeme.length ≤ source.length
  start_eq : piece.start = .ofOffset source offset
  stop_eq : piece.stop = .ofOffset source (offset + piece.item.lexeme.length)

theorem StandsAt.drop_eq {source : Text} {offset : Nat} {piece : Piece}
    (h : piece.StandsAt source offset) :
    source.drop offset =
      piece.item.lexeme ++ source.drop (offset + piece.item.lexeme.length) := by
  have happend := Item.lexeme_append_next (source.drop offset)
  rw [h.scanned] at happend
  exact happend.symm

def FillsFrom (source : Text) : Nat → List Piece → Prop
  | offset, [] => offset = source.length
  | offset, piece :: rest =>
      piece.StandsAt source offset ∧
        FillsFrom source (offset + piece.item.lexeme.length) rest

theorem fillsFrom_spread {source : Text} {offset : Nat} {items : List Item}
    (hoffset : offset ≤ source.length) (hitems : Item.scan (source.drop offset) = items) :
    FillsFrom source offset (spread source offset items) := by
  induction items generalizing offset with
  | nil =>
      have hflat := Item.flatMap_lexeme_scan (source.drop offset)
      rw [hitems, List.flatMap_nil] at hflat
      have hlength := List.drop_eq_nil_iff.mp hflat.symm
      exact Nat.le_antisymm hoffset hlength
  | cons item rest ih =>
      have hne : source.drop offset ≠ [] := by
        intro hnil
        rw [hnil] at hitems
        cases hitems
      rw [Item.scan_of_ne_nil hne, List.cons.injEq] at hitems
      obtain ⟨hitem, hrest⟩ := hitems
      have happend := Item.lexeme_append_next (source.drop offset)
      have hlexeme := Item.lexeme_next_ne_nil hne
      rw [hitem] at happend hlexeme
      have hbehind : (Item.next (source.drop offset)).2 =
          source.drop (offset + item.lexeme.length) :=
        (Text.drop_add_of_drop_eq happend.symm).symm
      have hwithin : offset + item.lexeme.length ≤ source.length := by
        have hlength := congrArg List.length happend
        rw [List.length_append, List.length_drop] at hlength
        omega
      rw [hbehind] at hrest
      refine ⟨⟨?_, hlexeme, hwithin, rfl, rfl⟩, ih hwithin hrest⟩
      rw [← hbehind]
      exact Prod.ext hitem rfl

theorem fillsFrom_spread_scan (source : Text) :
    FillsFrom source 0 (spread source 0 (Item.scan source)) :=
  fillsFrom_spread (Nat.zero_le _) (by rw [List.drop_zero])

end Piece

end TemplateDocs

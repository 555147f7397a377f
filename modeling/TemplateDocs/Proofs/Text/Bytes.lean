import TemplateDocs.Text.Basic

/-!
# Bytes

A text is stored as bytes, one to four for each character.  A byte below 128 is a character
of its own and never part of another one (`utf8EncodeChar_of_lt`, `le_of_mem_utf8EncodeChar`),
so a search for such a character may go by bytes.
-/

namespace TemplateDocs

namespace Text

def bytes (text : Text) : List UInt8 :=
  text.flatMap String.utf8EncodeChar

def byteOffset (source : Text) (offset : Nat) : Nat :=
  byteSize (source.take offset)

@[simp] theorem bytes_cons (c : Char) (text : Text) :
    bytes (c :: text) = String.utf8EncodeChar c ++ bytes text :=
  List.flatMap_cons

theorem foldl_utf8Size (text : Text) (size : Nat) :
    text.foldl (fun size c => size + c.utf8Size) size = size + byteSize text := by
  induction text generalizing size with
  | nil => rfl
  | cons c text ih =>
      rw [byteSize, List.foldl_cons, List.foldl_cons, ih, ih]
      omega

@[simp] theorem byteSize_cons (c : Char) (text : Text) :
    byteSize (c :: text) = c.utf8Size + byteSize text := by
  rw [byteSize, List.foldl_cons, foldl_utf8Size, Nat.zero_add]

theorem byteSize_singleton (c : Char) : byteSize [c] = c.utf8Size := by
  rw [byteSize_cons]
  rfl

theorem byteSize_append (first second : Text) :
    byteSize (first ++ second) = byteSize first + byteSize second := by
  rw [byteSize, List.foldl_append, foldl_utf8Size]
  rfl

theorem length_bytes (text : Text) : (bytes text).length = byteSize text := by
  induction text with
  | nil => rfl
  | cons c text ih =>
      rw [bytes_cons, List.length_append, String.length_utf8EncodeChar, byteSize_cons, ih]

theorem byteSize_pos {text : Text} (h : text ≠ []) : 0 < byteSize text := by
  cases text with
  | nil => exact absurd rfl h
  | cons c text =>
      rw [byteSize_cons]
      exact Nat.add_pos_left c.utf8Size_pos _

theorem length_le_byteSize (text : Text) : text.length ≤ byteSize text := by
  induction text with
  | nil => exact Nat.le_refl 0
  | cons c text ih =>
      have hpos := c.utf8Size_pos
      rw [List.length_cons, byteSize_cons]
      omega

/-! ## Parts of a text by bytes -/

theorem dropBytes?_append (first rest : Text) :
    dropBytes? (byteSize first) (first ++ rest) = some rest := by
  induction first with
  | nil => cases rest <;> simp [dropBytes?, byteSize]
  | cons c first ih =>
      have hpos := c.utf8Size_pos
      rw [List.cons_append, dropBytes?, byteSize_cons, if_neg (by omega), if_pos (by omega),
        Nat.add_sub_cancel_left, ih]

theorem takeBytes?_append (first rest : Text) :
    takeBytes? (byteSize first) (first ++ rest) = some first := by
  induction first with
  | nil => cases rest <;> simp [takeBytes?, byteSize]
  | cons c first ih =>
      have hpos := c.utf8Size_pos
      rw [List.cons_append, takeBytes?, byteSize_cons, if_neg (by omega), if_pos (by omega),
        Nat.add_sub_cancel_left, ih, Option.map_some]

theorem byteOffset_eq_add (source : Text) {first last : Nat} (h : first ≤ last) :
    byteOffset source last =
      byteOffset source first + byteSize ((source.drop first).take (last - first)) := by
  rw [byteOffset, byteOffset, ← byteSize_append, ← List.take_add, Nat.add_sub_cancel' h]

/-- The bytes from one character to before another are the characters between the two. -/
theorem slice?_byteOffset (source : Text) {first last : Nat} (h : first ≤ last) :
    slice? (byteOffset source first) (byteOffset source last) source =
      some ((source.drop first).take (last - first)) := by
  have hdrop : dropBytes? (byteOffset source first) source = some (source.drop first) := by
    have happend := dropBytes?_append (source.take first) (source.drop first)
    rwa [List.take_append_drop] at happend
  have htake := takeBytes?_append ((source.drop first).take (last - first))
    ((source.drop first).drop (last - first))
  rw [List.take_append_drop] at htake
  rw [slice?, hdrop, Option.bind_some, byteOffset_eq_add source h, Nat.add_sub_cancel_left, htake]

theorem byteOffset_lt {source : Text} {first last : Nat} (hlt : first < last)
    (hlast : last ≤ source.length) : byteOffset source first < byteOffset source last := by
  have hne : (source.drop first).take (last - first) ≠ [] := by
    rw [← List.length_pos_iff, List.length_take, List.length_drop]
    omega
  have hpos := byteSize_pos hne
  rw [byteOffset_eq_add source (Nat.le_of_lt hlt)]
  omega

theorem byteOffset_le_iff {source : Text} {first last : Nat} (hfirst : first ≤ source.length) :
    byteOffset source first ≤ byteOffset source last ↔ first ≤ last := by
  rcases Nat.lt_or_ge last first with hlt | hle
  · have hbytes := byteOffset_lt hlt hfirst
    omega
  · rw [byteOffset_eq_add source hle]
    omega

/-! ## Bytes of one character -/

theorem utf8EncodeChar_of_lt {c : Char} (h : c.toNat < 128) :
    String.utf8EncodeChar c = [c.toNat.toUInt8] := by
  unfold String.utf8EncodeChar
  rw [if_pos (show c.val.toNat ≤ 127 from Nat.le_of_lt_succ h)]
  rfl

theorem le_of_mem_utf8EncodeChar {c : Char} (h : 128 ≤ c.toNat) {byte : UInt8}
    (hbyte : byte ∈ String.utf8EncodeChar c) : 128 ≤ byte.toNat := by
  have hvalue : ¬ c.val.toNat ≤ 127 := Nat.not_le.mpr h
  unfold String.utf8EncodeChar at hbyte
  rw [if_neg hvalue] at hbyte
  split at hbyte
  · simp only [List.mem_cons, List.not_mem_nil, or_false] at hbyte
    rcases hbyte with rfl | rfl <;> simp <;> omega
  · split at hbyte
    · simp only [List.mem_cons, List.not_mem_nil, or_false] at hbyte
      rcases hbyte with rfl | rfl | rfl <;> simp <;> omega
    · simp only [List.mem_cons, List.not_mem_nil, or_false] at hbyte
      rcases hbyte with rfl | rfl | rfl | rfl <;> simp <;> omega

theorem toUInt8_eq_iff {c d : Char} (hc : c.toNat < 128) (hd : d.toNat < 128) :
    c.toNat.toUInt8 = d.toNat.toUInt8 ↔ c = d := by
  constructor
  · intro heq
    have hnat := congrArg UInt8.toNat heq
    simp only [Nat.toUInt8_eq, UInt8.toNat_ofNat'] at hnat
    rw [Nat.mod_eq_of_lt (by omega), Nat.mod_eq_of_lt (by omega)] at hnat
    exact Char.toNat_inj.mp hnat
  · rintro rfl
    rfl

theorem head?_bytes_eq_iff {text : Text} {c : Char} (hc : c.toNat < 128) :
    (bytes text).head? = some c.toNat.toUInt8 ↔ text.head? = some c := by
  cases text with
  | nil => simp [bytes]
  | cons d text =>
      rw [bytes_cons, List.head?_cons, Option.some.injEq]
      by_cases hd : d.toNat < 128
      · rw [utf8EncodeChar_of_lt hd, List.singleton_append, List.head?_cons, Option.some.injEq,
          toUInt8_eq_iff hd hc]
      · have hbyte (hhead : (String.utf8EncodeChar d ++ bytes text).head? = some c.toNat.toUInt8) :
            c.toNat.toUInt8 ∈ String.utf8EncodeChar d := by
          cases hencoded : String.utf8EncodeChar d with
          | nil =>
              have hlength := String.length_utf8EncodeChar d
              rw [hencoded] at hlength
              exact absurd hlength.symm (Nat.ne_of_gt d.utf8Size_pos)
          | cons first rest =>
              rw [hencoded, List.cons_append, List.head?_cons, Option.some.injEq] at hhead
              exact hhead ▸ List.mem_cons_self
        constructor
        · intro hhead
          have hle := le_of_mem_utf8EncodeChar (Nat.le_of_not_lt hd) (hbyte hhead)
          simp only [Nat.toUInt8_eq, UInt8.toNat_ofNat'] at hle
          rw [Nat.mod_eq_of_lt (by omega)] at hle
          omega
        · rintro rfl
          exact absurd hc hd

end Text

end TemplateDocs

import TemplateDocs.Proofs.LineBreak.Item
import TemplateDocs.Proofs.Replacement.Item
import TemplateDocs.Proofs.Text.Bytes

/-!
# Scans over bytes

The end of a tag and the end of a comment can be looked for byte by byte.  A scan that goes
by bytes may skip the first byte of a longer character only and then goes on inside it, but
what is left of the character are bytes of 128 and more, and those mean nothing to the scan.
So it ends behind the character at which the scan by characters ends (`endOffset?_eq_split?`,
`findBytes?_eq_splitAt?`), and at no other.
-/

namespace TemplateDocs

namespace Text

def asciiByte (c : Char) : UInt8 :=
  c.toNat.toUInt8

def isAnyOf (chars : List Char) (byte : UInt8) : Bool :=
  chars.any fun c => byte = asciiByte c

def isAscii (chars : List Char) : Bool :=
  chars.all fun c => c.toNat < 128

theorem bytes_append (first second : Text) :
    bytes (first ++ second) = bytes first ++ bytes second :=
  List.flatMap_append

theorem toNat_asciiByte {c : Char} (h : c.toNat < 128) : (asciiByte c).toNat = c.toNat := by
  simp only [asciiByte, Nat.toUInt8_eq, UInt8.toNat_ofNat']
  exact Nat.mod_eq_of_lt (by omega)

theorem isAnyOf_asciiByte {chars : List Char} (hchars : isAscii chars = true) {c : Char}
    (hc : c.toNat < 128) : isAnyOf chars (asciiByte c) = chars.contains c := by
  rw [Bool.eq_iff_iff, isAnyOf, List.any_eq_true, List.contains_iff_mem]
  constructor
  · intro h
    rcases h with ⟨d, hd, heq⟩
    have hsmall : d.toNat < 128 := of_decide_eq_true (List.all_eq_true.mp hchars d hd)
    rw [(toUInt8_eq_iff hc hsmall).mp (of_decide_eq_true heq)]
    exact hd
  · intro h
    exact ⟨c, h, decide_eq_true rfl⟩

theorem isAnyOf_of_le {chars : List Char} (hchars : isAscii chars = true) {byte : UInt8}
    (hbyte : 128 ≤ byte.toNat) : isAnyOf chars byte = false := by
  rw [isAnyOf, List.any_eq_false]
  intro c hc heq
  have hsmall : c.toNat < 128 := of_decide_eq_true (List.all_eq_true.mp hchars c hc)
  have hnat := toNat_asciiByte hsmall
  rw [← of_decide_eq_true heq] at hnat
  omega

theorem contains_of_le {chars : List Char} (hchars : isAscii chars = true) {c : Char}
    (hc : 128 ≤ c.toNat) : chars.contains c = false := by
  rw [← Bool.not_eq_true, List.contains_iff_mem]
  intro hmem
  have hsmall : c.toNat < 128 := of_decide_eq_true (List.all_eq_true.mp hchars c hmem)
  omega

end Text

namespace Tag

open Text (asciiByte isAnyOf)

/--
The offset behind the `>` that ends a tag, by a scan over bytes from an index on.  `quote` is
the open quote and `depth` the number of open brackets; behind a backslash inside quotes one
byte is skipped.
-/
def endOffset? (bytes : List UInt8) (quote : Option UInt8) (depth index : Nat) : Option Nat :=
  if hlt : index < bytes.length then
    match quote with
    | some opened =>
        if bytes[index] = asciiByte '\\' then
          endOffset? bytes quote depth (index + 2)
        else if bytes[index] = opened then
          endOffset? bytes none depth (index + 1)
        else
          endOffset? bytes quote depth (index + 1)
    | none =>
        if isAnyOf ['"', '\''] bytes[index] then
          endOffset? bytes (some bytes[index]) depth (index + 1)
        else if isAnyOf ['(', '[', '\x7b'] bytes[index] then
          endOffset? bytes none (depth + 1) (index + 1)
        else if isAnyOf [')', ']', '\x7d'] bytes[index] then
          endOffset? bytes none (depth - 1) (index + 1)
        else if isAnyOf ['>'] bytes[index] && depth = 0 then
          some (index + 1)
        else
          endOffset? bytes none depth (index + 1)
  else
    none
termination_by bytes.length - index

theorem endOffset?_of_length_le {bytes : List UInt8} {index : Nat} (h : bytes.length ≤ index)
    (quote : Option UInt8) (depth : Nat) : endOffset? bytes quote depth index = none := by
  rw [endOffset?, dif_neg (Nat.not_lt.mpr h)]

theorem endOffset?_quoted (first rest : List UInt8) (byte opened : UInt8) (depth : Nat) :
    endOffset? (first ++ byte :: rest) (some opened) depth first.length =
      if byte = asciiByte '\\' then
        endOffset? (first ++ byte :: rest) (some opened) depth (first.length + 2)
      else if byte = opened then
        endOffset? (first ++ byte :: rest) none depth (first.length + 1)
      else
        endOffset? (first ++ byte :: rest) (some opened) depth (first.length + 1) := by
  rw [endOffset?, dif_pos (by simp)]
  simp only [List.getElem_append_right (Nat.le_refl _), Nat.sub_self, List.getElem_cons_zero]

theorem endOffset?_plain (first rest : List UInt8) (byte : UInt8) (depth : Nat) :
    endOffset? (first ++ byte :: rest) none depth first.length =
      if isAnyOf ['"', '\''] byte then
        endOffset? (first ++ byte :: rest) (some byte) depth (first.length + 1)
      else if isAnyOf ['(', '[', '\x7b'] byte then
        endOffset? (first ++ byte :: rest) none (depth + 1) (first.length + 1)
      else if isAnyOf [')', ']', '\x7d'] byte then
        endOffset? (first ++ byte :: rest) none (depth - 1) (first.length + 1)
      else if isAnyOf ['>'] byte && depth = 0 then
        some (first.length + 1)
      else
        endOffset? (first ++ byte :: rest) none depth (first.length + 1) := by
  rw [endOffset?, dif_pos (by simp)]
  simp only [List.getElem_append_right (Nat.le_refl _), Nat.sub_self, List.getElem_cons_zero]

theorem endOffset?_append_high {stretch : List UInt8} (h : ∀ byte ∈ stretch, 128 ≤ byte.toNat)
    {quote : Option UInt8} (hquote : ∀ opened ∈ quote, opened.toNat < 128) (depth : Nat)
    (first rest : List UInt8) :
    endOffset? (first ++ (stretch ++ rest)) quote depth first.length =
      endOffset? (first ++ (stretch ++ rest)) quote depth (first.length + stretch.length) := by
  induction stretch generalizing first with
  | nil => rfl
  | cons byte stretch ih =>
      have hbyte : 128 ≤ byte.toNat := h byte List.mem_cons_self
      have hpass : endOffset? (first ++ byte :: (stretch ++ rest)) quote depth first.length =
          endOffset? (first ++ byte :: (stretch ++ rest)) quote depth (first.length + 1) := by
        cases quote with
        | none =>
            rw [endOffset?_plain, Text.isAnyOf_of_le rfl hbyte, Text.isAnyOf_of_le rfl hbyte,
              Text.isAnyOf_of_le rfl hbyte, Text.isAnyOf_of_le rfl hbyte]
            simp
        | some opened =>
            have hslash : byte ≠ asciiByte '\\' := by
              rintro rfl
              exact absurd hbyte (by decide)
            have hopened : byte ≠ opened := by
              rintro rfl
              exact absurd (hquote byte rfl) (Nat.not_lt.mpr hbyte)
            rw [endOffset?_quoted, if_neg hslash, if_neg hopened]
      have hrest := ih (fun other hother => h other (List.mem_cons_of_mem byte hother))
        (first ++ [byte])
      rw [List.append_assoc, List.singleton_append, List.length_append,
        List.length_singleton] at hrest
      rw [List.cons_append, hpass, hrest, List.length_cons, Nat.add_assoc, Nat.add_comm 1]

/-! ## The end of a tag -/

namespace Scan

def quoteByte? : Scan → Option UInt8
  | plain _ => none
  | quoted quote _ | escaped quote _ => some (asciiByte quote)

def depth : Scan → Nat
  | plain depth | quoted _ depth | escaped _ depth => depth

/-- Behind a backslash the scan over bytes has already skipped one. -/
def ahead : Scan → Nat
  | plain _ | quoted _ _ => 0
  | escaped _ _ => 1

end Scan

theorem lt_of_isQuote {c : Char} (h : isQuote c = true) : c.toNat < 128 := by
  simp only [isQuote, Bool.or_eq_true, decide_eq_true_eq] at h
  rcases h with rfl | rfl <;> decide

theorem quoteByte?_lt {scan : Scan} (h : scan.IsProper) :
    ∀ opened ∈ scan.quoteByte?, opened.toNat < 128 := by
  intro opened hopened
  cases scan with
  | plain depth => cases hopened
  | quoted quote depth | escaped quote depth =>
      cases hopened
      rw [Text.toNat_asciiByte (lt_of_isQuote h)]
      exact lt_of_isQuote h

theorem next_of_le {scan : Scan} (h : scan.IsProper) (hahead : scan.ahead = 0) {c : Char}
    (hc : 128 ≤ c.toNat) : scan.next c = scan := by
  have hne {d : Char} (hd : d.toNat < 128) : c ≠ d := by
    rintro rfl
    omega
  cases scan with
  | plain depth =>
      simp [Scan.next, isQuote, opensGroup, closesGroup, @hne '"' (by decide),
        @hne '\'' (by decide), @hne '(' (by decide), @hne '[' (by decide),
        @hne '\x7b' (by decide), @hne ')' (by decide), @hne ']' (by decide),
        @hne '\x7d' (by decide)]
  | quoted quote depth => simp [Scan.next, @hne '\\' (by decide), hne (lt_of_isQuote h)]
  | escaped quote depth => cases hahead

theorem bytes_of_lt {c : Char} (h : c.toNat < 128) (before text : Text) :
    Text.bytes (before ++ c :: text) =
      Text.bytes before ++ asciiByte c :: Text.bytes text := by
  rw [Text.bytes_append, Text.bytes_cons, Text.utf8EncodeChar_of_lt h]
  rfl

theorem utf8Size_of_lt {c : Char} (h : c.toNat < 128) : c.utf8Size = 1 := by
  rw [← String.length_utf8EncodeChar, Text.utf8EncodeChar_of_lt h]
  rfl

theorem endOffset?_plain_of_lt {c : Char} (hc : c.toNat < 128) (depth : Nat)
    (before text : Text) :
    endOffset? (Text.bytes (before ++ c :: text)) none depth before.byteSize =
      if Scan.plain depth = .plain 0 && c = '>' then
        some (before.byteSize + 1)
      else
        endOffset? (Text.bytes (before ++ c :: text)) ((Scan.plain depth).next c).quoteByte?
          ((Scan.plain depth).next c).depth (before.byteSize + 1) := by
  have hquote : isAnyOf ['"', '\''] (asciiByte c) = isQuote c := by
    rw [Text.isAnyOf_asciiByte rfl hc]
    simp [isQuote]
  have hopens : isAnyOf ['(', '[', '\x7b'] (asciiByte c) = opensGroup c := by
    rw [Text.isAnyOf_asciiByte rfl hc]
    simp [opensGroup, Bool.or_assoc]
  have hcloses : isAnyOf [')', ']', '\x7d'] (asciiByte c) = closesGroup c := by
    rw [Text.isAnyOf_asciiByte rfl hc]
    simp [closesGroup, Bool.or_assoc]
  have hend : isAnyOf ['>'] (asciiByte c) = decide (c = '>') := by
    rw [Text.isAnyOf_asciiByte rfl hc]
    simp
  have hindex := Text.length_bytes before
  rw [bytes_of_lt hc, ← hindex, endOffset?_plain, hquote, hopens, hcloses, hend, Scan.next]
  by_cases hgt : c = '>'
  · subst hgt
    by_cases hdepth : depth = 0 <;>
      simp [hdepth, isQuote, opensGroup, closesGroup, Scan.quoteByte?, Scan.depth]
  · simp only [hgt, decide_false, Bool.and_false, Bool.false_and, Bool.false_eq_true, if_false]
    cases isQuote c <;> cases opensGroup c <;> cases closesGroup c <;> rfl

theorem endOffset?_quoted_of_lt {c quote : Char} (hc : c.toNat < 128)
    (hquote : isQuote quote = true) (depth : Nat) (before text : Text) :
    endOffset? (Text.bytes (before ++ c :: text)) (some (asciiByte quote)) depth before.byteSize =
      endOffset? (Text.bytes (before ++ c :: text)) ((Scan.quoted quote depth).next c).quoteByte?
        ((Scan.quoted quote depth).next c).depth
        (before.byteSize + 1 + ((Scan.quoted quote depth).next c).ahead) := by
  have hslash : asciiByte c = asciiByte '\\' ↔ c = '\\' := Text.toUInt8_eq_iff hc (by decide)
  have hsame : asciiByte c = asciiByte quote ↔ c = quote :=
    Text.toUInt8_eq_iff hc (lt_of_isQuote hquote)
  have hindex := Text.length_bytes before
  rw [bytes_of_lt hc, ← hindex, endOffset?_quoted, Scan.next]
  simp only [hslash, hsame]
  split
  · rfl
  · split <;> rfl

theorem endOffset?_of_le {scan : Scan} (h : scan.IsProper) {c : Char} (hc : 128 ≤ c.toNat)
    (before text : Text) :
    endOffset? (Text.bytes (before ++ c :: text)) scan.quoteByte? scan.depth
        (before.byteSize + scan.ahead) =
      endOffset? (Text.bytes (before ++ c :: text)) (scan.next c).quoteByte? (scan.next c).depth
        (before.byteSize + c.utf8Size + (scan.next c).ahead) := by
  have hhigh : ∀ byte ∈ String.utf8EncodeChar c, 128 ≤ byte.toNat :=
    fun byte hbyte => Text.le_of_mem_utf8EncodeChar hc hbyte
  have hsize := String.length_utf8EncodeChar c
  have hquote := quoteByte?_lt h
  rw [Text.bytes_append, Text.bytes_cons, ← Text.length_bytes before, ← hsize]
  cases hahead : scan.ahead with
  | zero =>
      rw [next_of_le h hahead hc, hahead]
      exact endOffset?_append_high hhigh hquote scan.depth _ _
  | succ count =>
      cases scan with
      | plain depth | quoted quote depth => cases hahead
      | escaped quote depth =>
          cases hahead
          cases hencoded : String.utf8EncodeChar c with
          | nil =>
              rw [hencoded] at hsize
              exact absurd hsize.symm (Nat.ne_of_gt c.utf8Size_pos)
          | cons byte rest =>
              rw [hencoded] at hhigh
              have hrest := endOffset?_append_high
                (fun other hother => hhigh other (List.mem_cons_of_mem byte hother)) hquote depth
                (Text.bytes before ++ [byte]) (Text.bytes text)
              rw [List.append_assoc, List.singleton_append, List.length_append,
                List.length_singleton, Nat.add_assoc, Nat.add_comm 1] at hrest
              exact hrest

/-- The scan over bytes goes over one more character as the scan over characters does. -/
theorem endOffset?_bytes_cons {scan : Scan} (h : scan.IsProper) (before : Text) (c : Char)
    (text : Text) :
    endOffset? (Text.bytes (before ++ c :: text)) scan.quoteByte? scan.depth
        (before.byteSize + scan.ahead) =
      if scan = .plain 0 && c = '>' then
        some (before.byteSize + 1)
      else
        endOffset? (Text.bytes (before ++ c :: text)) (scan.next c).quoteByte? (scan.next c).depth
          (before.byteSize + c.utf8Size + (scan.next c).ahead) := by
  by_cases hc : c.toNat < 128
  · rw [utf8Size_of_lt hc]
    cases scan with
    | plain depth =>
        have hnext : ((Scan.plain depth).next c).ahead = 0 := by
          rw [Scan.next]
          repeat' split
          all_goals rfl
        rw [hnext]
        exact endOffset?_plain_of_lt hc depth before text
    | quoted quote depth => exact endOffset?_quoted_of_lt hc h depth before text
    | escaped quote depth => rfl
  · have hend : c ≠ '>' := by
      rintro rfl
      exact hc (by decide)
    rw [if_neg (by simp [hend])]
    exact endOffset?_of_le h (Nat.le_of_not_lt hc) before text

/-- Where the scan over bytes ends, and where the scan over characters does. -/
theorem endOffset?_eq_close? {scan : Scan} (h : scan.IsProper) (before text : Text) :
    endOffset? (Text.bytes (before ++ text)) scan.quoteByte? scan.depth
        (before.byteSize + scan.ahead) =
      (close? scan text).map fun found => (before ++ found.1).byteSize + 1 := by
  induction text generalizing scan before with
  | nil =>
      apply endOffset?_of_length_le
      rw [List.append_nil, Text.length_bytes]
      exact Nat.le_add_right _ _
  | cons c text ih =>
      rw [endOffset?_bytes_cons h, close?]
      split
      · rw [Option.map_some, List.append_nil]
      · have hbehind := ih (h.next c) (before ++ [c])
        rw [List.append_assoc, List.singleton_append, Text.byteSize_append,
          Text.byteSize_singleton] at hbehind
        rw [hbehind, Option.map_map]
        congr 1
        funext found
        simp

theorem endOffset?_eq_split? (before text : Text) :
    endOffset? (Text.bytes (before ++ text)) none 0 before.byteSize =
      (split? text).map fun found => (before ++ found.1).byteSize + 1 :=
  @endOffset?_eq_close? (.plain 0) trivial before text

/-- The first `>` of a text that is reached outside all quotes and brackets stands behind `body`. -/
def EndsBehind (text body : Text) : Prop :=
  body.foldl Scan.next (.plain 0) = .plain 0 ∧ (∃ rest, text = body ++ '>' :: rest) ∧
    ∀ earlier more, body = earlier ++ '>' :: more →
      earlier.foldl Scan.next (.plain 0) ≠ .plain 0

theorem endOffset?_eq_some_iff {before text : Text} {offset : Nat} :
    endOffset? (Text.bytes (before ++ text)) none 0 before.byteSize = some offset ↔
      ∃ body, EndsBehind text body ∧ offset = (before ++ body ++ ['>']).byteSize := by
  have hsize (body : Text) :
      (before ++ body).byteSize + 1 = (before ++ body ++ ['>']).byteSize := by
    rw [Text.byteSize_append _ ['>'], Text.byteSize_singleton, utf8Size_of_lt (by decide)]
  rw [endOffset?_eq_split?, Option.map_eq_some_iff]
  constructor
  · intro h
    rcases h with ⟨found, hfound, hoffset⟩
    rcases split?_eq_some_iff.mp hfound with ⟨htext, hplain, hfirst⟩
    exact ⟨found.1, ⟨hplain, ⟨found.2, htext⟩, hfirst⟩, by rw [← hoffset, hsize]⟩
  · intro h
    rcases h with ⟨body, ⟨hplain, ⟨rest, htext⟩, hfirst⟩, hoffset⟩
    exact ⟨(body, rest), split?_eq_some_iff.mpr ⟨htext, hplain, hfirst⟩, by rw [hsize, hoffset]⟩

theorem endOffset?_eq_none_iff {before text : Text} :
    endOffset? (Text.bytes (before ++ text)) none 0 before.byteSize = none ↔
      ∀ body rest, text = body ++ '>' :: rest → body.foldl Scan.next (.plain 0) ≠ .plain 0 := by
  rw [endOffset?_eq_split?, Option.map_eq_none_iff, split?_eq_none_iff]

end Tag

/-! ## The first occurrence of a mark -/

namespace Text

def findBytes? (needle : List UInt8) : List UInt8 → Option Nat
  | [] => none
  | byte :: rest =>
      if needle.isPrefixOf (byte :: rest) then
        some 0
      else
        (findBytes? needle rest).map (· + 1)

theorem isPrefixOf_bytes {mark : Text} (hmark : isAscii mark = true) (text : Text) :
    (bytes mark).isPrefixOf (bytes text) = (after? mark text).isSome := by
  induction mark generalizing text with
  | nil => simp [bytes, after?]
  | cons expected mark ih =>
      simp only [isAscii, List.all_cons, Bool.and_eq_true, decide_eq_true_eq] at hmark
      have hhead := @head?_bytes_eq_iff text expected hmark.1
      rw [bytes_cons, utf8EncodeChar_of_lt hmark.1, List.singleton_append]
      cases text with
      | nil => rfl
      | cons c text =>
          by_cases hc : expected = c
          · subst hc
            rw [bytes_cons, utf8EncodeChar_of_lt hmark.1, List.singleton_append, List.isPrefixOf,
              ih hmark.2, after?, if_pos rfl, beq_self_eq_true, Bool.true_and]
          · rw [after?, if_neg hc, Option.isSome_none, ← Bool.not_eq_true,
              List.isPrefixOf_iff_prefix]
            intro hstarts
            rcases hstarts with ⟨behind, hbehind⟩
            rw [← hbehind] at hhead
            exact hc (Option.some.inj (hhead.mp rfl)).symm

/-- No occurrence of a mark of characters below 128 starts inside a longer character. -/
theorem findBytes?_append_high {stretch : List UInt8} (h : ∀ byte ∈ stretch, 128 ≤ byte.toNat)
    {first : UInt8} (hfirst : first.toNat < 128) (needle rest : List UInt8) :
    findBytes? (first :: needle) (stretch ++ rest) =
      (findBytes? (first :: needle) rest).map (· + stretch.length) := by
  induction stretch with
  | nil => simp
  | cons byte stretch ih =>
      have hne : (first == byte) = false := by
        rw [beq_eq_false_iff_ne]
        intro heq
        have hle := h byte List.mem_cons_self
        rw [← heq] at hle
        omega
      rw [List.cons_append, findBytes?, List.isPrefixOf, hne, Bool.false_and,
        if_neg Bool.false_ne_true,
        ih fun other hother => h other (List.mem_cons_of_mem byte hother), Option.map_map,
        List.length_cons]
      rfl

theorem findBytes?_eq_splitAt? {c : Char} {mark : Text} (hmark : isAscii (c :: mark) = true)
    (text : Text) :
    findBytes? (bytes (c :: mark)) (bytes text) =
      (splitAt? (c :: mark) text).map fun found => byteSize found.1 := by
  have hc : c.toNat < 128 := of_decide_eq_true (List.all_eq_true.mp hmark c List.mem_cons_self)
  have hneedle : bytes (c :: mark) = asciiByte c :: bytes mark := by
    rw [bytes_cons, utf8EncodeChar_of_lt hc]
    rfl
  induction text with
  | nil => rfl
  | cons d text ih =>
      have hstarts := isPrefixOf_bytes hmark (d :: text)
      have hsize := String.length_utf8EncodeChar d
      rw [bytes_cons d] at hstarts ⊢
      rw [splitAt?]
      cases hencoded : String.utf8EncodeChar d with
      | nil =>
          rw [hencoded] at hsize
          exact absurd hsize.symm (Nat.ne_of_gt d.utf8Size_pos)
      | cons byte more =>
          have hmore : ∀ other ∈ more, 128 ≤ other.toNat := by
            intro other hother
            by_cases hd : d.toNat < 128
            · rw [utf8EncodeChar_of_lt hd] at hencoded
              cases hencoded
              cases hother
            · refine le_of_mem_utf8EncodeChar (Nat.le_of_not_lt hd) ?_
              rw [hencoded]
              exact List.mem_cons_of_mem byte hother
          rw [hencoded, List.cons_append] at hstarts
          rw [List.cons_append, findBytes?, hstarts]
          cases after? (c :: mark) (d :: text) with
          | some rest => rfl
          | none =>
              have hlength : more.length + 1 = d.utf8Size := by rw [← hsize, hencoded]; rfl
              rw [Option.isSome_none, if_neg Bool.false_ne_true, hneedle,
                findBytes?_append_high hmore (by rw [toNat_asciiByte hc]; exact hc), ← hneedle, ih]
              simp only [Option.map_map]
              congr 1
              funext found
              simp only [Function.comp_apply, byteSize_cons]
              omega

theorem splitAt?_eq_some_iff {mark text before rest : Text} :
    splitAt? mark text = some (before, rest) ↔
      text = before ++ mark ++ rest ∧
        ∀ earlier behind, text = earlier ++ mark ++ behind → before.length ≤ earlier.length := by
  constructor
  · intro h
    refine ⟨eq_append_of_splitAt? h, fun earlier behind hother => ?_⟩
    rcases exists_splitAt? mark earlier behind with ⟨found, tail, hfound, hle⟩
    rw [← hother, h] at hfound
    cases hfound
    exact hle
  · intro h
    rcases exists_splitAt? mark before rest with ⟨found, tail, hfound, hle⟩
    rw [← h.1] at hfound
    have htext := eq_append_of_splitAt? hfound
    have hge := h.2 found tail htext
    rw [h.1, List.append_assoc, List.append_assoc] at htext
    have hsame := List.append_inj htext (Nat.le_antisymm hge hle)
    rw [hfound, hsame.1, List.append_cancel_left hsame.2]

theorem splitAt?_eq_none_iff {mark text : Text} :
    splitAt? mark text = none ↔ ∀ before rest, text ≠ before ++ mark ++ rest := by
  constructor
  · intro h before rest htext
    rcases exists_splitAt? mark before rest with ⟨found, tail, hfound, -⟩
    rw [← htext, h] at hfound
    cases hfound
  · intro h
    rw [Option.eq_none_iff_forall_ne_some]
    intro found hfound
    exact h found.1 found.2 (eq_append_of_splitAt? hfound)

theorem findBytes?_eq_some_iff {c : Char} {mark : Text} (hmark : isAscii (c :: mark) = true)
    {text : Text} {offset : Nat} :
    findBytes? (bytes (c :: mark)) (bytes text) = some offset ↔
      ∃ before, (∃ rest, text = before ++ c :: mark ++ rest) ∧
        (∀ earlier behind, text = earlier ++ c :: mark ++ behind →
          before.length ≤ earlier.length) ∧
        offset = before.byteSize := by
  rw [findBytes?_eq_splitAt? hmark, Option.map_eq_some_iff]
  constructor
  · intro h
    rcases h with ⟨found, hfound, hoffset⟩
    rcases splitAt?_eq_some_iff.mp hfound with ⟨htext, hfirst⟩
    exact ⟨found.1, ⟨found.2, htext⟩, hfirst, hoffset.symm⟩
  · intro h
    rcases h with ⟨before, ⟨rest, htext⟩, hfirst, hoffset⟩
    exact ⟨(before, rest), splitAt?_eq_some_iff.mpr ⟨htext, hfirst⟩, hoffset.symm⟩

theorem findBytes?_eq_none_iff {c : Char} {mark : Text} (hmark : isAscii (c :: mark) = true)
    {text : Text} :
    findBytes? (bytes (c :: mark)) (bytes text) = none ↔
      ∀ before rest, text ≠ before ++ c :: mark ++ rest := by
  rw [findBytes?_eq_splitAt? hmark, Option.map_eq_none_iff, splitAt?_eq_none_iff]

end Text

end TemplateDocs

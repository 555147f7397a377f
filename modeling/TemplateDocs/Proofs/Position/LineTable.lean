import TemplateDocs.Proofs.Position.Break
import TemplateDocs.Proofs.Template.Location
import TemplateDocs.Proofs.Text.Bytes

/-!
# Line tables

A line table holds the offsets in bytes at which the lines of a text start.  The position of
an offset is looked up in it: the line by a search that halves the table at each step, and the
column by the characters from the start of the line on.  What is looked up is what the breaks
of the text say (`position_byteOffset`), and what the positions of the pieces of a source say
that are found by going over it (`locate_eq_lookUp`).
-/

namespace TemplateDocs

/-- The offsets in bytes at which the lines of a text start, the first at the very start. -/
structure LineTable where
  content : Text
  starts : Array Nat
  first : starts[0]? = some 0
  ascending : starts.toList.Pairwise (· < ·)

namespace LineTable

def endsLine (byte : UInt8) (following : Option UInt8) : Bool :=
  byte = 10 || (byte = 13 && following != some 10)

def endsFrom (offset : Nat) : List UInt8 → List Nat
  | [] => []
  | byte :: rest =>
      if endsLine byte rest.head? then
        (offset + 1) :: endsFrom (offset + 1) rest
      else
        endsFrom (offset + 1) rest

theorem lt_of_mem_endsFrom {offset stop : Nat} {bytes : List UInt8}
    (h : stop ∈ endsFrom offset bytes) : offset < stop := by
  induction bytes generalizing offset with
  | nil => cases h
  | cons byte rest ih =>
      rw [endsFrom] at h
      split at h
      · rcases List.mem_cons.mp h with rfl | hrest
        · exact Nat.lt_succ_self offset
        · exact Nat.lt_of_succ_lt (ih hrest)
      · exact Nat.lt_of_succ_lt (ih h)

theorem pairwise_endsFrom (offset : Nat) (bytes : List UInt8) :
    (endsFrom offset bytes).Pairwise (· < ·) := by
  induction bytes generalizing offset with
  | nil => exact List.Pairwise.nil
  | cons byte rest ih =>
      rw [endsFrom]
      split
      · exact List.pairwise_cons.mpr ⟨fun stop hstop => lt_of_mem_endsFrom hstop, ih (offset + 1)⟩
      · exact ih (offset + 1)

def ofText (content : Text) : LineTable where
  content := content
  starts := (0 :: endsFrom 0 content.bytes).toArray
  first := rfl
  ascending :=
    List.pairwise_cons.mpr ⟨fun _ hstop => lt_of_mem_endsFrom hstop, pairwise_endsFrom 0 _⟩

/-! ## The search for a line -/

/-- Where a number stands among ascending ones, or where it would have to be put in. -/
inductive Place where
  | found (index : Nat)
  | missing (index : Nat)
deriving DecidableEq, Repr

def search (starts : Array Nat) (offset low high : Nat) (hhigh : high ≤ starts.size) : Place :=
  if hlt : low < high then
    have hmiddle : (low + high) / 2 < starts.size := by omega
    if starts[(low + high) / 2] = offset then
      .found ((low + high) / 2)
    else if starts[(low + high) / 2] < offset then
      search starts offset ((low + high) / 2 + 1) high hhigh
    else
      search starts offset low ((low + high) / 2) (by omega)
  else
    .missing low
termination_by high - low

/-- The place says where a number stands among others. -/
def Place.Fits (starts : Array Nat) (offset : Nat) : Place → Prop
  | found index => starts[index]? = some offset
  | missing index =>
      index ≤ starts.size ∧
        ∀ other start, starts[other]? = some start →
          start ≠ offset ∧ (start < offset ↔ other < index)

theorem lt_of_ascending {starts : Array Nat} (h : starts.toList.Pairwise (· < ·))
    {first second start stop : Nat} (hfirst : starts[first]? = some start)
    (hsecond : starts[second]? = some stop) (hlt : first < second) : start < stop := by
  obtain ⟨hlow, rfl⟩ := Array.getElem?_eq_some_iff.mp hfirst
  obtain ⟨hhigh, rfl⟩ := Array.getElem?_eq_some_iff.mp hsecond
  exact List.pairwise_iff_getElem.mp h first second hlow hhigh hlt

/-- The search fits if all before it are smaller and all behind it are larger. -/
theorem fits_search {starts : Array Nat} (h : starts.toList.Pairwise (· < ·))
    {offset low high : Nat}
    (hhigh : high ≤ starts.size) (hle : low ≤ high)
    (hbefore : ∀ index start, starts[index]? = some start → index < low → start < offset)
    (hbehind : ∀ index start, starts[index]? = some start → high ≤ index → offset < start) :
    (search starts offset low high hhigh).Fits starts offset := by
  fun_induction search starts offset low high hhigh with
  | case1 low high hhigh hlt hmiddle hfound =>
      exact hfound ▸ Array.getElem?_eq_getElem hmiddle
  | case2 low high hhigh hlt hmiddle hfound hsmall ih =>
      refine ih (by omega) (fun index start hindex hindexLt => ?_) hbehind
      have hget := Array.getElem?_eq_getElem hmiddle
      rcases Nat.lt_or_eq_of_le (Nat.le_of_lt_succ hindexLt) with hless | rfl
      · exact Nat.lt_trans (lt_of_ascending h hindex hget hless) hsmall
      · rw [hget, Option.some.injEq] at hindex
        exact hindex ▸ hsmall
  | case3 low high hhigh hlt hmiddle hfound hlarge ih =>
      refine ih (by omega) hbefore fun index start hindex hindexLe => ?_
      have hget := Array.getElem?_eq_getElem hmiddle
      rcases Nat.lt_or_eq_of_le hindexLe with hless | rfl
      · have hlt := lt_of_ascending h hget hindex hless
        omega
      · rw [hget, Option.some.injEq] at hindex
        omega
  | case4 low high hhigh hlt =>
      refine ⟨by omega, fun other start hother => ?_⟩
      have hsmall := hbefore other start hother
      have hlarge := hbehind other start hother
      rcases Nat.lt_or_ge other low with hless | hge
      · exact ⟨Nat.ne_of_lt (hsmall hless), fun _ => hless, hsmall⟩
      · have hgreater := hlarge (by omega)
        exact ⟨Nat.ne_of_gt hgreater, fun hlt => by omega, fun hlt => by omega⟩

/-- The index of the line in which an offset stands. -/
def lineIndex (table : LineTable) (offset : Nat) : Nat :=
  match search table.starts offset 0 table.starts.size (Nat.le_refl _) with
  | .found index => index
  | .missing index => index - 1

theorem fits_search_starts (table : LineTable) (offset : Nat) :
    (search table.starts offset 0 table.starts.size (Nat.le_refl _)).Fits table.starts offset := by
  refine fits_search table.ascending _ (Nat.zero_le _) ?_ ?_
  · intro index start _ hlt
    exact absurd hlt (Nat.not_lt_zero index)
  · intro index start hindex hge
    rw [Array.getElem?_eq_none hge] at hindex
    cases hindex

theorem lineIndex_lt (table : LineTable) (offset : Nat) :
    table.lineIndex offset < table.starts.size := by
  have hfits := table.fits_search_starts offset
  have hpos : 0 < table.starts.size := (Array.getElem?_eq_some_iff.mp table.first).choose
  unfold lineIndex
  split
  · next index hfound =>
      rw [hfound] at hfits
      exact (Array.getElem?_eq_some_iff.mp hfits).choose
  · next index hmissing =>
      rw [hmissing] at hfits
      have hle := hfits.1
      omega

/-- The lines that start at an offset or before it are those up to the line found for it. -/
theorem le_lineIndex_iff (table : LineTable) {offset index start : Nat}
    (h : table.starts[index]? = some start) :
    index ≤ table.lineIndex offset ↔ start ≤ offset := by
  have hfits := table.fits_search_starts offset
  unfold lineIndex
  split
  · next found hfound =>
      rw [hfound] at hfits
      rcases Nat.lt_trichotomy index found with hlt | rfl | hgt
      · have hless := lt_of_ascending table.ascending h hfits hlt
        omega
      · rw [hfits, Option.some.injEq] at h
        omega
      · have hless := lt_of_ascending table.ascending hfits h hgt
        omega
  · next missing hmissing =>
      rw [hmissing] at hfits
      -- The first line starts at the very start, so the place is not the one in front of all.
      have hzero := hfits.2 0 0 table.first
      have hstart := hfits.2 index start h
      omega

def position (table : LineTable) (offset : Nat) : Position :=
  have hlt := table.lineIndex_lt offset
  let start := table.starts[table.lineIndex offset]
  let column := ((Text.slice? start offset table.content).map List.length).getD (offset - start)
  ⟨table.lineIndex offset + 1, column + 1⟩

/-! ## Ends of lines by bytes -/

theorem endsFrom_append {first : List UInt8} (rest : List UInt8) (offset : Nat)
    (h : ∀ byte ∈ first, byte ≠ 10 ∧ byte ≠ 13) :
    endsFrom offset (first ++ rest) = endsFrom (offset + first.length) rest := by
  induction first generalizing offset with
  | nil => rfl
  | cons byte first ih =>
      have hbyte : endsLine byte (first ++ rest).head? = false := by
        simp [endsLine, h byte List.mem_cons_self]
      rw [List.cons_append, endsFrom, hbyte, if_neg Bool.false_ne_true,
        ih (offset + 1) fun other hother => h other (List.mem_cons_of_mem byte hother),
        List.length_cons, Nat.add_assoc, Nat.add_comm 1]

theorem endsLine_toUInt8 {c : Char} (h : c.toNat < 128) (rest : Text) :
    endsLine c.toNat.toUInt8 (Text.bytes rest).head? = Position.endsLine c rest.head? := by
  have hfeed : c.toNat.toUInt8 = 10 ↔ c = '\n' := Text.toUInt8_eq_iff h (d := '\n') (by decide)
  have hreturn : c.toNat.toUInt8 = 13 ↔ c = '\r' := Text.toUInt8_eq_iff h (d := '\r') (by decide)
  have hnext : (Text.bytes rest).head? = some 10 ↔ rest.head? = some '\n' :=
    Text.head?_bytes_eq_iff (c := '\n') (by decide)
  rw [Bool.eq_iff_iff]
  simp only [endsLine, Position.endsLine, Bool.or_eq_true, Bool.and_eq_true, decide_eq_true_eq,
    bne_iff_ne, ne_eq, hfeed, hreturn, hnext]

theorem endsFrom_bytes_cons (offset : Nat) (c : Char) (rest : Text) :
    endsFrom offset (Text.bytes (c :: rest)) =
      (if Position.endsLine c rest.head? then [offset + c.utf8Size] else []) ++
        endsFrom (offset + c.utf8Size) (Text.bytes rest) := by
  rw [Text.bytes_cons, ← String.length_utf8EncodeChar]
  by_cases hc : c.toNat < 128
  · rw [Text.utf8EncodeChar_of_lt hc, List.singleton_append, endsFrom, endsLine_toUInt8 hc,
      List.length_singleton]
    split <;> rfl
  · have hplain : ∀ byte ∈ String.utf8EncodeChar c, byte ≠ 10 ∧ byte ≠ 13 := by
      intro byte hbyte
      have hle := Text.le_of_mem_utf8EncodeChar (Nat.le_of_not_lt hc) hbyte
      constructor <;>
        · rintro rfl
          exact absurd hle (by decide)
    have hends : Position.endsLine c rest.head? = false := by
      have hfeed : c ≠ '\n' := by
        rintro rfl
        exact hc (by decide)
      have hreturn : c ≠ '\r' := by
        rintro rfl
        exact hc (by decide)
      simp [Position.endsLine, hfeed, hreturn]
    rw [endsFrom_append _ _ hplain, hends]
    rfl

theorem endsFrom_bytes (before rest : Text) :
    endsFrom before.byteSize rest.bytes =
      ((List.range' before.length rest.length).filter (before ++ rest).endsLineAt).map
        fun last => (before ++ rest).byteOffset (last + 1) := by
  induction rest generalizing before with
  | nil => rfl
  | cons c rest ih =>
      have hends : (before ++ c :: rest).endsLineAt before.length =
          Position.endsLine c rest.head? := by
        simp [Text.endsLineAt, List.getElem?_append_right, List.head?_eq_getElem?]
      have hoffset : (before ++ c :: rest).byteOffset (before.length + 1) =
          before.byteSize + c.utf8Size := by
        rw [Text.byteOffset, List.take_length_add_append, Text.byteSize_append, List.take_one,
          List.head?_cons, Option.toList_some, Text.byteSize_singleton]
      have hrest := ih (before ++ [c])
      rw [Text.byteSize_append, Text.byteSize_singleton, List.length_append, List.append_assoc,
        List.singleton_append, List.length_singleton] at hrest
      rw [endsFrom_bytes_cons, List.length_cons, List.range'_succ, List.filter_cons, hends, hrest]
      split
      · rw [List.map_cons, hoffset, List.singleton_append]
      · rfl

theorem endsFrom_zero_bytes (source : Text) :
    endsFrom 0 source.bytes = (source.lineEnds source.length).map source.byteOffset := by
  have hends := endsFrom_bytes [] source
  rw [List.nil_append] at hends
  rw [Text.lineEnds, List.map_map, List.range_eq_range']
  exact hends

/-! ## Positions -/

theorem filter_eq_take {α : Type} {p : α → Bool} {list : List α} {count : Nat}
    (h : ∀ index value, list[index]? = some value → (p value = true ↔ index < count)) :
    list.filter p = list.take count := by
  induction list generalizing count with
  | nil => simp
  | cons value rest ih =>
      have hvalue := h 0 value rfl
      cases count with
      | zero =>
          rw [List.take_zero, List.filter_eq_nil_iff]
          intro other hother hp
          obtain ⟨index, hindex⟩ := List.getElem?_of_mem hother
          exact absurd ((h index other hindex).mp hp) (Nat.not_lt_zero index)
      | succ count =>
          rw [List.filter_cons_of_pos (hvalue.mpr (Nat.succ_pos count)), List.take_succ_cons,
            ih fun index other hother => ?_]
          rw [h (index + 1) other hother, Nat.succ_lt_succ_iff]

theorem take_starts (table : LineTable) (offset : Nat) :
    table.starts.toList.take (table.lineIndex offset + 1) =
      table.starts.toList.filter (· ≤ offset) := by
  refine (filter_eq_take fun index start hstart => ?_).symm
  rw [decide_eq_true_eq, Nat.lt_succ_iff, table.le_lineIndex_iff (by simpa using hstart)]

theorem filter_lineEnds {source : Text} {offset last : Nat} (h : offset ≤ last) :
    (source.lineEnds last).filter (· ≤ offset) = source.lineEnds offset := by
  induction h with
  | refl =>
      rw [List.filter_eq_self]
      intro stop hstop
      obtain ⟨before, -, hbefore, rfl⟩ := Text.mem_lineEnds_iff.mp hstop
      exact decide_eq_true hbefore
  | @step last hle ih =>
      have hle : offset ≤ last := hle
      rw [Text.lineEnds_succ, List.filter_append, ih]
      split
      · have hbehind : [last + 1].filter (· ≤ offset) = [] := by
          simp only [List.filter_eq_nil_iff, List.mem_singleton, forall_eq, decide_eq_true_eq]
          omega
        rw [hbehind, List.append_nil]
      · rw [List.filter_nil, List.append_nil]

theorem take_starts_ofText {source : Text} {offset : Nat} (h : offset ≤ source.length) :
    (ofText source).starts.toList.take
        ((ofText source).lineIndex (source.byteOffset offset) + 1) =
      (0 :: source.lineEnds offset).map source.byteOffset := by
  have hstarts : (ofText source).starts.toList =
      (0 :: source.lineEnds source.length).map source.byteOffset := by
    rw [List.map_cons, ← endsFrom_zero_bytes]
    rfl
  rw [take_starts, hstarts, List.filter_map]
  congr 1
  have hfilter : (0 :: source.lineEnds source.length).filter
        ((fun start => decide (start ≤ source.byteOffset offset)) ∘ source.byteOffset) =
      (0 :: source.lineEnds source.length).filter (· ≤ offset) := by
    refine List.filter_congr fun stop hstop => ?_
    have hle : stop ≤ source.length := by
      rcases List.mem_cons.mp hstop with rfl | hstop
      · exact Nat.zero_le _
      · obtain ⟨last, -, hlast, rfl⟩ := Text.mem_lineEnds_iff.mp hstop
        exact hlast
    simp only [Function.comp_apply, Text.byteOffset_le_iff hle]
  rw [hfilter, List.filter_cons_of_pos (by simp), filter_lineEnds h]

/-- What is looked up for a character is the position that going over the text gives. -/
theorem position_byteOffset {source : Text} {offset : Nat} (h : offset ≤ source.length) :
    (ofText source).position (source.byteOffset offset) = .ofOffset source offset := by
  have hlt := (ofText source).lineIndex_lt (source.byteOffset offset)
  have htake := take_starts_ofText h
  have hline : (ofText source).lineIndex (source.byteOffset offset) =
      (source.lineEnds offset).length := by
    have hlength := congrArg List.length htake
    rw [List.length_take, List.length_map, List.length_cons, Array.length_toList] at hlength
    omega
  have hstart : (ofText source).starts[(ofText source).lineIndex (source.byteOffset offset)] =
      source.byteOffset ((source.lineEnds offset).getLast?.getD 0) := by
    have hlast := congrArg List.getLast? htake
    rw [List.getLast?_take, if_neg (Nat.succ_ne_zero _), Nat.add_sub_cancel,
      Array.getElem?_toList, Array.getElem?_eq_getElem hlt, Option.some_or, List.getLast?_map,
      List.getLast?_cons, Option.map_some, Option.some.injEq] at hlast
    exact hlast
  have hslice := Text.slice?_byteOffset source (source.lastLineEnd_le offset)
  simp only [position, hstart]
  rw [show (ofText source).content = source from rfl, hslice, Option.map_some, Option.getD_some,
    List.length_take, List.length_drop, Position.ofOffset_eq h, hline, Nat.add_comm 1,
    Nat.add_comm 1]
  congr 2
  omega

def lookUp (table : LineTable) (offset : Nat) : List Item → List Piece
  | [] => []
  | item :: rest =>
      ⟨item, table.position offset, table.position (offset + item.lexeme.byteSize)⟩ ::
        table.lookUp (offset + item.lexeme.byteSize) rest

theorem lookUp_eq_spread {source : Text} {offset : Nat} {items : List Item}
    (hfill : source.drop offset = items.flatMap Item.lexeme) (hle : offset ≤ source.length) :
    (ofText source).lookUp (source.byteOffset offset) items = Piece.spread source offset items := by
  induction items generalizing offset with
  | nil => rfl
  | cons item rest ih =>
      rw [List.flatMap_cons] at hfill
      have hnext : offset + item.lexeme.length ≤ source.length := by
        have hlength := congrArg List.length hfill
        rw [List.length_drop, List.length_append] at hlength
        omega
      have hbytes : source.byteOffset offset + item.lexeme.byteSize =
          source.byteOffset (offset + item.lexeme.length) := by
        rw [Text.byteOffset_eq_add source (Nat.le_add_right offset item.lexeme.length), hfill,
          Nat.add_sub_cancel_left, List.take_left]
      rw [lookUp, Piece.spread, hbytes, position_byteOffset hle, position_byteOffset hnext,
        ih (Text.drop_add_of_drop_eq hfill) hnext]

theorem locate_eq_lookUp (source : Text) :
    Piece.locate .origin (Item.scan source) = (ofText source).lookUp 0 (Item.scan source) := by
  rw [Piece.locate_scan]
  refine (lookUp_eq_spread ?_ (Nat.zero_le _)).symm
  rw [Item.flatMap_lexeme_scan, List.drop_zero]

/--
A look-up counts the line breaks up to an offset between two characters and the characters
behind the last of them, so positions have the order of the offsets; and these are the
positions of the pieces of a source.
-/
theorem position_exact (source : Text) :
    (∀ offset ≤ source.length, ∃ breaks, source.BreaksUpTo offset breaks ∧
      (ofText source).position (source.byteOffset offset) =
        ⟨1 + breaks.length, 1 + (offset - (breaks.getLast?.map Prod.snd).getD 0)⟩) ∧
    (∀ first ≤ source.length, ∀ second ≤ source.length,
      source.byteOffset first < source.byteOffset second →
        (ofText source).position (source.byteOffset first) <
          (ofText source).position (source.byteOffset second)) ∧
    Piece.locate .origin (Item.scan source) = (ofText source).lookUp 0 (Item.scan source) := by
  refine ⟨fun offset hoffset => ?_, fun first hfirst second hsecond hlt => ?_,
    locate_eq_lookUp source⟩
  · obtain ⟨breaks, hbreaks, hends⟩ := source.exists_breaksUpTo offset
    refine ⟨breaks, hbreaks, ?_⟩
    rw [position_byteOffset hoffset, Position.ofOffset_eq hoffset, ← hends, List.length_map,
      List.getLast?_map]
  · have hbefore : first < second := by
      rcases Nat.lt_or_ge first second with hbefore | hge
      · exact hbefore
      · exact absurd ((Text.byteOffset_le_iff hsecond).mpr hge) (Nat.not_le.mpr hlt)
    rw [position_byteOffset hfirst, position_byteOffset hsecond]
    exact Position.ofOffset_lt_ofOffset hbefore hsecond

/-- Breaks of three kinds behind a character of two bytes, and an offset inside one of them. -/
theorem position_exact_mixed : ∃ source : Text, source = "é\r\nx\ry\n".toList ∧
    (ofText source).position (source.byteOffset 2) = ⟨1, 3⟩ ∧
    (ofText source).position (source.byteOffset 6) = ⟨3, 2⟩ ∧
    (ofText source).position (source.byteOffset 2) <
      (ofText source).position (source.byteOffset 6) ∧
    ∃ breaks, source.BreaksUpTo 6 breaks ∧
      (⟨3, 2⟩ : Position) =
        ⟨1 + breaks.length, 1 + (6 - (breaks.getLast?.map Prod.snd).getD 0)⟩ := by
  rcases (⟨_, rfl⟩ : ∃ source : Text, source = "é\r\nx\ry\n".toList) with ⟨source, hsource⟩
  have hlength : 6 ≤ source.length := by
    rw [hsource]
    decide +kernel
  have hlast : (ofText source).position (source.byteOffset 6) = ⟨3, 2⟩ := by
    rw [hsource]
    decide +kernel
  obtain ⟨hcount, horder, -⟩ := position_exact source
  obtain ⟨breaks, hbreaks, hposition⟩ := hcount 6 hlength
  refine ⟨source, hsource, ?_, hlast, ?_, breaks, hbreaks, hlast.symm.trans hposition⟩
  · rw [hsource]
    decide +kernel
  · refine horder 2 (by omega) 6 hlength ?_
    rw [hsource]
    decide +kernel

end LineTable

end TemplateDocs

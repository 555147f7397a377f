import TemplateDocs.Proofs.Position.Offset

/-!
# Line breaks

A line break is a carriage return with a line feed behind it, or one of the two alone.  The
position of an offset counts the breaks up to it and the characters behind the last of them
(`ofOffset_eq`).
-/

namespace TemplateDocs

namespace Text

/-- A line break of a text, by its two offsets. -/
inductive Break (source : Text) : Nat → Nat → Prop where
  | pair {start : Nat} (hreturn : source[start]? = some '\r')
      (hfeed : source[start + 1]? = some '\n') : Break source start (start + 2)
  | loneReturn {start : Nat} (hreturn : source[start]? = some '\r')
      (hother : source[start + 1]? ≠ some '\n') : Break source start (start + 1)
  | loneFeed {start : Nat} (hfeed : source[start]? = some '\n')
      (hother : ∀ before, start = before + 1 → source[before]? ≠ some '\r') :
      Break source start (start + 1)

structure BreaksUpTo (source : Text) (offset : Nat) (breaks : List (Nat × Nat)) : Prop where
  ordered : breaks.Pairwise fun first second => first.2 < second.2
  mem_iff : ∀ start stop, (start, stop) ∈ breaks ↔ Break source start stop ∧ stop ≤ offset

def endsLineAt (source : Text) (offset : Nat) : Bool :=
  source[offset]?.any fun c => Position.endsLine c source[offset + 1]?

/-- The offsets up to a given one that stand right behind the end of a line. -/
def lineEnds (source : Text) (offset : Nat) : List Nat :=
  ((List.range offset).filter (endsLineAt source)).map (· + 1)

theorem lineEnds_succ (source : Text) (offset : Nat) :
    lineEnds source (offset + 1) =
      lineEnds source offset ++ if endsLineAt source offset then [offset + 1] else [] := by
  rw [lineEnds, List.range_succ, List.filter_append, List.map_append, ← lineEnds]
  cases hends : endsLineAt source offset <;> simp [hends]

theorem mem_lineEnds_iff {source : Text} {offset stop : Nat} :
    stop ∈ lineEnds source offset ↔
      ∃ last, endsLineAt source last = true ∧ last < offset ∧ stop = last + 1 := by
  simp only [lineEnds, List.mem_map, List.mem_filter, List.mem_range]
  constructor
  · rintro ⟨last, ⟨hlt, hends⟩, rfl⟩
    exact ⟨last, hends, hlt, rfl⟩
  · rintro ⟨last, hends, hlt, rfl⟩
    exact ⟨last, ⟨hlt, hends⟩, rfl⟩

theorem lastLineEnd_le (source : Text) (offset : Nat) :
    (lineEnds source offset).getLast?.getD 0 ≤ offset := by
  cases hlast : (lineEnds source offset).getLast? with
  | none => exact Nat.zero_le offset
  | some last =>
      obtain ⟨before, -, hbefore, rfl⟩ := mem_lineEnds_iff.mp (List.mem_of_getLast? hlast)
      exact hbefore

/-! ## Breaks and ends of lines -/

theorem Break.endsLineAt {source : Text} {start stop : Nat} (h : Break source start stop) :
    ∃ last, stop = last + 1 ∧ source.endsLineAt last = true := by
  cases h with
  | pair hreturn hfeed =>
      exact ⟨start + 1, rfl, by simp [Text.endsLineAt, hfeed, Position.endsLine]⟩
  | loneReturn hreturn hother =>
      exact ⟨start, rfl, by simp [Text.endsLineAt, hreturn, hother, Position.endsLine]⟩
  | loneFeed hfeed hother => exact ⟨start, rfl, by simp [Text.endsLineAt, hfeed, Position.endsLine]⟩

theorem exists_break {source : Text} {last : Nat} (h : endsLineAt source last = true) :
    ∃ start, Break source start (last + 1) := by
  obtain ⟨c, hc, hends⟩ := (Option.any_eq_true _ _).mp h
  simp only [Position.endsLine, Bool.or_eq_true, Bool.and_eq_true, decide_eq_true_eq,
    bne_iff_ne] at hends
  rcases hends with rfl | ⟨rfl, hother⟩
  · by_cases hpair : ∃ before, last = before + 1 ∧ source[before]? = some '\r'
    · obtain ⟨before, rfl, hreturn⟩ := hpair
      exact ⟨before, .pair hreturn hc⟩
    · refine ⟨last, .loneFeed hc fun before hbefore hreturn => ?_⟩
      exact hpair ⟨before, hbefore, hreturn⟩
  · exact ⟨last, .loneReturn hc hother⟩

theorem Break.start_unique {source : Text} {first second stop : Nat}
    (hfirst : Break source first stop) (hsecond : Break source second stop) : first = second := by
  cases hfirst with
  | pair hreturn hfeed =>
      cases hsecond with
      | pair => rfl
      | loneReturn hreturn' => simp [hfeed] at hreturn'
      | loneFeed _ hother => exact absurd hreturn (hother first rfl)
  | loneReturn hreturn hother =>
      cases hsecond with
      | pair _ hfeed => simp [hreturn] at hfeed
      | loneReturn => rfl
      | loneFeed => rfl
  | loneFeed hfeed hother =>
      cases hsecond with
      | pair hreturn => exact absurd hreturn (hother second rfl)
      | loneReturn => rfl
      | loneFeed => rfl

theorem exists_breaksUpTo (source : Text) (offset : Nat) :
    ∃ breaks, BreaksUpTo source offset breaks ∧
      breaks.map Prod.snd = lineEnds source offset := by
  induction offset with
  | zero =>
      refine ⟨[], ⟨List.Pairwise.nil, fun start stop => ?_⟩, rfl⟩
      constructor
      · intro hmem
        cases hmem
      · rintro ⟨hbreak, hle⟩
        obtain ⟨last, rfl, -⟩ := hbreak.endsLineAt
        omega
  | succ offset ih =>
      obtain ⟨breaks, hbreaks, hends⟩ := ih
      have hold {start stop : Nat} (hmem : (start, stop) ∈ breaks) : stop ≤ offset :=
        ((hbreaks.mem_iff start stop).mp hmem).2
      cases hend : endsLineAt source offset with
      | false =>
          refine ⟨breaks, ⟨hbreaks.ordered, fun start stop => ?_⟩, ?_⟩
          · rw [hbreaks.mem_iff]
            refine and_congr_right fun hbreak => ⟨fun hle => by omega, fun hle => ?_⟩
            obtain ⟨last, rfl, hlast⟩ := hbreak.endsLineAt
            have hne : last ≠ offset := fun heq => by simp [heq, hend] at hlast
            omega
          · rw [lineEnds_succ, hend, hends]
            simp
      | true =>
          obtain ⟨begin, hbegin⟩ := exists_break hend
          refine ⟨breaks ++ [(begin, offset + 1)], ⟨?_, fun start stop => ?_⟩, ?_⟩
          · refine List.pairwise_append.mpr ⟨hbreaks.ordered, List.pairwise_singleton _ _, ?_⟩
            intro first hfirst second hsecond
            rw [List.mem_singleton.mp hsecond]
            exact Nat.lt_succ_of_le (hold hfirst)
          · rw [List.mem_append, List.mem_singleton, hbreaks.mem_iff, Prod.mk.injEq]
            constructor
            · rintro (⟨hbreak, hle⟩ | ⟨rfl, rfl⟩)
              · exact ⟨hbreak, Nat.le_succ_of_le hle⟩
              · exact ⟨hbegin, Nat.le_refl _⟩
            · rintro ⟨hbreak, hle⟩
              rcases Nat.lt_or_eq_of_le hle with hlt | rfl
              · exact .inl ⟨hbreak, Nat.le_of_lt_succ hlt⟩
              · exact .inr ⟨hbreak.start_unique hbegin, rfl⟩
          · rw [lineEnds_succ, hend, List.map_append, hends]
            rfl

end Text

namespace Position

open Text (lineEnds endsLineAt)

theorem ofOffset_succ {source : Text} {offset : Nat} {c : Char} (h : source[offset]? = some c) :
    ofOffset source (offset + 1) = (ofOffset source offset).step c source[offset + 1]? := by
  obtain ⟨hlt, hc⟩ := List.getElem?_eq_some_iff.mp h
  have hdrop : source.drop offset = [c] ++ source.drop (offset + 1) := by
    rw [List.drop_eq_getElem_cons hlt, hc]
    rfl
  have hadd := ofOffset_add hdrop
  rw [List.length_singleton] at hadd
  rw [hadd, List.head?_drop]
  rfl

/-- A position counts the ends of lines up to its offset, and the characters behind the last. -/
theorem ofOffset_eq {source : Text} {offset : Nat} (h : offset ≤ source.length) :
    ofOffset source offset =
      ⟨1 + (lineEnds source offset).length,
        1 + (offset - (lineEnds source offset).getLast?.getD 0)⟩ := by
  induction offset with
  | zero => simp [lineEnds, origin]
  | succ offset ih =>
      have hlt : offset < source.length := h
      have hget : source[offset]? = some source[offset] := List.getElem?_eq_getElem hlt
      have hlast := Text.lastLineEnd_le source offset
      have hends : endsLineAt source offset = endsLine source[offset] source[offset + 1]? := by
        rw [endsLineAt, hget]
        rfl
      rw [ofOffset_succ hget, ih (Nat.le_of_lt hlt), step, ← hends, Text.lineEnds_succ]
      cases endsLineAt source offset with
      | true =>
          rw [if_pos rfl, if_pos rfl, List.length_append, List.getLast?_concat]
          simp [Nat.add_assoc]
      | false =>
          simp only [Bool.false_eq_true, if_false, List.append_nil, Position.mk.injEq, true_and]
          omega

end Position

end TemplateDocs

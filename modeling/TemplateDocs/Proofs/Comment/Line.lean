import TemplateDocs.Comment.Line
import TemplateDocs.Proofs.LineBreak.Text

/-!
# What the lines of a comment look like

The three kinds of lines, spelled out: a line that declares a parameter, a line that sets
a tag, and what any other line adds to a text.  Reading a line finds the kind that it is
spelled as, and no other (`CommentLine.classifies_iff`).  The lines of a text are what
stands between its breaks (`Text.breaksInto_iff`).
-/

namespace TemplateDocs

namespace Text

/-! ## Lines between breaks -/

/-- The text is the lines with a break between each two of them; a pair is one break. -/
inductive BreaksInto : Text → List Text → Prop where
  | last {line : Text} (hline : IsUnbroken line) : BreaksInto line [line]
  | feed {line rest : Text} {lines : List Text} (hline : IsUnbroken line)
      (hrest : BreaksInto rest lines) : BreaksInto (line ++ '\n' :: rest) (line :: lines)
  | pair {line rest : Text} {lines : List Text} (hline : IsUnbroken line)
      (hrest : BreaksInto rest lines) : BreaksInto (line ++ '\r' :: '\n' :: rest) (line :: lines)
  | single {line rest : Text} {lines : List Text} (hline : IsUnbroken line)
      (hnext : rest.head? ≠ some '\n') (hrest : BreaksInto rest lines) :
      BreaksInto (line ++ '\r' :: rest) (line :: lines)

theorem isUnbroken_nil : IsUnbroken [] := by
  simp [IsUnbroken]

theorem IsUnbroken.cons {c : Char} {line : Text} (hreturn : c ≠ '\r') (hfeed : c ≠ '\n')
    (hline : IsUnbroken line) : IsUnbroken (c :: line) := by
  intro d hd
  cases List.mem_cons.mp hd with
  | inl heq => exact heq ▸ ⟨hreturn, hfeed⟩
  | inr hmem => exact hline d hmem

theorem BreaksInto.cons {c : Char} {text : Text} {lines : List Text}
    (h : BreaksInto text lines) (hreturn : c ≠ '\r') (hfeed : c ≠ '\n') :
    BreaksInto (c :: text) (extendFirst c lines) := by
  cases h with
  | last hline => exact .last (hline.cons hreturn hfeed)
  | feed hline hrest => exact .feed (hline.cons hreturn hfeed) hrest
  | pair hline hrest => exact .pair (hline.cons hreturn hfeed) hrest
  | single hline hnext hrest => exact .single (hline.cons hreturn hfeed) hnext hrest

theorem breaksInto_lines (text : Text) : BreaksInto text (lines text) := by
  fun_induction lines text with
  | case1 => exact .last isUnbroken_nil
  | case2 rest ih => exact .pair isUnbroken_nil ih
  | case3 c rest hpair hbreak ih =>
      simp only [Bool.or_eq_true, decide_eq_true_eq] at hbreak
      cases hbreak with
      | inl hfeed => exact hfeed ▸ .feed isUnbroken_nil ih
      | inr hreturn =>
          have hnext : rest.head? ≠ some '\n' := by
            intro hhead
            cases rest with
            | nil => cases hhead
            | cons d rest => exact hpair rest hreturn (by rw [Option.some.inj hhead])
          exact hreturn ▸ .single isUnbroken_nil hnext ih
  | case4 c rest hpair hbreak ih =>
      simp only [Bool.or_eq_true, decide_eq_true_eq, not_or] at hbreak
      exact ih.cons hbreak.2 hbreak.1

theorem lines_append {line behind rest : Text} (hline : IsUnbroken line)
    (hbehind : lines behind = [] :: lines rest) :
    lines (line ++ behind) = line :: lines rest := by
  induction line with
  | nil => exact hbehind
  | cons c line ih =>
      have hc := hline c List.mem_cons_self
      have hrest := ih fun d hd => hline d (List.mem_cons_of_mem c hd)
      rw [List.cons_append, lines.eq_def]
      simp [hc.1, hc.2, hrest, extendFirst]

theorem lines_of_isUnbroken {line : Text} (hline : IsUnbroken line) : lines line = [line] := by
  induction line with
  | nil => rfl
  | cons c line ih =>
      have hc := hline c List.mem_cons_self
      have hrest := ih fun d hd => hline d (List.mem_cons_of_mem c hd)
      rw [lines.eq_def]
      simp [hc.1, hc.2, hrest, extendFirst]

theorem breaksInto_iff {text : Text} {found : List Text} :
    BreaksInto text found ↔ found = lines text := by
  refine ⟨fun h => ?_, fun h => h ▸ breaksInto_lines text⟩
  induction h with
  | last hline => exact (lines_of_isUnbroken hline).symm
  | feed hline hrest ih =>
      rw [ih]
      exact (lines_append hline (by simp [lines])).symm
  | pair hline hrest ih =>
      rw [ih]
      exact (lines_append hline (by simp [lines])).symm
  | @single line rest found hline hnext hrest ih =>
      rw [ih]
      refine (lines_append hline ?_).symm
      cases rest with
      | nil => rfl
      | cons d rest =>
          have hd : d ≠ '\n' := fun heq => hnext (by rw [heq]; rfl)
          rw [lines.eq_def]
          simp [hd]

theorem BreaksInto.isUnbroken {text : Text} {lines : List Text} (h : BreaksInto text lines) :
    ∀ line ∈ lines, IsUnbroken line := by
  induction h with
  | last hline => exact fun line hmem => List.mem_singleton.mp hmem ▸ hline
  | feed hline hrest ih | pair hline hrest ih | single hline hnext hrest ih =>
      intro line hmem
      cases List.mem_cons.mp hmem with
      | inl heq => exact heq ▸ hline
      | inr hmem => exact ih line hmem

/-! ## Blanks and words -/

theorem isBlank_eq_false_of_isWord {c : Char} (h : isWord c = true) : isBlank c = false := by
  have hapart : (blankRanges.all fun range =>
      (List.range' range.1 (range.2 + 1 - range.1)).all fun code =>
        !isWord (Char.ofNat code)) = true := by
    decide +kernel
  rw [Bool.eq_false_iff]
  intro hblank
  unfold isBlank inRanges at hblank
  rw [List.any_eq_true] at hblank
  cases hblank with
  | intro range hrange =>
      have hbounds := hrange.2
      simp only [Bool.and_eq_true, decide_eq_true_eq] at hbounds
      have hcodes := List.all_eq_true.mp hapart range hrange.1
      have hcode := List.all_eq_true.mp hcodes c.toNat (by
        rw [List.mem_range'_1]
        omega)
      rw [Char.ofNat_toNat, h] at hcode
      cases hcode

theorem trimStart_of_startsBlank {text : Text} (h : CommentLine.startsBlank text = false) :
    trimStart text = text := by
  cases text with
  | nil => rfl
  | cons c rest => exact List.dropWhile_cons_of_neg (by rw [show isBlank c = false from h]; simp)

theorem trimStart_append {indent : Text} (hindent : allBlank indent = true) (rest : Text) :
    trimStart (indent ++ rest) = trimStart rest :=
  List.dropWhile_append_of_pos (List.all_eq_true.mp hindent)

theorem exists_indent (text : Text) :
    ∃ indent, allBlank indent = true ∧ text = indent ++ trimStart text :=
  ⟨text.takeWhile isBlank, List.all_takeWhile, List.takeWhile_append_dropWhile.symm⟩

theorem startsBlank_trimStart (text : Text) : CommentLine.startsBlank (trimStart text) = false := by
  unfold trimStart
  induction text with
  | nil => rfl
  | cons c rest ih =>
      rw [List.dropWhile_cons]
      split
      · exact ih
      · next hc => exact Bool.eq_false_iff.mpr hc

end Text

namespace CommentLine

open Text (allBlank isWord trimStart)

/-! ## The kinds of lines -/

/-- Behind blanks, two dashes if there are any, and blanks again stands `rest`. -/
def Leads (line rest : Text) : Prop :=
  ∃ indent middle gap, line = indent ++ middle ++ gap ++ rest ∧ allBlank indent = true ∧
    (middle = [] ∨ middle = dashes) ∧ allBlank gap = true

/-- A word that goes on as long as it can, and what follows it behind the blanks. -/
def StartsWord (text word rest : Text) : Prop :=
  ∃ tail, text = word ++ tail ∧ word ≠ [] ∧ (∀ c ∈ word, isWord c = true) ∧
    (∀ c ∈ tail.head?, isWord c = false) ∧ rest = trimStart tail

def DeclaresParam (line name description : Text) : Prop :=
  ∃ gap text, Leads line (paramWord ++ gap ++ text) ∧ gap ≠ [] ∧ allBlank gap = true ∧
    StartsWord text name description

def SetsTag (line name value : Text) : Prop :=
  ∃ text word, Leads line ('@' :: text) ∧ StartsWord text word value ∧ name = '@' :: word

/-- What a line adds to a text: one space for its indent, and no dashes behind it. -/
def Captures (line captured : Text) : Prop :=
  ∃ indent inner shown, line = indent ++ inner ∧ allBlank indent = true ∧
    startsBlank inner = false ∧
    (inner = dashes ++ shown ∨ ¬ dashes <+: inner ∧ inner = shown) ∧
    captured = if indent = [] then shown else ' ' :: shown

/-- The kind of a line: a parameter before a tag, and a tag before anything else. -/
inductive Classifies (line : Text) : CommentLine → Prop where
  | param {name description : Text} (h : DeclaresParam line name description) :
      Classifies line (param name description)
  | tag {name value : Text} (hparam : ∀ name description, ¬ DeclaresParam line name description)
      (h : SetsTag line name value) : Classifies line (tag name value)
  | blank {captured : Text} (hparam : ∀ name description, ¬ DeclaresParam line name description)
      (htag : ∀ name value, ¬ SetsTag line name value) (hblank : allBlank line = true)
      (h : Captures line captured) : Classifies line (blank captured)
  | text {captured : Text} (hparam : ∀ name description, ¬ DeclaresParam line name description)
      (htag : ∀ name value, ¬ SetsTag line name value) (hblank : allBlank line = false)
      (h : Captures line captured) : Classifies line (text captured)

theorem leads_withoutDashes (line : Text) : Leads line (trimStart (withoutDashes line)) := by
  have hline := Text.exists_indent line
  have hinner := Text.exists_indent (withoutDashes line)
  unfold withoutDashes at hinner ⊢
  obtain ⟨indent, hindent, hline⟩ := hline
  obtain ⟨gap, hgap, hinner⟩ := hinner
  cases hdashes : Text.after? dashes (trimStart line) with
  | none =>
      simp only [hdashes, Option.getD_none] at hinner ⊢
      refine ⟨indent, [], gap, ?_, hindent, .inl rfl, hgap⟩
      rw [List.append_nil, List.append_assoc, ← hinner]
      exact hline
  | some inner =>
      simp only [hdashes, Option.getD_some] at hinner ⊢
      refine ⟨indent, dashes, gap, ?_, hindent, .inr rfl, hgap⟩
      rw [List.append_assoc, List.append_assoc, ← hinner, ← Text.eq_append_of_after? hdashes]
      exact hline

/-- In front of an at sign there is one way only to read blanks and dashes. -/
theorem leads_iff {line text : Text} :
    Leads line ('@' :: text) ↔ trimStart (withoutDashes line) = '@' :: text := by
  refine ⟨fun h => ?_, fun h => h ▸ leads_withoutDashes line⟩
  obtain ⟨indent, middle, gap, rfl, hindent, hmiddle, hgap⟩ := h
  have hsign : trimStart ('@' :: text) = '@' :: text := Text.trimStart_of_startsBlank rfl
  unfold withoutDashes
  dsimp only
  cases hmiddle with
  | inl hmiddle =>
      have htrim : trimStart (indent ++ middle ++ gap ++ '@' :: text) = '@' :: text := by
        rw [hmiddle, List.append_nil, List.append_assoc, Text.trimStart_append hindent,
          Text.trimStart_append hgap, hsign]
      rw [htrim]
      exact hsign
  | inr hmiddle =>
      have htrim : trimStart (indent ++ middle ++ gap ++ '@' :: text) =
          dashes ++ (gap ++ '@' :: text) := by
        rw [hmiddle, List.append_assoc, List.append_assoc, Text.trimStart_append hindent]
        exact Text.trimStart_of_startsBlank rfl
      rw [htrim, Text.after?_append, Option.getD_some, Text.trimStart_append hgap, hsign]

theorem word?_eq_some_iff {text word rest : Text} :
    word? text = some (word, rest) ↔ StartsWord text word rest := by
  unfold word? StartsWord
  dsimp only
  constructor
  · intro h
    split at h
    · cases h
    · next hne =>
        cases h
        refine ⟨text.dropWhile isWord, List.takeWhile_append_dropWhile.symm, by simpa using hne,
          List.all_eq_true.mp List.all_takeWhile, ?_, rfl⟩
        intro c hc
        have hnot := List.head?_dropWhile_not isWord text
        rw [hc] at hnot
        simpa using hnot
  · intro h
    obtain ⟨tail, rfl, hne, hword, htail, rfl⟩ := h
    have hstop : tail.takeWhile isWord = [] ∧ tail.dropWhile isWord = tail := by
      cases tail with
      | nil => exact ⟨rfl, rfl⟩
      | cons c tail => simp [htail c rfl]
    rw [List.takeWhile_append_of_pos hword, List.dropWhile_append_of_pos hword, hstop.1, hstop.2,
      List.append_nil]
    simp [hne]

theorem StartsWord.startsBlank {text word rest : Text} (h : StartsWord text word rest) :
    startsBlank text = false := by
  obtain ⟨tail, rfl, hne, hword, -⟩ := h
  cases word with
  | nil => exact absurd rfl hne
  | cons c word => exact Text.isBlank_eq_false_of_isWord (hword c List.mem_cons_self)

theorem param?_eq_some_iff {line name description : Text} :
    param? line = some (name, description) ↔ DeclaresParam line name description := by
  unfold param? DeclaresParam
  rw [Option.bind_eq_some_iff]
  constructor
  · intro h
    obtain ⟨rest, hrest, h⟩ := h
    split at h
    · next hblank =>
        obtain ⟨gap, hgap, hsplit⟩ := Text.exists_indent rest
        refine ⟨gap, trimStart rest, ?_, ?_, hgap, word?_eq_some_iff.mp h⟩
        · rw [List.append_assoc, ← hsplit, ← Text.eq_append_of_after? hrest]
          exact leads_withoutDashes line
        · intro hnil
          have hstart := Text.startsBlank_trimStart rest
          rw [hnil, List.nil_append] at hsplit
          rw [← hsplit, hblank] at hstart
          cases hstart
    · cases h
  · intro h
    obtain ⟨gap, text, hleads, hne, hgap, hword⟩ := h
    have htrim : trimStart (withoutDashes line) = paramWord ++ (gap ++ text) := by
      rw [List.append_assoc] at hleads
      exact leads_iff.mp hleads
    have hblank : CommentLine.startsBlank (gap ++ text) = true := by
      cases gap with
      | nil => exact absurd rfl hne
      | cons c gap => exact List.all_eq_true.mp hgap c List.mem_cons_self
    refine ⟨gap ++ text, by rw [htrim, Text.after?_append], ?_⟩
    rw [if_pos hblank, Text.trimStart_append hgap,
      Text.trimStart_of_startsBlank hword.startsBlank]
    exact word?_eq_some_iff.mpr hword

theorem tag?_eq_some_iff {line name value : Text} :
    tag? line = some (name, value) ↔ SetsTag line name value := by
  unfold SetsTag
  simp only [leads_iff, ← word?_eq_some_iff]
  unfold tag?
  constructor
  · intro h
    split at h
    · next rest hrest =>
        simp only [Option.map_eq_some_iff, Prod.mk.injEq] at h
        obtain ⟨found, hfound, hname, hvalue⟩ := h
        exact ⟨rest, found.1, hrest, by rw [hfound, ← hvalue], hname.symm⟩
    · cases h
  · intro h
    obtain ⟨text, word, htrim, hword, hname⟩ := h
    simp [htrim, hword, hname]

theorem captured_append {indent inner : Text} (hindent : allBlank indent = true)
    (hinner : startsBlank inner = false) :
    captured (indent ++ inner) =
      if indent = [] then (Text.after? dashes inner).getD inner
      else ' ' :: (Text.after? dashes inner).getD inner := by
  have htrim : trimStart (indent ++ inner) = inner := by
    rw [Text.trimStart_append hindent, Text.trimStart_of_startsBlank hinner]
  unfold captured withoutDashes
  cases indent with
  | nil => simp [hinner, Text.trimStart_of_startsBlank hinner]
  | cons c indent =>
      have hblank : startsBlank (c :: indent ++ inner) = true :=
        List.all_eq_true.mp hindent c List.mem_cons_self
      simp only [hblank, htrim, if_true, reduceCtorEq, if_false]

theorem getD_after?_eq_iff {inner shown : Text} :
    (Text.after? dashes inner).getD inner = shown ↔
      inner = dashes ++ shown ∨ ¬ dashes <+: inner ∧ inner = shown := by
  cases hafter : Text.after? dashes inner with
  | some rest =>
      have heq := Text.eq_append_of_after? hafter
      simp [heq]
  | none =>
      have hnot : ¬ dashes <+: inner := by
        intro hfront
        obtain ⟨rest, rfl⟩ := hfront
        rw [Text.after?_append] at hafter
        cases hafter
      have hne : inner ≠ dashes ++ shown := fun heq => hnot ⟨shown, heq.symm⟩
      simp [hnot, hne]

theorem captures_iff {line found : Text} : Captures line found ↔ found = captured line := by
  constructor
  · intro h
    obtain ⟨indent, inner, shown, rfl, hindent, hinner, hshown, rfl⟩ := h
    rw [captured_append hindent hinner, getD_after?_eq_iff.mpr hshown]
  · intro h
    obtain ⟨indent, hindent, hline⟩ := Text.exists_indent line
    have hinner := Text.startsBlank_trimStart line
    refine ⟨indent, trimStart line, _, hline, hindent, hinner, getD_after?_eq_iff.mp rfl, ?_⟩
    rw [h, ← captured_append hindent hinner, ← hline]

theorem classifies_iff {line : Text} {kind : CommentLine} :
    Classifies line kind ↔ kind = ofText line := by
  have hnoParam (hnone : param? line = none) (name description : Text) :
      ¬ DeclaresParam line name description := by
    rw [← param?_eq_some_iff, hnone]
    exact fun h => nomatch h
  have hnoTag (hnone : tag? line = none) (name value : Text) : ¬ SetsTag line name value := by
    rw [← tag?_eq_some_iff, hnone]
    exact fun h => nomatch h
  unfold ofText
  constructor
  · intro h
    have hparam? (hparam : ∀ name description, ¬ DeclaresParam line name description) :
        param? line = none :=
      Option.eq_none_iff_forall_ne_some.mpr fun found hfound =>
        hparam found.1 found.2 (param?_eq_some_iff.mp hfound)
    have htag? (htag : ∀ name value, ¬ SetsTag line name value) : tag? line = none :=
      Option.eq_none_iff_forall_ne_some.mpr fun found hfound =>
        htag found.1 found.2 (tag?_eq_some_iff.mp hfound)
    cases h with
    | param h => rw [param?_eq_some_iff.mpr h]
    | tag hparam h => rw [hparam? hparam, tag?_eq_some_iff.mpr h]
    | blank hparam htag hblank h =>
        rw [hparam? hparam, htag? htag, captures_iff.mp h]
        simp [hblank]
    | text hparam htag hblank h =>
        rw [hparam? hparam, htag? htag, captures_iff.mp h]
        simp [hblank]
  · intro h
    rw [h]
    cases hparam : param? line with
    | some found => exact .param (param?_eq_some_iff.mp hparam)
    | none =>
        cases htag : tag? line with
        | some found => exact .tag (hnoParam hparam) (tag?_eq_some_iff.mp htag)
        | none =>
            cases hblank : allBlank line with
            | true => exact .blank (hnoParam hparam) (hnoTag htag) hblank (captures_iff.mpr rfl)
            | false => exact .text (hnoParam hparam) (hnoTag htag) hblank (captures_iff.mpr rfl)

end CommentLine

end TemplateDocs

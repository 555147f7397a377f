import TemplateDocs.Proofs.Template.TagEnd

/-!
# Quoted stretches of a tag

The scan for the end of a tag passes over quoted stretches (`quotedSpans`), in which a backslash
takes any character with it, also a line feed (`escapesBreak`).  A text that neither opens nor
closes a quote and holds no escaped break leaves both as they are (`Scan.Crosses`).
-/

namespace TemplateDocs

namespace Tag

namespace Scan

/--
The stretches that a scan passes inside quotes, quotes included, each by its first offset
and the offset behind it.  `offset` is where the text starts; `start` is where the quote
stands that is open, if one is.
-/
def quotedSpans : Scan → Nat → Nat → Text → List (Nat × Nat)
  | _, _, _, [] => []
  | scan, start, offset, c :: text =>
      -- Only at an unescaped quote does the scan change sides.
      match scan, scan.next c with
      | plain _, quoted quote depth => (quoted quote depth).quotedSpans offset (offset + 1) text
      | quoted _ _, plain depth =>
          (start, offset + 1) :: (plain depth).quotedSpans start (offset + 1) text
      | _, later => later.quotedSpans start (offset + 1) text

def escapesBreak : Scan → Text → Bool
  | _, [] => false
  | escaped quote depth, c :: text => c = '\n' || (quoted quote depth).escapesBreak text
  | scan, c :: text => (scan.next c).escapesBreak text

/-- The character neither opens nor closes a quote and is no escaped break. -/
def keeps : Scan → Char → Bool
  | plain _, c => !isQuote c
  | quoted quote _, c => c = '\\' || c != quote
  | escaped _ _, c => c != '\n'

/-- The text takes one place of the scan to the other, and no character of it stands out. -/
inductive Crosses : Scan → Text → Scan → Prop where
  | nil (scan : Scan) : Crosses scan [] scan
  | cons {scan later : Scan} {c : Char} {text : Text} (hc : scan.keeps c = true)
      (htext : Crosses (scan.next c) text later) : Crosses scan (c :: text) later

theorem exists_next_plain {c : Char} (h : isQuote c = false) (depth : Nat) :
    ∃ later, (plain depth).next c = plain later := by
  by_cases hopens : opensGroup c = true
  · exact ⟨depth + 1, by simp [next, h, hopens]⟩
  by_cases hcloses : closesGroup c = true
  · exact ⟨depth - 1, by simp [next, h, hopens, hcloses]⟩
  · exact ⟨depth, by simp [next, h, hopens, hcloses]⟩

theorem exists_crosses_of_unquoted {text : Text} (h : ∀ c ∈ text, isQuote c = false)
    (depth : Nat) : ∃ later, Crosses (plain depth) text (plain later) := by
  induction text generalizing depth with
  | nil => exact ⟨depth, .nil _⟩
  | cons c text ih =>
      have hc := h c List.mem_cons_self
      obtain ⟨middle, hmiddle⟩ := exists_next_plain hc depth
      obtain ⟨later, hlater⟩ := ih (fun d hd => h d (List.mem_cons_of_mem c hd)) middle
      exact ⟨later, .cons (by simp [keeps, hc]) (hmiddle ▸ hlater)⟩

theorem quotedSpans_of_keeps {scan : Scan} {c : Char} (h : scan.keeps c = true)
    (start offset : Nat) (text : Text) :
    scan.quotedSpans start offset (c :: text) =
      (scan.next c).quotedSpans start (offset + 1) text := by
  cases scan with
  | plain depth =>
      obtain ⟨later, hlater⟩ := exists_next_plain (by simpa [keeps] using h) depth
      simp [quotedSpans, hlater]
  | quoted quote depth =>
      by_cases hslash : c = '\\'
      · simp [quotedSpans, next, hslash]
      · have hquote : c ≠ quote := by simpa [keeps, hslash] using h
        simp [quotedSpans, next, hslash, hquote]
  | escaped quote depth => rfl

theorem escapesBreak_of_keeps {scan : Scan} {c : Char} (h : scan.keeps c = true) (text : Text) :
    scan.escapesBreak (c :: text) = (scan.next c).escapesBreak text := by
  cases scan with
  | plain depth => rfl
  | quoted quote depth => rfl
  | escaped quote depth =>
      have hbreak : c ≠ '\n' := by simpa [keeps] using h
      simp [escapesBreak, next, hbreak]

theorem pass?_tail {scan stop : Scan} {c : Char} {text : Text}
    (h : scan.pass? (c :: text) = some stop) : (scan.next c).pass? text = some stop := by
  rw [pass?] at h
  split at h
  · cases h
  · exact h

namespace Crosses

variable {scan later : Scan} {text : Text}

theorem quotedSpans (h : Crosses scan text later) (start offset : Nat) (rest : Text) :
    scan.quotedSpans start offset (text ++ rest) =
      later.quotedSpans start (offset + text.length) rest := by
  induction h generalizing offset with
  | nil => rfl
  | cons hc htext ih =>
      rw [List.cons_append, quotedSpans_of_keeps hc, ih, List.length_cons, Nat.add_right_comm,
        Nat.add_assoc]

theorem escapesBreak (h : Crosses scan text later) (rest : Text) :
    scan.escapesBreak (text ++ rest) = later.escapesBreak rest := by
  induction h with
  | nil => rfl
  | cons hc htext ih => rw [List.cons_append, escapesBreak_of_keeps hc, ih]

theorem pass? (h : Crosses scan text later) {rest : Text} {stop : Scan}
    (hstop : scan.pass? (text ++ rest) = some stop) : later.pass? rest = some stop := by
  induction h with
  | nil => exact hstop
  | cons hc htext ih => exact ih (pass?_tail hstop)

end Crosses

section Quoted

variable {quote : Char} {depth : Nat} {body : Text}

theorem next_plain_of_isQuote (hquote : isQuote quote = true) (depth : Nat) :
    (plain depth).next quote = quoted quote depth := by
  simp [next, hquote]

theorem next_quoted_of_isQuote (hquote : isQuote quote = true) (depth : Nat) :
    (quoted quote depth).next quote = plain depth := by
  have hslash : quote ≠ '\\' := by
    intro hslash
    rw [hslash] at hquote
    cases hquote
  simp [next, hslash]

theorem quotedSpans_quoted (hquote : isQuote quote = true)
    (hbody : Crosses (quoted quote depth) body (quoted quote depth)) (start offset : Nat)
    (tail : Text) :
    (plain depth).quotedSpans start offset (quote :: (body ++ quote :: tail)) =
      (offset, offset + (body.length + 2)) ::
        (plain depth).quotedSpans offset (offset + (body.length + 2)) tail := by
  have hopen := next_plain_of_isQuote hquote depth
  have hclose := next_quoted_of_isQuote hquote depth
  have hlength : offset + 1 + body.length + 1 = offset + (body.length + 2) := by omega
  simp [quotedSpans, hopen, hbody.quotedSpans, hclose, hlength]

theorem escapesBreak_quoted (hquote : isQuote quote = true)
    (hbody : Crosses (quoted quote depth) body (quoted quote depth)) (tail : Text) :
    (plain depth).escapesBreak (quote :: (body ++ quote :: tail)) =
      (plain depth).escapesBreak tail := by
  have hopen := next_plain_of_isQuote hquote depth
  have hclose := next_quoted_of_isQuote hquote depth
  simp [escapesBreak, hopen, hbody.escapesBreak, hclose]

theorem pass?_of_quoted (hquote : isQuote quote = true)
    (hbody : Crosses (quoted quote depth) body (quoted quote depth)) {tail : Text} {stop : Scan}
    (h : (plain depth).pass? (quote :: (body ++ quote :: tail)) = some stop) :
    (plain depth).pass? tail = some stop := by
  have hinside := pass?_tail h
  rw [next_plain_of_isQuote hquote] at hinside
  have hbehind := pass?_tail (hbody.pass? hinside)
  rwa [next_quoted_of_isQuote hquote] at hbehind

end Quoted

/-- A scan that starts inside quotes and ends outside closes the quote that was open. -/
theorem exists_quotedSpans_cons {scan : Scan} {text : Text} {stop : Nat}
    (hscan : ∀ depth, scan ≠ plain depth) (h : scan.pass? text = some (plain stop))
    (start offset : Nat) :
    ∃ last spans, scan.quotedSpans start offset text = (start, last) :: spans := by
  -- `start` is handed on unchanged until the quote is closed, whatever is escaped before.
  induction text generalizing scan offset with
  | nil =>
      rw [pass?, Option.some.injEq] at h
      exact absurd h (hscan stop)
  | cons c text ih =>
      have htext := pass?_tail h
      cases scan with
      | plain depth => exact absurd rfl (hscan depth)
      | quoted quote depth =>
          by_cases hslash : c = '\\'
          · rw [quotedSpans_of_keeps (by simp [keeps, hslash])]
            exact ih (by simp [next, hslash]) htext (offset + 1)
          by_cases hquote : c = quote
          · subst hquote
            simp [quotedSpans, next, hslash]
          · rw [quotedSpans_of_keeps (by simp [keeps, hquote])]
            exact ih (by simp [next, hslash, hquote]) htext (offset + 1)
      | escaped quote depth => exact ih (by simp [next]) htext (offset + 1)

theorem exists_quotedSpans_of_isQuote {quote : Char} (hquote : isQuote quote = true)
    {depth stop : Nat} {text : Text} (h : (plain depth).pass? (quote :: text) = some (plain stop))
    (start offset : Nat) :
    ∃ last spans, (plain depth).quotedSpans start offset (quote :: text) =
      (offset, last) :: spans := by
  have hopen := next_plain_of_isQuote hquote depth
  have hinside := pass?_tail h
  rw [hopen] at hinside
  obtain ⟨last, spans, hspans⟩ :=
    exists_quotedSpans_cons (by simp) hinside offset (offset + 1)
  exact ⟨last, spans, by simp [quotedSpans, hopen, hspans]⟩

end Scan

def quotedSpans (header : Text) : List (Nat × Nat) :=
  (Scan.plain 0).quotedSpans 0 0 header

def escapesBreak (header : Text) : Bool :=
  (Scan.plain 0).escapesBreak header

end Tag

end TemplateDocs

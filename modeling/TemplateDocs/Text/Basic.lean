/-!
# Texts

A text is the list of its characters.  Offsets, lengths and columns count
characters, and two texts compare by the code points of their characters.
-/

namespace TemplateDocs

abbrev Text := List Char

namespace Text

/-- What follows `lead` in a text that starts with it. -/
def after? : Text → Text → Option Text
  | [], rest => some rest
  | _ :: _, [] => none
  | expected :: lead, c :: rest =>
      if expected = c then after? lead rest else none

theorem after?_append (lead rest : Text) :
    after? lead (lead ++ rest) = some rest := by
  induction lead with
  | nil => rfl
  | cons c lead ih => simp [after?, ih]

theorem eq_append_of_after? {lead text rest : Text}
    (h : after? lead text = some rest) : text = lead ++ rest := by
  induction lead generalizing text with
  | nil => simpa [after?] using h
  | cons c lead ih =>
      cases text with
      | nil => simp [after?] at h
      | cons d text =>
          by_cases hcd : c = d
          · subst hcd
            simpa [after?] using ih (by simpa [after?] using h)
          · simp [after?, hcd] at h

def startsWith (lead text : Text) : Bool :=
  (after? lead text).isSome

/--
The part of a text before the first occurrence of `mark` and the part behind
that occurrence.
-/
def splitAt? (mark : Text) : Text → Option (Text × Text)
  | [] => (after? mark []).map fun rest => ([], rest)
  | c :: text =>
      match after? mark (c :: text) with
      | some rest => some ([], rest)
      | none => (splitAt? mark text).map fun found => (c :: found.1, found.2)

theorem eq_append_of_splitAt? {mark text before rest : Text}
    (h : splitAt? mark text = some (before, rest)) :
    text = before ++ mark ++ rest := by
  induction text generalizing before with
  | nil =>
      simp only [splitAt?, Option.map_eq_some_iff, Prod.mk.injEq] at h
      obtain ⟨tail, htail, rfl, rfl⟩ := h
      simpa using eq_append_of_after? htail
  | cons c text ih =>
      simp only [splitAt?] at h
      split at h
      · next tail htail =>
          simp only [Option.some.injEq, Prod.mk.injEq] at h
          obtain ⟨rfl, rfl⟩ := h
          simpa using eq_append_of_after? htail
      · simp only [Option.map_eq_some_iff, Prod.mk.injEq] at h
        obtain ⟨found, hfound, rfl, rfl⟩ := h
        simp [ih hfound]

def splitOn (mark : Char) : Text → List Text
  | [] => [[]]
  | c :: rest =>
      if c = mark then
        [] :: splitOn mark rest
      else
        match splitOn mark rest with
        | [] => [[c]]
        | part :: parts => (c :: part) :: parts

/-- Does the first text not stand behind the second in the order of texts? -/
def le (first second : Text) : Bool :=
  !decide (second < first)

theorem le_iff {first second : Text} : le first second = true ↔ ¬ second < first := by
  simp [le]

theorem le_trans {first second third : Text} (h : le first second = true)
    (h' : le second third = true) : le first third = true := by
  rw [le_iff] at *
  exact List.not_lt.mpr (List.le_trans (List.not_lt.mp h) (List.not_lt.mp h'))

theorem le_total (first second : Text) : (le first second || le second first) = true := by
  rw [Bool.or_eq_true, le_iff, le_iff]
  exact (List.le_total first second).imp List.not_lt.mpr List.not_lt.mpr

theorem le_antisymm {first second : Text} (h : le first second = true)
    (h' : le second first = true) : first = second := by
  rw [le_iff] at *
  exact List.le_antisymm (List.not_lt.mp h) (List.not_lt.mp h')

def inRanges (ranges : List (Nat × Nat)) (code : Nat) : Bool :=
  ranges.any fun range => range.1 ≤ code && code ≤ range.2

def ofNat (n : Nat) : Text :=
  Nat.toDigits 10 n

def hexDigit (n : Nat) : Char :=
  if n < 10 then Char.ofNat ('0'.toNat + n) else Char.ofNat ('a'.toNat + (n - 10))

def ofByte (n : Nat) : Text :=
  [hexDigit (n / 16), hexDigit (n % 16)]

def byteSize (text : Text) : Nat :=
  text.foldl (fun size c => size + c.utf8Size) 0

/-- What is left of a text behind so many bytes, if they are whole characters. -/
def dropBytes? (count : Nat) : Text → Option Text
  | [] => if count = 0 then some [] else none
  | c :: rest =>
      if count = 0 then
        some (c :: rest)
      else if c.utf8Size ≤ count then
        dropBytes? (count - c.utf8Size) rest
      else
        none

def takeBytes? (count : Nat) : Text → Option Text
  | [] => if count = 0 then some [] else none
  | c :: rest =>
      if count = 0 then
        some []
      else if c.utf8Size ≤ count then
        (takeBytes? (count - c.utf8Size) rest).map (c :: ·)
      else
        none

/-- The bytes of a text from one to before another, if they are whole characters. -/
def slice? (first last : Nat) (text : Text) : Option Text :=
  (dropBytes? first text).bind (takeBytes? (last - first))

def join (between : Text) (texts : List Text) : Text :=
  between.intercalate texts

end Text

end TemplateDocs

import TemplateDocs.Definition
import TemplateDocs.Text.Cut
import TemplateDocs.Template.Tag

/-!
# Items

A template is a run of items: stretches of text, comments, tags that open or
close a definition, and other tags.  `scan` cuts a source into its items without
a look at how they nest, and loses nothing: the texts of the items, put together,
are the source (`flatMap_lexeme_scan`).
-/

namespace TemplateDocs

inductive Leaf where
  | text (run : Text)
  /-- A comment, by what stands between its delimiters. -/
  | comment (body : Text)
  /-- A tag that neither opens nor closes a definition. -/
  | tag (lexeme : Text)
deriving DecidableEq, Repr

def Leaf.lexeme : Leaf → Text
  | text run => run
  | comment body => Tag.commentOpen ++ body ++ Tag.commentClose
  | tag lexeme => lexeme

inductive Item where
  | leaf (part : Leaf)
  /-- A tag that opens a definition; `header` stands between keyword and `>`. -/
  | opening (kind : DefinitionKind) (header : Text)
  /-- A tag that closes a definition; `gap` stands between keyword and `>`. -/
  | closing (kind : DefinitionKind) (gap : Text)
  | openComment (rest : Text)
  /-- An opening tag that never ends. -/
  | openHeader (kind : DefinitionKind) (rest : Text)
deriving DecidableEq, Repr

namespace Item

def openingLead (kind : DefinitionKind) : Text :=
  '<' :: '#' :: kind.label

def closingLead (kind : DefinitionKind) : Text :=
  '<' :: '/' :: '#' :: kind.label

def lexeme : Item → Text
  | leaf part => part.lexeme
  | opening kind header => openingLead kind ++ header ++ ['>']
  | closing kind gap => closingLead kind ++ gap ++ ['>']
  | openComment rest => Tag.commentOpen ++ rest
  | openHeader kind rest => openingLead kind ++ rest

/-- A header starts with a gap, an opening parenthesis or the end of the tag. -/
def startsHeader : Text → Bool
  | [] => false
  | c :: _ => Text.isGap c || c = '>' || c = '('

def comment? (text : Text) : Option (Item × Text) :=
  (Text.after? Tag.commentOpen text).map fun inside =>
    match Text.splitAt? Tag.commentClose inside with
    | some (body, rest) => (leaf (.comment body), rest)
    | none => (openComment inside, [])

def closing? (kind : DefinitionKind) (text : Text) : Option (Item × Text) :=
  (Text.after? (closingLead kind) text).bind fun inside =>
    match inside.dropWhile Text.isGap with
    | '>' :: rest => some (closing kind (inside.takeWhile Text.isGap), rest)
    | _ => none

def opening? (kind : DefinitionKind) (text : Text) : Option (Item × Text) :=
  (Text.after? (openingLead kind) text).bind fun inside =>
    if startsHeader inside then
      match Tag.split? inside with
      | some (header, rest) => some (opening kind header, rest)
      | none => some (openHeader kind inside, [])
    else
      none

/-- The tag that starts here, whatever its name, and what follows it. -/
def otherTag (text : Text) : Item × Text :=
  match Tag.split? text with
  | some (body, rest) => (leaf (.tag (body ++ ['>'])), rest)
  | none => (leaf (.tag text), [])

def tagItem (text : Text) : Item × Text :=
  ((comment? text).or <|
    (closing? .macroDef text).or <|
    (closing? .functionDef text).or <|
    (opening? .macroDef text).or <|
    opening? .functionDef text).getD (otherTag text)

def textRun : Text → Text × Text
  | [] => ([], [])
  | c :: rest =>
      if Tag.startsHere (c :: rest) then
        ([], c :: rest)
      else
        let found := textRun rest
        (c :: found.1, found.2)

def next (text : Text) : Item × Text :=
  if Tag.startsHere text then
    tagItem text
  else
    let found := textRun text
    (leaf (.text found.1), found.2)

def scan (text : Text) : List Item :=
  Text.cut next text

theorem closing?_eq (kind : DefinitionKind) (text : Text) :
    closing? kind text =
      (Text.after? (closingLead kind) text).bind fun inside =>
        (Text.after? ['>'] (inside.dropWhile Text.isGap)).map fun rest =>
          (closing kind (inside.takeWhile Text.isGap), rest) := by
  unfold closing?
  congr 1
  funext inside
  rcases inside.dropWhile Text.isGap with _ | ⟨c, rest⟩
  · rfl
  · by_cases hc : c = '>'
    · subst hc
      rfl
    · simp [Text.after?, hc, Ne.symm hc]

theorem lexeme_append_of_comment? {text rest : Text} {item : Item}
    (h : comment? text = some (item, rest)) : item.lexeme ++ rest = text := by
  simp only [comment?, Option.map_eq_some_iff] at h
  obtain ⟨inside, hinside, h⟩ := h
  rw [Text.eq_append_of_after? hinside]
  split at h
  · next body tail hsplit =>
      simp only [Prod.mk.injEq] at h
      obtain ⟨rfl, rfl⟩ := h
      simp [lexeme, Leaf.lexeme, Text.eq_append_of_splitAt? hsplit]
  · simp only [Prod.mk.injEq] at h
    obtain ⟨rfl, rfl⟩ := h
    simp [lexeme]

theorem lexeme_append_of_closing? {kind : DefinitionKind} {text rest : Text}
    {item : Item} (h : closing? kind text = some (item, rest)) :
    item.lexeme ++ rest = text := by
  simp only [closing?, Option.bind_eq_some_iff] at h
  obtain ⟨inside, hinside, h⟩ := h
  rw [Text.eq_append_of_after? hinside]
  split at h
  · next tail hdrop =>
      simp only [Option.some.injEq, Prod.mk.injEq] at h
      obtain ⟨rfl, rfl⟩ := h
      have hsplit := List.takeWhile_append_dropWhile (p := Text.isGap) (l := inside)
      rw [hdrop] at hsplit
      simp [lexeme, hsplit]
  · simp at h

theorem lexeme_append_of_opening? {kind : DefinitionKind} {text rest : Text}
    {item : Item} (h : opening? kind text = some (item, rest)) :
    item.lexeme ++ rest = text := by
  simp only [opening?, Option.bind_eq_some_iff] at h
  obtain ⟨inside, hinside, h⟩ := h
  rw [Text.eq_append_of_after? hinside]
  split at h
  · split at h
    · next header tail hsplit =>
        simp only [Option.some.injEq, Prod.mk.injEq] at h
        obtain ⟨rfl, rfl⟩ := h
        simp [lexeme, Tag.eq_append_of_split? hsplit]
    · simp only [Option.some.injEq, Prod.mk.injEq] at h
      obtain ⟨rfl, rfl⟩ := h
      simp [lexeme]
  · simp at h

theorem lexeme_append_otherTag (text : Text) :
    (otherTag text).1.lexeme ++ (otherTag text).2 = text := by
  unfold otherTag
  split
  · next body rest hsplit =>
      simp [lexeme, Leaf.lexeme, Tag.eq_append_of_split? hsplit]
  · simp [lexeme, Leaf.lexeme]

theorem lexeme_append_tagItem (text : Text) :
    (tagItem text).1.lexeme ++ (tagItem text).2 = text := by
  unfold tagItem
  cases hcomment : comment? text with
  | some found => simpa using lexeme_append_of_comment? hcomment
  | none =>
  cases hmacro : closing? .macroDef text with
  | some found => simpa using lexeme_append_of_closing? hmacro
  | none =>
  cases hfunction : closing? .functionDef text with
  | some found => simpa using lexeme_append_of_closing? hfunction
  | none =>
  cases hmacro : opening? .macroDef text with
  | some found => simpa using lexeme_append_of_opening? hmacro
  | none =>
  cases hfunction : opening? .functionDef text with
  | some found => simpa using lexeme_append_of_opening? hfunction
  | none => simpa using lexeme_append_otherTag text

theorem textRun_append (text : Text) : (textRun text).1 ++ (textRun text).2 = text := by
  induction text with
  | nil => rfl
  | cons c rest ih =>
      simp only [textRun]
      split <;> simp [ih]

theorem lexeme_append_next (text : Text) :
    (next text).1.lexeme ++ (next text).2 = text := by
  unfold next
  split
  · exact lexeme_append_tagItem text
  · simpa [lexeme, Leaf.lexeme] using textRun_append text

theorem lexeme_ne_nil_of_comment? {text rest : Text} {item : Item}
    (h : comment? text = some (item, rest)) : item.lexeme ≠ [] := by
  simp only [comment?, Option.map_eq_some_iff] at h
  obtain ⟨inside, -, h⟩ := h
  split at h <;>
    · simp only [Prod.mk.injEq] at h
      obtain ⟨rfl, rfl⟩ := h
      simp [lexeme, Leaf.lexeme, Tag.commentOpen]

theorem lexeme_ne_nil_of_closing? {kind : DefinitionKind} {text rest : Text}
    {item : Item} (h : closing? kind text = some (item, rest)) : item.lexeme ≠ [] := by
  simp only [closing?, Option.bind_eq_some_iff] at h
  obtain ⟨inside, -, h⟩ := h
  split at h
  · simp only [Option.some.injEq, Prod.mk.injEq] at h
    obtain ⟨rfl, rfl⟩ := h
    simp [lexeme]
  · simp at h

theorem lexeme_ne_nil_of_opening? {kind : DefinitionKind} {text rest : Text}
    {item : Item} (h : opening? kind text = some (item, rest)) : item.lexeme ≠ [] := by
  simp only [opening?, Option.bind_eq_some_iff] at h
  obtain ⟨inside, -, h⟩ := h
  split at h
  · split at h <;>
      · simp only [Option.some.injEq, Prod.mk.injEq] at h
        obtain ⟨rfl, rfl⟩ := h
        simp [lexeme, openingLead]
  · simp at h

theorem lexeme_otherTag_ne_nil {text : Text} (h : text ≠ []) :
    (otherTag text).1.lexeme ≠ [] := by
  unfold otherTag
  split <;> simp [lexeme, Leaf.lexeme, h]

theorem lexeme_tagItem_ne_nil {text : Text} (h : text ≠ []) :
    (tagItem text).1.lexeme ≠ [] := by
  unfold tagItem
  cases hcomment : comment? text with
  | some found => simpa using lexeme_ne_nil_of_comment? hcomment
  | none =>
  cases hmacro : closing? .macroDef text with
  | some found => simpa using lexeme_ne_nil_of_closing? hmacro
  | none =>
  cases hfunction : closing? .functionDef text with
  | some found => simpa using lexeme_ne_nil_of_closing? hfunction
  | none =>
  cases hmacro : opening? .macroDef text with
  | some found => simpa using lexeme_ne_nil_of_opening? hmacro
  | none =>
  cases hfunction : opening? .functionDef text with
  | some found => simpa using lexeme_ne_nil_of_opening? hfunction
  | none => simpa using lexeme_otherTag_ne_nil h

theorem lexeme_next_ne_nil {text : Text} (h : text ≠ []) :
    (next text).1.lexeme ≠ [] := by
  unfold next
  split
  · exact lexeme_tagItem_ne_nil h
  · next hstart =>
      cases text with
      | nil => exact absurd rfl h
      | cons c rest => simp [lexeme, Leaf.lexeme, textRun, hstart]

theorem tiles_next : Text.Tiles next lexeme := fun text h =>
  ⟨lexeme_next_ne_nil h, lexeme_append_next text⟩

theorem scan_of_ne_nil {text : Text} (h : text ≠ []) :
    scan text = (next text).1 :: scan (next text).2 :=
  tiles_next.cut_of_ne_nil h

theorem flatMap_lexeme_scan (text : Text) : (scan text).flatMap lexeme = text :=
  tiles_next.flatMap_cut text

theorem lexeme_ne_nil_of_mem_scan {text : Text} {item : Item} (h : item ∈ scan text) :
    item.lexeme ≠ [] :=
  tiles_next.lexeme_ne_nil_of_mem_cut h

end Item

end TemplateDocs

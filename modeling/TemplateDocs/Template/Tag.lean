import TemplateDocs.Text.Blank

/-!
# Tags

Where a tag starts and where it ends.  A tag starts with `<#`, `</#`, `<@` or
`</@` and a letter or an underscore; a comment starts with `<#--`.  A tag ends at
the first `>` that stands outside quotes and outside brackets; inside quotes a
backslash takes the special meaning from the next character.
-/

namespace TemplateDocs

namespace Tag

def opensGroup (c : Char) : Bool :=
  c = '(' || c = '[' || c = '\x7b'

def closesGroup (c : Char) : Bool :=
  c = ')' || c = ']' || c = '\x7d'

def isQuote (c : Char) : Bool :=
  c = '"' || c = '\''

/--
Where a scan of a tag stands: outside quotes, inside a quote, or inside a quote
behind a backslash.  `depth` is the number of open brackets.
-/
inductive Scan where
  | plain (depth : Nat)
  | quoted (quote : Char) (depth : Nat)
  | escaped (quote : Char) (depth : Nat)
deriving DecidableEq, Repr

def Scan.next : Scan → Char → Scan
  | plain depth, c =>
      if isQuote c then quoted c depth
      else if opensGroup c then plain (depth + 1)
      else if closesGroup c then plain (depth - 1)
      else plain depth
  | quoted quote depth, c =>
      if c = '\\' then escaped quote depth
      else if c = quote then plain depth
      else quoted quote depth
  | escaped quote depth, _ => quoted quote depth

/--
Split a text at the `>` that ends a tag: the part before it and the part behind
it.
-/
def close? (scan : Scan) : Text → Option (Text × Text)
  | [] => none
  | c :: rest =>
      if scan = .plain 0 && c = '>' then
        some ([], rest)
      else
        (close? (scan.next c) rest).map fun found => (c :: found.1, found.2)

def split? (text : Text) : Option (Text × Text) :=
  close? (.plain 0) text

def isNameStart (c : Char) : Bool :=
  c.isAlpha || c = '_'

def isSigil (c : Char) : Bool :=
  c = '#' || c = '@'

def commentOpen : Text :=
  ['<', '#', '-', '-']

def commentClose : Text :=
  ['-', '-', '>']

def startsDirective : Text → Bool
  | '<' :: '/' :: sigil :: c :: _ => isSigil sigil && isNameStart c
  | '<' :: sigil :: c :: _ => isSigil sigil && isNameStart c
  | _ => false

def startsHere (text : Text) : Bool :=
  Text.startsWith commentOpen text || startsDirective text

/-- The name of a tag: what stands before the first blank or `>`. -/
def label (lexeme : Text) : Text :=
  (lexeme.dropWhile (· = '<')).takeWhile fun c => !Text.isBlank c && c != '>'

theorem eq_append_of_close? {scan : Scan} {text body rest : Text}
    (h : close? scan text = some (body, rest)) : text = body ++ '>' :: rest := by
  induction text generalizing scan body with
  | nil => simp [close?] at h
  | cons c text ih =>
      simp only [close?] at h
      split at h
      · next hend =>
          simp only [Option.some.injEq, Prod.mk.injEq] at h
          obtain ⟨rfl, rfl⟩ := h
          simp_all
      · simp only [Option.map_eq_some_iff, Prod.mk.injEq] at h
        obtain ⟨found, hfound, rfl, rfl⟩ := h
        simp [ih hfound]

theorem eq_append_of_split? {text body rest : Text}
    (h : split? text = some (body, rest)) : text = body ++ '>' :: rest :=
  eq_append_of_close? h

end Tag

end TemplateDocs

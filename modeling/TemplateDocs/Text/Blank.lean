import TemplateDocs.Text.Basic

/-!
# Blank characters

The characters of the Unicode property `White_Space`, and the ways of cutting
them off a text.
-/

namespace TemplateDocs

namespace Text

/-- The intervals of the property `White_Space`. -/
def blankRanges : List (Nat × Nat) :=
  [(0x9, 0xD), (0x20, 0x20), (0x85, 0x85), (0xA0, 0xA0), (0x1680, 0x1680),
    (0x2000, 0x200A), (0x2028, 0x2029), (0x202F, 0x202F), (0x205F, 0x205F),
    (0x3000, 0x3000)]

def isBlank (c : Char) : Bool :=
  inRanges blankRanges c.toNat

/-- A text of blank characters only, the empty text included. -/
def allBlank (text : Text) : Bool :=
  text.all isBlank

def trimStart (text : Text) : Text :=
  text.dropWhile isBlank

def trimEnd (text : Text) : Text :=
  (text.reverse.dropWhile isBlank).reverse

def trim (text : Text) : Text :=
  trimEnd (trimStart text)

/-- Space, tab, carriage return and line feed: the blanks that part tokens. -/
def isGap (c : Char) : Bool :=
  c = ' ' || c = '\t' || c = '\r' || c = '\n'

end Text

end TemplateDocs

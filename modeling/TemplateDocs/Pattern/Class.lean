import TemplateDocs.Pattern.Mode

/-!
# Classes of characters

The classes that a pattern can name: digits, blanks and word characters, the
general categories with one letter, and the classes of ASCII with a word.
-/

namespace TemplateDocs

namespace Pattern

def asciiClass? (name : Text) : Option CharSet :=
  let ranges : Option (List (Char × Char)) :=
    match String.ofList name with
    | "alnum" => some [('0', '9'), ('A', 'Z'), ('a', 'z')]
    | "alpha" => some [('A', 'Z'), ('a', 'z')]
    | "ascii" => some [('\x00', '\x7f')]
    | "blank" => some [('\t', '\t'), (' ', ' ')]
    | "cntrl" => some [('\x00', '\x1f'), ('\x7f', '\x7f')]
    | "digit" => some [('0', '9')]
    | "graph" => some [('!', '~')]
    | "lower" => some [('a', 'z')]
    | "print" => some [(' ', '~')]
    | "punct" => some [('!', '/'), (':', '@'), ('[', '\x60'), ('\x7b', '~')]
    | "space" => some [('\t', '\r'), (' ', ' ')]
    | "upper" => some [('A', 'Z')]
    | "word" => some [('0', '9'), ('A', 'Z'), ('_', '_'), ('a', 'z')]
    | "xdigit" => some [('0', '9'), ('A', 'F'), ('a', 'f')]
    | _ => none
  ranges.map fun ranges => .ofRanges (ranges.map fun range => (range.1.toNat, range.2.toNat))

/-- The class of a small letter behind a backslash: digits, blanks or word characters. -/
def letterClass? (mode : Mode) (letter : Char) : Option CharSet :=
  let choose (ranges : List (Nat × Nat)) (name : String) : Option CharSet :=
    if mode.unicode then some (.ofRanges ranges) else asciiClass? name.toList
  match letter with
  | 'd' => choose Text.decimalRanges "digit"
  | 's' => choose Text.blankRanges "space"
  | 'w' => choose Text.wordRanges "word"
  | _ => none

def category? (letter : Char) : Option CharSet :=
  match letter.toLower with
  | 'c' => some (CharSet.ofRanges Text.graphicRanges).complement
  | 'l' => some (.ofRanges Text.letterRanges)
  | 'm' => some (.ofRanges Text.markRanges)
  | 'n' => some (.ofRanges Text.numberRanges)
  | 'p' => some (.ofRanges Text.punctuationRanges)
  | 's' => some (.ofRanges Text.symbolRanges)
  | 'z' => some (.ofRanges Text.separatorRanges)
  | _ => none

end Pattern

end TemplateDocs

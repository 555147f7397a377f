import TemplateDocs.Text.Basic

/-!
# Lines

A line feed, a carriage return, or the two as a pair end a line.
-/

namespace TemplateDocs

namespace Text

def extendFirst (c : Char) : List Text → List Text
  | [] => [[c]]
  | line :: lines => (c :: line) :: lines

/--
The lines of a text without their breaks.  A text without a break is one line,
and a break at the very end is followed by an empty line.
-/
def lines : Text → List Text
  | [] => [[]]
  | '\r' :: '\n' :: rest => [] :: lines rest
  | c :: rest =>
      if c = '\n' || c = '\r' then [] :: lines rest else extendFirst c (lines rest)

end Text

end TemplateDocs

import TemplateDocs.Text.CaseTable

/-!
# Lowercase

The full lowercase mapping of a text.  Two characters are not mapped one to
one on their own: a capital I with a dot becomes two characters, and a capital
sigma becomes a final sigma at the end of a word.
-/

namespace TemplateDocs

namespace Text

def isCased (c : Char) : Bool :=
  inRanges casedRanges c.toNat

def isCaseIgnorable (c : Char) : Bool :=
  inRanges caseIgnorableRanges c.toNat

def lowerChar (c : Char) : Text :=
  if c.toNat = 0x130 then
    ['i', Char.ofNat 0x307]
  else
    [((caseRuns.findSome? fun run => run.lower? c.toNat).map Char.ofNat).getD c]

/-- Is the first character that is not case-ignorable a cased one? -/
def reachesCased (text : Text) : Bool :=
  ((text.dropWhile isCaseIgnorable).head?).any isCased

/--
Lowercase form of a text that stands behind `before`, whose characters are
listed backwards.  A capital sigma is final when a cased character precedes it
and none follows, with case-ignorable characters passed over on both sides.
-/
def lowercaseFrom (before : Text) : Text → Text
  | [] => []
  | c :: rest =>
      let image :=
        if c.toNat = 0x3A3 then
          [Char.ofNat (if reachesCased before && !reachesCased rest then 0x3C2 else 0x3C3)]
        else
          lowerChar c
      image ++ lowercaseFrom (c :: before) rest

def lowercase (text : Text) : Text :=
  lowercaseFrom [] text

end Text

end TemplateDocs

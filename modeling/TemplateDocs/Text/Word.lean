import TemplateDocs.Text.Category

/-!
# Word characters

Letters, marks, decimal digits, connector punctuation and the two join
controls: the characters that a tag name or a parameter name may hold.
-/

namespace TemplateDocs

namespace Text

def joinerRanges : List (Nat × Nat) :=
  [(0x200C, 0x200D)]

def wordRanges : List (Nat × Nat) :=
  letterRanges ++ markRanges ++ decimalRanges ++ letterNumberRanges ++ enclosedRanges ++
    joinerRanges ++ connectorRanges

/-- Word characters; the common ones need no search. -/
def isWord (c : Char) : Bool :=
  c.isAlphanum || c = '_' || (127 < c.toNat && inRanges wordRanges c.toNat)

end Text

end TemplateDocs

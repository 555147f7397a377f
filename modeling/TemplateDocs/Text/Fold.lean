import TemplateDocs.Text.CaseTable

/-!
# Case folding

The simple case folding of version 16 of the Unicode standard: characters that
differ in case only have one folded form.  It is the lowercase form, apart from
characters of a lowercase that have another form besides.
-/

namespace TemplateDocs

namespace Text

/-- Lowercase characters with a folded form that is not their own. -/
def foldExceptions : List (Nat × Nat) :=
  [(0xB5, 0x3BC), (0x17F, 0x73), (0x345, 0x3B9), (0x3C2, 0x3C3), (0x3D0, 0x3B2),
    (0x3D1, 0x3B8), (0x3D5, 0x3C6), (0x3D6, 0x3C0), (0x3F0, 0x3BA), (0x3F1, 0x3C1),
    (0x3F5, 0x3B5), (0x1C80, 0x432), (0x1C81, 0x434), (0x1C82, 0x43E), (0x1C83, 0x441),
    (0x1C84, 0x442), (0x1C85, 0x442), (0x1C86, 0x44A), (0x1C87, 0x463), (0x1C88, 0xA64B),
    (0x1E9B, 0x1E61), (0x1FBE, 0x3B9), (0x1FD3, 0x390), (0x1FE3, 0x3B0), (0xFB06, 0xFB05)]

def lateCapitalRanges : List (Nat × Nat) :=
  [(0xA7CE, 0xA7CE), (0xA7D2, 0xA7D2), (0xA7D4, 0xA7D4), (0x16EA0, 0x16EB8)]

def CaseRun.pairs (run : CaseRun) : List (Nat × Nat) :=
  (List.range ((run.last - run.first) / run.stride + 1)).map fun n =>
    (run.first + n * run.stride, run.image + n * run.stride)

/-- The characters that have a folded form other than themselves, each with that form. -/
def foldPairs : List (Nat × Nat) :=
  (caseRuns.flatMap CaseRun.pairs).filter (fun pair => !inRanges lateCapitalRanges pair.1) ++
    foldExceptions

def asciiPairs : List (Nat × Nat) :=
  CaseRun.pairs ⟨0x41, 0x5A, 1, 0x61⟩

end Text

end TemplateDocs

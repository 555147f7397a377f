import TemplateDocs.Text.Fold

/-!
# Sets of characters

A set of characters is a list of closed intervals of code points, which stand in
ascending order and do not touch, so that equal sets have equal lists.
-/

namespace TemplateDocs

structure CharSet where
  /-- Ascending intervals, with a gap between each two of them. -/
  ranges : List (Nat × Nat)
deriving DecidableEq, Repr

namespace CharSet

def has (set : CharSet) (c : Char) : Bool :=
  Text.inRanges set.ranges c.toNat

/-- Put an interval in front of intervals that start no earlier. -/
def extend (range : Nat × Nat) : List (Nat × Nat) → List (Nat × Nat)
  | [] => [range]
  | next :: rest =>
      if next.1 ≤ range.2 + 1 then
        extend (range.1, max range.2 next.2) rest
      else
        range :: next :: rest

def ofRanges (ranges : List (Nat × Nat)) : CharSet :=
  ⟨(ranges.mergeSort fun first second => first.1 ≤ second.1).foldr extend []⟩

def empty : CharSet :=
  ⟨[]⟩

def range (first last : Char) : CharSet :=
  ⟨[(first.toNat, last.toNat)]⟩

def single (c : Char) : CharSet :=
  range c c

def union (first second : CharSet) : CharSet :=
  ofRanges (first.ranges ++ second.ranges)

def lastCode : Nat :=
  0x10FFFF

def gaps (start : Nat) : List (Nat × Nat) → List (Nat × Nat)
  | [] => if start ≤ lastCode then [(start, lastCode)] else []
  | range :: rest =>
      if start < range.1 then
        (start, range.1 - 1) :: gaps (range.2 + 1) rest
      else
        gaps (range.2 + 1) rest

def complement (set : CharSet) : CharSet :=
  ⟨gaps 0 set.ranges⟩

def inter (first second : CharSet) : CharSet :=
  (first.complement.union second.complement).complement

def diff (first second : CharSet) : CharSet :=
  first.inter second.complement

def symmDiff (first second : CharSet) : CharSet :=
  (first.diff second).union (second.diff first)

/--
The set with all that shares a folded form with one of its characters; `pairs` are
the characters with a folded form other than themselves, each with that form.
-/
def folded (pairs : List (Nat × Nat)) (set : CharSet) : CharSet :=
  let forms := (pairs.filter fun pair =>
    Text.inRanges set.ranges pair.1 || Text.inRanges set.ranges pair.2).map Prod.snd
  let variants := (pairs.filter fun pair => forms.contains pair.2).flatMap fun pair =>
    [(pair.1, pair.1), (pair.2, pair.2)]
  ofRanges (set.ranges ++ variants)

def only? (set : CharSet) : Option Char :=
  match set.ranges with
  | [(first, last)] => if first = last then some (Char.ofNat first) else none
  | _ => none

end CharSet

end TemplateDocs

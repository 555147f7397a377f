import TemplateDocs.Comment.Basic
import TemplateDocs.Diagnostic
import TemplateDocs.Tree.Basic

/-!
# Regions

A category is a region of a file between a comment with the tag `@begin`, which
names the category, and a comment with the tag `@end`.  At most one region is
open at a time: a new `@begin` ends the open region where it stands.  An `@end`
with nothing to end is passed over, and a region that is never ended runs to the
end of the file.
-/

namespace TemplateDocs

inductive RegionEnd where
  | position (stop : Position)
  | endOfFile
deriving DecidableEq, Repr

def RegionEnd.isAfter (stop : RegionEnd) (position : Position) : Bool :=
  match stop with
  | .position stop => position < stop
  | .endOfFile => true

structure Region where
  name : Text
  start : Position
  stop : RegionEnd
deriving DecidableEq, Repr

namespace Region

/-- Inside a region, its two ends excluded. -/
def contains (region : Region) (position : Position) : Bool :=
  region.start < position && region.stop.isAfter position

def find? (regions : List Region) (position : Position) : Option Region :=
  List.find? (fun region => region.contains position) regions

end Region

structure RegionMark where
  beginName : Option Text
  ends : Bool
  start : Position
  stop : Position
deriving DecidableEq, Repr

namespace RegionMark

def beginTag : Text :=
  ['@', 'b', 'e', 'g', 'i', 'n']

def endTag : Text :=
  ['@', 'e', 'n', 'd']

/-- What a comment node says about regions, if it is one and says anything. -/
def ofNode? (marker : Char) (node : Node) : Option RegionMark :=
  node.content.comment?.bind fun body =>
    let comment := DocComment.parseMarked marker body
    let beginName := (comment.tag? beginTag).map Text.trim
    let ends := (comment.tag? endTag).isSome
    if beginName.isSome || ends then
      some ⟨beginName, ends, node.start, node.stop⟩
    else
      none

def ofTree (marker : Char) (tree : Tree) : List RegionMark :=
  tree.preorder.filterMap fun id => (tree.node? id).bind (ofNode? marker)

end RegionMark

structure OpenRegion where
  name : Text
  start : Position
deriving DecidableEq, Repr

def OpenRegion.close (region : OpenRegion) (stop : RegionEnd) : Region :=
  ⟨region.name, region.start, stop⟩

/-- The regions of a file, in the order in which they end, and what is wrong with them. -/
structure Regions where
  regions : List Region
  diagnostics : List Diagnostic
deriving DecidableEq, Repr

namespace Regions

def append (first second : Regions) : Regions :=
  ⟨first.regions ++ second.regions, first.diagnostics ++ second.diagnostics⟩

/-- A mark that begins a region ends the open one. -/
def atBegin (current : Option OpenRegion) (name : Text) (mark : RegionMark) : Regions :=
  match current with
  | some region =>
      ⟨[region.close (.position mark.start)], [⟨.nestedBegin region.name name, mark.start⟩]⟩
  | none => ⟨[], []⟩

def atEnd (current : Option OpenRegion) (mark : RegionMark) : Regions :=
  match current with
  | some region => ⟨[region.close (.position mark.stop)], []⟩
  | none => ⟨[], [⟨.endWithoutBegin, mark.start⟩]⟩

def atEndOfFile (current : Option OpenRegion) : Regions :=
  match current with
  | some region => ⟨[region.close .endOfFile], [⟨.missingEnd region.name, region.start⟩]⟩
  | none => ⟨[], []⟩

def openAfterBegin (current : Option OpenRegion) (mark : RegionMark) : Option OpenRegion :=
  match mark.beginName with
  | some name => some ⟨name, mark.start⟩
  | none => current

/-- What one mark settles: first its `@begin`, then its `@end`. -/
def atMark (current : Option OpenRegion) (mark : RegionMark) : Regions :=
  let begun :=
    match mark.beginName with
    | some name => atBegin current name mark
    | none => ⟨[], []⟩
  if mark.ends then begun.append (atEnd (openAfterBegin current mark) mark) else begun

def openAfter (current : Option OpenRegion) (mark : RegionMark) : Option OpenRegion :=
  if mark.ends then none else openAfterBegin current mark

/-- The regions that marks make up, when `current` is open before them. -/
def ofMarks (current : Option OpenRegion) : List RegionMark → Regions
  | [] => atEndOfFile current
  | mark :: rest => (atMark current mark).append (ofMarks (openAfter current mark) rest)

def ofTree (marker : Char) (tree : Tree) : Regions :=
  ofMarks none (RegionMark.ofTree marker tree)

def categories (regions : Regions) : List Text :=
  (regions.regions.foldl (fun names region => names.insert region.name ())
    (Keyed.empty : Keyed Unit)).keys

end Regions

end TemplateDocs

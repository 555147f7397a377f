import TemplateDocs.Text.Basic

/-!
# Similar texts

How similar two texts are, from 0 to 1: characters count as common if they stand at
places that are not too far apart, and common characters in a different order count
less.
-/

namespace TemplateDocs

namespace Text

def freePlace? (c : Char) (taken : List Nat) (first last : Nat) (text : Text) : Option Nat :=
  (text.zipIdx.find? fun entry =>
    first ≤ entry.2 && entry.2 < last && entry.1 = c && !taken.contains entry.2).map Prod.snd

/--
The common characters of two texts as pairs of places, where the characters of the
first text are tried one after the other and take the first free place.
-/
def commonPlaces (reach : Nat) (first second : Text) : List (Nat × Nat) :=
  first.zipIdx.foldl
    (fun pairs entry =>
      let place? := freePlace? entry.1 (pairs.map Prod.snd) (entry.2 - reach)
        (entry.2 + reach + 1) second
      match place? with
      | some place => pairs ++ [(entry.2, place)]
      | none => pairs)
    []

def atPlaces (places : List Nat) (text : Text) : Text :=
  (text.zipIdx.filter fun entry => places.contains entry.2).map Prod.fst

def similarity (first second : Text) : Float :=
  let pairs := commonPlaces (max first.length second.length / 2 - 1) first second
  let moved := ((atPlaces (pairs.map Prod.fst) first).zip
    (atPlaces (pairs.map Prod.snd) second)).countP fun pair => pair.1 != pair.2
  if pairs.isEmpty then
    0
  else
    let common := pairs.length.toFloat
    (common / first.length.toFloat + common / second.length.toFloat +
      (pairs.length - moved / 2).toFloat / common) / 3

end Text

end TemplateDocs

import TemplateDocs.Pattern.Basic
import TemplateDocs.Pattern.Class

/-!
# Escapes

What a backslash and the signs behind it stand for: a character, a class of
characters, or a place.
-/

namespace TemplateDocs

namespace Pattern

/-- What a sign of a pattern stands for. -/
inductive Sign where
  | character (c : Char)
  | oneOf (set : CharSet)
  | place (place : Place)
deriving DecidableEq, Repr

def hexValue? (c : Char) : Option Nat :=
  if c.isDigit then some (c.toNat - '0'.toNat)
  else if 'a' ≤ c && c ≤ 'f' then some (c.toNat - 'a'.toNat + 10)
  else if 'A' ≤ c && c ≤ 'F' then some (c.toNat - 'A'.toNat + 10)
  else none

/-- A number of so many hexadecimal digits, which continue `value`. -/
def readHex (mode : Mode) (value : Nat) : Nat → Text → Option (Nat × Text)
  | 0, text => some (value, text)
  | _ + 1, [] => none
  | count + 1, c :: rest =>
      (hexValue? c).bind fun digit => readHex mode (16 * value + digit) count (mode.skip rest)

/-- The character with a code point of so many hexadecimal digits, if it is at most `limit`. -/
def readCode (mode : Mode) (limit count : Nat) (text : Text) : Option (Sign × Text) :=
  (readHex mode 0 count (mode.skip text)).bind fun found =>
    if found.1.isValidChar && found.1 ≤ limit then
      some (.character (Char.ofNat found.1), found.2)
    else
      none

def readCategory (mode : Mode) (negated : Bool) (text : Text) : Option (Sign × Text) :=
  match mode.skip text with
  | [] => none
  | letter :: rest =>
      if mode.unicode then
        ((category? letter).bind fun set => mode.negated? negated (mode.cased set)).map fun set =>
          (.oneOf set, rest)
      else
        none

def control? : Char → Option Char
  | 'a' => some '\x07'
  | 'f' => some '\x0c'
  | 'n' => some '\n'
  | 'r' => some '\r'
  | 't' => some '\t'
  | 'v' => some '\x0b'
  | _ => none

/-- The place of a sign; the edges of words are known in ASCII only. -/
def place? (mode : Mode) (c : Char) : Option Place :=
  match c with
  | 'A' => some .textStart
  | 'z' => some .textEnd
  | 'b' => if mode.unicode then none else some .wordEdge
  | 'B' => if mode.unicode then none else some .notWordEdge
  | '<' => if mode.unicode then none else some .wordStart
  | '>' => if mode.unicode then none else some .wordEnd
  | _ => none

def isPlainBehindBackslash (c : Char) : Bool :=
  c.toNat < 0x80 && !c.isAlphanum && c != '<' && c != '>'

def readEscape (mode : Mode) : Text → Option (Sign × Text)
  | [] => none
  | c :: rest =>
      if isPlainBehindBackslash c then
        some (.character c, rest)
      else
        match c with
        | 'x' => readCode mode (if mode.unicode then 0xFF else 0x7F) 2 rest
        | 'u' => readCode mode CharSet.lastCode 4 rest
        | 'U' => readCode mode CharSet.lastCode 8 rest
        | 'p' => readCategory mode false rest
        | 'P' => readCategory mode true rest
        | c =>
            let set := (letterClass? mode c.toLower).bind (mode.negated? c.isUpper)
            ((set.map Sign.oneOf).or
              (((control? c).map Sign.character).or ((place? mode c).map Sign.place))).map
                fun sign => (sign, rest)

end Pattern

end TemplateDocs

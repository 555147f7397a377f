import TemplateDocs.Text.Basic

/-!
# Values of settings

A setting has a truth value, a whole number or a text for its value.  Numbers may
be written in four bases and with underscores between digits.  Texts stand
between double quotes, where a backslash introduces an escape, or between single
quotes, where every character stands for itself; between three quotes of either
kind a text may run over several lines.
-/

namespace TemplateDocs

inductive SettingsValue where
  | truth (value : Bool)
  | number (value : Int)
  | text (value : Text)
deriving DecidableEq, Repr

namespace SettingsValue

/-- A reader takes a value off the start of a text. -/
abbrev Reader (α : Type) := Text → Option (α × Text)

/-- Control characters other than tab stand in no text and in no comment. -/
def isControl (c : Char) : Bool :=
  (c.toNat < 0x20 && c != '\t') || c.toNat = 0x7F

/-! ## Numbers -/

def isHexDigit (c : Char) : Bool :=
  c.isDigit || ('a' ≤ c && c ≤ 'f') || ('A' ≤ c && c ≤ 'F')

def digitValue (c : Char) : Nat :=
  if c.isDigit then c.toNat - '0'.toNat
  else if 'a' ≤ c then c.toNat - 'a'.toNat + 10
  else c.toNat - 'A'.toNat + 10

def ofDigits (base : Nat) (digits : Text) : Nat :=
  digits.foldl (fun value c => value * base + digitValue c) 0

/-- The digits at the start of a text, with single underscores between them dropped. -/
def digitRun (isDigit : Char → Bool) : Text → Text × Text
  | [] => ([], [])
  | '_' :: c :: rest =>
      if isDigit c then
        let found := digitRun isDigit rest
        (c :: found.1, found.2)
      else
        ([], '_' :: c :: rest)
  | c :: rest =>
      if isDigit c then
        let found := digitRun isDigit rest
        (c :: found.1, found.2)
      else
        ([], c :: rest)

def readDigits (base : Nat) (isDigit : Char → Bool) : Reader Nat
  | [] => none
  | c :: rest =>
      if isDigit c then
        let found := digitRun isDigit (c :: rest)
        some (ofDigits base found.1, found.2)
      else
        none

/-- A decimal number without a sign; a zero stands alone. -/
def readDecimal : Reader Nat
  | '0' :: rest => some (0, rest)
  | rest => readDigits 10 Char.isDigit rest

/-- A whole number: signed decimal, or with a base in front of it. -/
def readNumber : Reader Int
  | '0' :: 'x' :: rest => (readDigits 16 isHexDigit rest).map fun found => (found.1, found.2)
  | '0' :: 'o' :: rest =>
      (readDigits 8 (fun c => '0' ≤ c && c ≤ '7') rest).map fun found => (found.1, found.2)
  | '0' :: 'b' :: rest =>
      (readDigits 2 (fun c => c = '0' || c = '1') rest).map fun found => (found.1, found.2)
  | '+' :: rest => (readDecimal rest).map fun found => (found.1, found.2)
  | '-' :: rest => (readDecimal rest).map fun found => (-found.1, found.2)
  | rest => (readDecimal rest).map fun found => (found.1, found.2)

/-! ## Texts -/

def readScalar (count : Nat) : Reader Char := fun text =>
  let digits := text.take count
  let code := ofDigits 16 digits
  if digits.length = count && digits.all isHexDigit && code.isValidChar then
    some (Char.ofNat code, text.drop count)
  else
    none

def readEscape : Reader Char
  | 'b' :: rest => some ('\x08', rest)
  | 't' :: rest => some ('\t', rest)
  | 'n' :: rest => some ('\n', rest)
  | 'f' :: rest => some ('\x0c', rest)
  | 'r' :: rest => some ('\r', rest)
  | 'e' :: rest => some ('\x1b', rest)
  | '"' :: rest => some ('"', rest)
  | '\\' :: rest => some ('\\', rest)
  | 'x' :: rest => readScalar 2 rest
  | 'u' :: rest => readScalar 4 rest
  | 'U' :: rest => readScalar 8 rest
  | _ => none

def prepend (c : Char) (found : Text × Text) : Text × Text :=
  (c :: found.1, found.2)

def readBasic : Nat → Reader Text
  | 0, _ => none
  | _ + 1, [] => none
  | fuel + 1, c :: rest =>
      if c = '"' then
        some ([], rest)
      else if c = '\\' then
        (readEscape rest).bind fun escape =>
          (readBasic fuel escape.2).map (prepend escape.1)
      else if isControl c then
        none
      else
        (readBasic fuel rest).map (prepend c)

def readLiteral : Reader Text
  | [] => none
  | c :: rest =>
      if c = '\'' then
        some ([], rest)
      else if isControl c then
        none
      else
        (readLiteral rest).map (prepend c)

def skipLines : Text → Text
  | [] => []
  | '\r' :: '\n' :: rest => skipLines rest
  | c :: rest => if c = ' ' || c = '\t' || c = '\n' then skipLines rest else c :: rest

def skipBlanks (text : Text) : Text :=
  text.dropWhile fun c => c = ' ' || c = '\t'

def afterBreak? : Text → Option Text
  | '\n' :: rest => some rest
  | '\r' :: '\n' :: rest => some rest
  | _ => none

/-- Behind a backslash at the end of a line, the next character that is no blank. -/
def afterContinuation? (text : Text) : Option Text :=
  (afterBreak? (skipBlanks text)).map skipLines

/--
A text on several lines, read behind its three opening quotes.  Up to two quotes
may stand right before the three closing ones.  Line breaks are kept as they are
written.
-/
def readLong (quote : Char) (escapes : Bool) : Nat → Reader Text
  | 0, _ => none
  | _ + 1, [] => none
  | fuel + 1, c :: rest =>
      if c = quote then
        let run := ((c :: rest).takeWhile (· = quote)).length
        if run < 3 then
          (readLong quote escapes fuel rest).map (prepend c)
        else
          let count := min run 5
          some (List.replicate (count - 3) quote, (c :: rest).drop count)
      else if c = '\\' && escapes then
        match afterContinuation? rest with
        | some rest => readLong quote escapes fuel rest
        | none =>
            (readEscape rest).bind fun escape =>
              (readLong quote escapes fuel escape.2).map (prepend escape.1)
      else if isControl c && (afterBreak? (c :: rest)).isNone then
        none
      else
        (readLong quote escapes fuel rest).map (prepend c)

/-- A line break right behind three opening quotes is dropped. -/
def dropFirstBreak (text : Text) : Text :=
  (afterBreak? text).getD text

def readText (text : Text) : Option (Text × Text) :=
  match text with
  | '"' :: '"' :: '"' :: rest => readLong '"' true text.length (dropFirstBreak rest)
  | '\'' :: '\'' :: '\'' :: rest => readLong '\'' false text.length (dropFirstBreak rest)
  | '"' :: rest => readBasic text.length rest
  | '\'' :: rest => readLiteral rest
  | _ => none

def readTruth (text : Text) : Option (Bool × Text) :=
  match Text.after? ['t', 'r', 'u', 'e'] text with
  | some rest => some (true, rest)
  | none =>
      (Text.after? ['f', 'a', 'l', 's', 'e'] text).map fun rest => (false, rest)

def read (text : Text) : Option (SettingsValue × Text) :=
  ((readText text).map fun found => (SettingsValue.text found.1, found.2)).or <|
    ((readTruth text).map fun found => (SettingsValue.truth found.1, found.2)).or <|
    (readNumber text).map fun found => (SettingsValue.number found.1, found.2)

end SettingsValue

end TemplateDocs

import Mathlib.Data.List.Basic
import TemplateDocs.Json.Basic

/-!
# The tokens of JSON

JSON is written in tokens, with blanks between them as one likes.  `Spelling` says
which texts a list of tokens has: a string can be written with escapes or without, a
number only in one way.  A scanner that goes through a text character by character finds
the tokens of each of their texts (`scan_of_spelling`).
-/

namespace TemplateDocs

namespace Json

inductive Token where
  | openArray
  | closeArray
  | openObject
  | closeObject
  | colon
  | comma
  | null
  | bool (value : Bool)
  | number (value : Nat)
  | string (value : Text)
deriving DecidableEq, Repr

def isBlank (c : Char) : Bool :=
  c = ' ' || c = '\t' || c = '\n' || c = '\r'

/-- The character that a backslash and this character stand for. -/
def unescape? (c : Char) : Option Char :=
  if c = '"' then some '"'
  else if c = '\\' then some '\\'
  else if c = '/' then some '/'
  else if c = 'b' then some '\x08'
  else if c = 'f' then some '\x0c'
  else if c = 'n' then some '\n'
  else if c = 'r' then some '\r'
  else if c = 't' then some '\t'
  else none

def hexValue? (c : Char) : Option Nat :=
  if c.isDigit then some (c.toNat - '0'.toNat)
  else if 'a' ≤ c ∧ c ≤ 'f' then some (c.toNat - 'a'.toNat + 10)
  else if 'A' ≤ c ∧ c ≤ 'F' then some (c.toNat - 'A'.toNat + 10)
  else none

/-! ## Spellings -/

/-- The ways to write a character between quotes. -/
inductive SpellsChar (c : Char) : Text → Prop where
  | plain (hquote : c ≠ '"') (hslash : c ≠ '\\') (hcontrol : 0x20 ≤ c.toNat) : SpellsChar c [c]
  | escape {mark : Char} (h : unescape? mark = some c) : SpellsChar c ['\\', mark]
  | code {digits : Text} {a b d e : Nat}
      (h : digits.map hexValue? = [some a, some b, some d, some e])
      (hcode : c.toNat = 16 * (16 * (16 * a + b) + d) + e) :
      SpellsChar c ('\\' :: 'u' :: digits)

inductive SpellsBody : Text → Text → Prop where
  | nil : SpellsBody [] []
  | cons {c : Char} {text spelling rest : Text} (h : SpellsChar c spelling)
      (hrest : SpellsBody text rest) : SpellsBody (c :: text) (spelling ++ rest)

/-- The ways to write a token. -/
inductive Token.Spells : Token → Text → Prop where
  | openArray : Spells .openArray ['[']
  | closeArray : Spells .closeArray [']']
  | openObject : Spells .openObject ['\x7b']
  | closeObject : Spells .closeObject ['\x7d']
  | colon : Spells .colon [':']
  | comma : Spells .comma [',']
  | null : Spells .null ['n', 'u', 'l', 'l']
  | true : Spells (.bool true) ['t', 'r', 'u', 'e']
  | false : Spells (.bool false) ['f', 'a', 'l', 's', 'e']
  | number (value : Nat) : Spells (.number value) (Text.ofNat value)
  | string {value body : Text} (h : SpellsBody value body) :
      Spells (.string value) ('"' :: (body ++ ['"']))

/-- The text does not begin with a digit, so a number can stand right before it. -/
def NoDigit (text : Text) : Prop :=
  ∀ c ∈ text.head?, c.isDigit = false

/-- The texts of a list of tokens, with blanks between them, before them and behind them. -/
inductive Spelling : List Token → Text → Prop where
  | nil : Spelling [] []
  | blank {tokens : List Token} {c : Char} {text : Text} (hblank : isBlank c = true)
      (h : Spelling tokens text) : Spelling tokens (c :: text)
  | token {token : Token} {tokens : List Token} {spelling text : Text}
      (htoken : token.Spells spelling) (hend : ∀ value, token = .number value → NoDigit text)
      (h : Spelling tokens text) : Spelling (token :: tokens) (spelling ++ text)

/-! ## The scanner -/

/-- What the character belongs to that is read next. -/
inductive Mode where
  | between
  | word (token : Token) (rest : Text)
  | number (value : Nat)
  | string (before : Text)
  | escape (before : Text)
  /-- Among the digits of a code, some of which are still to come. -/
  | code (before : Text) (missing value : Nat)
deriving DecidableEq, Repr

/-- Read a character behind which a token may begin or end. -/
def enter (c : Char) : Option (List Token × Mode) :=
  if isBlank c then some ([], .between)
  else if c = '[' then some ([.openArray], .between)
  else if c = ']' then some ([.closeArray], .between)
  else if c = '\x7b' then some ([.openObject], .between)
  else if c = '\x7d' then some ([.closeObject], .between)
  else if c = ':' then some ([.colon], .between)
  else if c = ',' then some ([.comma], .between)
  else if c = 'n' then some ([], .word .null ['u', 'l', 'l'])
  else if c = 't' then some ([], .word (.bool true) ['r', 'u', 'e'])
  else if c = 'f' then some ([], .word (.bool false) ['a', 'l', 's', 'e'])
  else if c = '"' then some ([], .string [])
  else if c.isDigit then some ([], .number (c.toNat - '0'.toNat))
  else none

/-- Read a character: the tokens that end there, and what comes next. -/
def Mode.read : Mode → Char → Option (List Token × Mode)
  | between, c => enter c
  | word token rest, c =>
      if rest = [c] then some ([token], between)
      else if rest.head? = some c then some ([], word token rest.tail)
      else none
  | number value, c =>
      if c.isDigit then
        some ([], number (10 * value + (c.toNat - '0'.toNat)))
      else
        -- The number ends before the character, which has its own meaning.
        (enter c).map fun entered => (.number value :: entered.1, entered.2)
  | string before, c =>
      if c = '"' then some ([.string before], between)
      else if c = '\\' then some ([], escape before)
      else if 0x20 ≤ c.toNat then some ([], string (before ++ [c]))
      else none
  | escape before, c =>
      if c = 'u' then some ([], code before 4 0)
      else (unescape? c).map fun d => ([], string (before ++ [d]))
  | code before missing value, c =>
      (hexValue? c).map fun digit =>
        if missing = 1 then ([], string (before ++ [Char.ofNat (16 * value + digit)]))
        else ([], code before (missing - 1) (16 * value + digit))

def Mode.finish : Mode → Option (List Token)
  | between => some []
  | number value => some [.number value]
  | _ => none

def scan (mode : Mode) : Text → Option (List Token)
  | [] => mode.finish
  | c :: rest =>
      (mode.read c).bind fun found => (scan found.2 rest).map (found.1 ++ ·)

theorem scan_cons_of_read {mode next : Mode} {c : Char} {rest : Text}
    (h : mode.read c = some ([], next)) : scan mode (c :: rest) = scan next rest := by
  simp [scan, h]

/-! ## Numbers -/

theorem enter_of_isDigit {c : Char} (h : c.isDigit = true) :
    enter c = some ([], .number (c.toNat - '0'.toNat)) := by
  have hne : ∀ d : Char, d.isDigit = false → c ≠ d := by
    rintro d hd rfl
    simp [hd] at h
  have hblank : isBlank c = false := by
    simp [isBlank, hne ' ', hne '\t', hne '\n', hne '\r']
  simp [enter, hblank, h, hne '[', hne ']', hne '\x7b', hne '\x7d', hne ':', hne ',', hne 'n',
    hne 't', hne 'f', hne '"']

theorem scan_number_digits (value : Nat) (digits rest : Text)
    (h : ∀ c ∈ digits, c.isDigit = true) :
    scan (.number value) (digits ++ rest) =
      scan (.number (Nat.ofDigitChars 10 digits value)) rest := by
  induction digits generalizing value with
  | nil => simp
  | cons c digits ih =>
      have hread : (Mode.number value).read c =
          some ([], .number (10 * value + (c.toNat - '0'.toNat))) := by
        simp [Mode.read, h c]
      rw [List.cons_append, scan_cons_of_read hread, ih _ fun d hd => h d (by simp [hd])]
      simp [Nat.ofDigitChars_cons]

theorem scan_number_of_noDigit {value : Nat} {rest : Text} (h : NoDigit rest) :
    scan (.number value) rest = (scan .between rest).map (.number value :: ·) := by
  cases rest with
  | nil => rfl
  | cons c rest =>
      have hdigit : c.isDigit = false := h c (by simp)
      simp only [scan, Mode.read, hdigit, Bool.false_eq_true, if_false]
      cases enter c with
      | none => rfl
      | some entered => simp [Function.comp_def]

theorem scan_ofNat {value : Nat} {rest : Text} (h : NoDigit rest) :
    scan .between (Text.ofNat value ++ rest) =
      (scan .between rest).map (.number value :: ·) := by
  have hdigits : ∀ c ∈ Text.ofNat value, c.isDigit = true := fun c hc =>
    Nat.isDigit_of_mem_toDigits (by omega) (by omega) hc
  have hvalue : Nat.ofDigitChars 10 (Text.ofNat value) 0 = value :=
    Nat.ofDigitChars_ten_toDigits
  cases hspelling : Text.ofNat value with
  | nil => exact absurd hspelling Nat.toDigits_ne_nil
  | cons c digits =>
      rw [hspelling] at hdigits hvalue
      rw [Nat.ofDigitChars_cons, Nat.mul_zero, Nat.zero_add] at hvalue
      have hread : Mode.between.read c = some ([], .number (c.toNat - '0'.toNat)) :=
        enter_of_isDigit (hdigits c (by simp))
      rw [List.cons_append, scan_cons_of_read hread,
        scan_number_digits _ _ _ fun d hd => hdigits d (by simp [hd]), hvalue,
        scan_number_of_noDigit h]

/-! ## Strings -/

theorem scan_code {before digits rest : Text} {a b d e : Nat} {c : Char}
    (h : digits.map hexValue? = [some a, some b, some d, some e])
    (hcode : c.toNat = 16 * (16 * (16 * a + b) + d) + e) :
    scan (.code before 4 0) (digits ++ rest) = scan (.string (before ++ [c])) rest := by
  obtain ⟨w, x, y, z, rfl⟩ : ∃ w x y z, digits = [w, x, y, z] := by
    have hlength : digits.length = 4 := by simpa using congrArg List.length h
    exact List.length_eq_four.1 hlength
  simp only [List.map_cons, List.map_nil, List.cons.injEq, and_true] at h
  obtain ⟨hw, hx, hy, hz⟩ := h
  have hchar : Char.ofNat (16 * (16 * (16 * a + b) + d) + e) = c := by
    rw [← hcode, Char.ofNat_toNat]
  simp [scan, Mode.read, hw, hx, hy, hz, hchar, Function.comp_def]

theorem scan_char {before spelling rest : Text} {c : Char} (h : SpellsChar c spelling) :
    scan (.string before) (spelling ++ rest) = scan (.string (before ++ [c])) rest := by
  cases h with
  | plain hquote hslash hcontrol =>
      simp [scan, Mode.read, hquote, hslash, hcontrol]
  | @escape mark hmark =>
      have hne : mark ≠ 'u' := by
        rintro rfl
        simp [unescape?] at hmark
      simp [scan, Mode.read, hne, hmark, Function.comp_def]
  | @code digits a b d e hdigits hcode =>
      have hread : (Mode.string before).read '\\' = some ([], .escape before) := rfl
      have hread' : (Mode.escape before).read 'u' = some ([], .code before 4 0) := rfl
      rw [List.cons_append, List.cons_append, scan_cons_of_read hread,
        scan_cons_of_read hread', scan_code hdigits hcode]

theorem scan_body {before value body rest : Text} (h : SpellsBody value body) :
    scan (.string before) (body ++ '"' :: rest) =
      (scan .between rest).map (.string (before ++ value) :: ·) := by
  induction h generalizing before with
  | nil => simp [scan, Mode.read]
  | cons hchar _ ih =>
      rw [List.append_assoc, scan_char hchar, ih]
      simp

/-! ## Tokens -/

theorem scan_token {token : Token} {spelling rest : Text} (h : token.Spells spelling)
    (hend : ∀ value, token = .number value → NoDigit rest) :
    scan .between (spelling ++ rest) = (scan .between rest).map (token :: ·) := by
  cases h with
  | number value => exact scan_ofNat (hend value rfl)
  | string hbody =>
      have hread : Mode.between.read '"' = some ([], .string []) := rfl
      rw [List.cons_append, List.append_assoc, scan_cons_of_read hread, List.singleton_append,
        scan_body hbody, List.nil_append]
  | _ => simp [scan, Mode.read, enter, isBlank, Function.comp_def]

/-- Every text of a list of tokens is scanned as these tokens. -/
theorem scan_of_spelling {tokens : List Token} {text : Text} (h : Spelling tokens text) :
    scan .between text = some tokens := by
  induction h with
  | nil => rfl
  | blank hblank _ ih => simp [scan, Mode.read, enter, hblank, ih]
  | token htoken hend _ ih => rw [scan_token htoken hend, ih, Option.map_some]

end Json

end TemplateDocs

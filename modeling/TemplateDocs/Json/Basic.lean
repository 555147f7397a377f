import TemplateDocs.Text.Basic

/-!
# JSON

The values of JSON that documentation needs, and their text: two blanks of
indentation for each level, one item or field on a line, and brackets without a
break when there is nothing between them.
-/

namespace TemplateDocs

/-- A JSON value whose numbers are natural. -/
inductive Json where
  | null
  | bool (value : Bool)
  | number (value : Nat)
  | string (value : Text)
  | array (items : List Json)
  /-- Fields in the order in which they are written. -/
  | object (fields : List (Text × Json))

namespace Json

/-- How a character is written between quotes: quotes, backslashes and controls are escaped. -/
def escapeChar (c : Char) : Text :=
  if c = '"' then ['\\', '"']
  else if c = '\\' then ['\\', '\\']
  else if c = '\x08' then ['\\', 'b']
  else if c = '\t' then ['\\', 't']
  else if c = '\n' then ['\\', 'n']
  else if c = '\x0c' then ['\\', 'f']
  else if c = '\r' then ['\\', 'r']
  else if c.toNat < 0x20 then
    ['\\', 'u', '0', '0'] ++ Text.ofByte c.toNat
  else [c]

def quote (text : Text) : Text :=
  '"' :: (text.flatMap escapeChar ++ ['"'])

/-- A line break and the indentation of a level. -/
def newline (level : Nat) : Text :=
  '\n' :: List.replicate (2 * level) ' '

mutual

def render (level : Nat) : Json → Text
  | null => ['n', 'u', 'l', 'l']
  | bool true => ['t', 'r', 'u', 'e']
  | bool false => ['f', 'a', 'l', 's', 'e']
  | number value => Text.ofNat value
  | string value => quote value
  | array [] => ['[', ']']
  | array (item :: items) =>
      '[' :: (newline (level + 1) ++ render (level + 1) item ++
        renderItems (level + 1) items ++ newline level ++ [']'])
  | object [] => ['\x7b', '\x7d']
  | object ((key, value) :: fields) =>
      '\x7b' :: (newline (level + 1) ++ quote key ++ [':', ' '] ++ render (level + 1) value ++
        renderFields (level + 1) fields ++ newline level ++ ['\x7d'])

def renderItems (level : Nat) : List Json → Text
  | [] => []
  | item :: items => ',' :: (newline level ++ render level item ++ renderItems level items)

def renderFields (level : Nat) : List (Text × Json) → Text
  | [] => []
  | (key, value) :: fields =>
      ',' :: (newline level ++ quote key ++ [':', ' '] ++ render level value ++
        renderFields level fields)

end

def pretty (value : Json) : Text :=
  value.render 0

def ofOption : Option Text → Json
  | none => null
  | some text => string text

def ofTexts (texts : List Text) : Json :=
  array (texts.map string)

end Json

end TemplateDocs

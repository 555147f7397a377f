import TemplateDocs.Cli.Log.Level
import TemplateDocs.Pattern.Reader
import TemplateDocs.Pattern.Search

/-!
# Directives for the log

A directive sets the level of what it selects.  It is a level alone, which
selects everything, or `origin[span{field=value}]=level`, where each part can be
missing: the part of the program that writes, the work that goes on, a field of
that work and its value.  Without a level it selects at every level.
-/

namespace TemplateDocs

namespace Cli

/-- A field that must be present, and what its value must fit. -/
structure FieldTest where
  name : Text
  value : Option Text
deriving DecidableEq, Repr

namespace FieldTest

def isDecimal (text : Text) : Bool :=
  let whole := text.takeWhile Char.isDigit
  let rest := text.dropWhile Char.isDigit
  let fraction := ((Text.after? ['.'] rest).map (List.takeWhile Char.isDigit)).getD []
  let rest := ((Text.after? ['.'] rest).map (List.dropWhile Char.isDigit)).getD rest
  let exponent :=
    match rest with
    | [] => true
    | mark :: digits =>
        let digits := ((Text.after? ['+'] digits).or (Text.after? ['-'] digits)).getD digits
        (mark = 'e' || mark = 'E') && !digits.isEmpty && digits.all Char.isDigit
  !(whole.isEmpty && fraction.isEmpty) && exponent

/--
Is a written value a truth value or a number?  It then asks for a value of that
kind, and no text fits it.
-/
def isConstant (value : Text) : Bool :=
  let unsigned := ((Text.after? ['+'] value).or (Text.after? ['-'] value)).getD value
  value = "true".toList || value = "false".toList || isDecimal unsigned ||
    ["inf".toList, "infinity".toList, "nan".toList].contains (unsigned.map Char.toLower)

/-- A field, and the value behind its equals sign, which has to be a constant or a pattern. -/
def read? (text : Text) : Option FieldTest :=
  match Text.splitOn '=' text with
  | name :: value :: _ =>
      if isConstant value || (Pattern.parse? value).isSome then
        some ⟨name, some value⟩
      else
        none
  | _ => some ⟨text, none⟩

def fitsValue (value text : Text) : Bool :=
  !isConstant value && (Pattern.parse? value).any fun pattern => pattern.endsText text

end FieldTest

structure LogDirective where
  /-- The start of the path of the part of the program that writes. -/
  origin : Option Text
  span : Option Text
  field : Option FieldTest
  level : LogLevel
deriving DecidableEq, Repr

inductive DirectiveFault where
  | refused
  /-- A part would end within a character. -/
  | torn
deriving DecidableEq, Repr

/-- Where a reader of a directive stands; numbers are the offsets at which parts start. -/
inductive DirectiveState where
  | start
  | word
  | span (first : Nat)
  | field (first : Nat)
  | fields
  | selected
  | level (first : Nat)
deriving DecidableEq, Repr

namespace LogDirective

def everything (level : LogLevel) : LogDirective :=
  ⟨none, none, none, level⟩

/-- A name starts with a letter, a number, a hyphen, a colon or an underscore. -/
def startsName (c : Char) : Bool :=
  c = '-' || c = ':' || c = '_' || Text.isAlphanumeric c

/-- A word that stands alone is a level, or else an origin. -/
def ofWord (word : Text) : LogDirective :=
  match LogLevel.ofText? word with
  | some level => everything level
  | none => ⟨some word, none, none, .trace⟩

/-- The directive at a written level; at every level if nothing is written. -/
def atLevel (directive : LogDirective) (written : Text) : Except DirectiveFault LogDirective :=
  if written.isEmpty then
    .ok { directive with level := .trace }
  else
    match LogLevel.ofText? written with
    | some level => .ok { directive with level := level }
    | none => .error .refused

def part (text : Text) (first last : Nat) : Except DirectiveFault Text :=
  match Text.slice? first last text with
  | some part => .ok part
  | none => .error .torn

def withField (directive : LogDirective) (written : Text) : Except DirectiveFault LogDirective :=
  if written.isEmpty then
    .error .refused
  else
    match FieldTest.read? written with
    | some test => .ok { directive with field := some test }
    | none => .error .refused

def step (text : Text) (offset : Nat) (c : Char) (directive : LogDirective) :
    DirectiveState → Except DirectiveFault (DirectiveState × LogDirective)
  | .start =>
      if c = '[' then .ok (.span (offset + 1), directive)
      else if startsName c then .ok (.word, directive)
      else .error .refused
  | .word =>
      if c = '=' || c = '[' then
        (part text 0 offset).map fun origin =>
          (if c = '=' then .level (offset + 1) else .span (offset + 1),
            { directive with origin := some origin })
      else
        .ok (.word, directive)
  | .span first =>
      if c = ']' then
        (part text first offset).map fun name =>
          (.selected, { directive with span := some name })
      else if c = '{' then
        (part text first offset).map fun name =>
          (.field (offset + 1), { directive with span := if name.isEmpty then none else some name })
      else
        .ok (.span first, directive)
  | .field first =>
      if c = '}' then
        (part text first offset).bind fun written =>
          (directive.withField written).map fun directive => (.fields, directive)
      else
        .ok (.field first, directive)
  | .fields => if c = ']' then .ok (.selected, directive) else .error .refused
  | .selected => if c = '=' then .ok (.level (offset + 1), directive) else .error .refused
  | .level first => .ok (.level first, directive)

def steps (text : Text) (offset : Nat) (directive : LogDirective) (state : DirectiveState) :
    Text → Except DirectiveFault (DirectiveState × LogDirective)
  | [] => .ok (state, directive)
  | c :: rest =>
      (step text offset c directive state).bind fun read =>
        steps text (offset + c.utf8Size) read.2 read.1 rest

/--
A directive as it is written.  The reader passes over blanks at both ends, but it
counts its offsets from behind the leading blanks and takes the parts from the whole
text, so that leading blanks shift the parts; a word is taken with all blanks.
-/
def read (text : Text) : Except DirectiveFault LogDirective :=
  (steps text 0 (everything .trace) .start (Text.trim text)).bind fun read =>
    match read.1 with
    | .word => .ok (ofWord text)
    | .selected => .ok read.2
    | .level first => (part text first (Text.byteSize text)).bind read.2.atLevel
    | _ => .error .refused

end LogDirective

end Cli

end TemplateDocs

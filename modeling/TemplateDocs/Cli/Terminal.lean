import TemplateDocs.Text.Basic

/-!
# Terminal sequences

What is shown of a text whose sequences for terminals are left out.  A sequence
starts with an escape character and is read byte by byte; where it ends depends on
its kind.
-/

namespace TemplateDocs

namespace Cli

inductive TerminalState where
  | ground
  | escape
  | escapeIntermediate
  /-- In a sequence that ends with a sign from `@` to `~`. -/
  | control
  | device
  | deviceParameter
  | deviceIntermediate
  /-- In a string for a device, which ends with a byte of its own. -/
  | string
  /-- In a command of the operating system, which ends with a bell. -/
  | command
deriving DecidableEq, Repr

namespace TerminalState

def within (byte first last : Nat) : Bool :=
  first ≤ byte && byte ≤ last

def next (state : TerminalState) (byte : Nat) : TerminalState :=
  if byte = 0x18 || byte = 0x1A then
    ground
  else if byte = 0x1B then
    escape
  else
    match state with
    | ground => ground
    | escape =>
        if within byte 0x20 0x2F then escapeIntermediate
        else if byte = '['.toNat then control
        else if byte = ']'.toNat then command
        else if byte = 'P'.toNat then device
        else if byte = 'X'.toNat || byte = '^'.toNat || byte = '_'.toNat then string
        else if within byte 0x30 0x7E then ground
        else escape
    | escapeIntermediate => if within byte 0x30 0x7E then ground else escapeIntermediate
    | control => if within byte 0x40 0x7E then ground else control
    | device =>
        if within byte 0x20 0x2F then deviceIntermediate
        else if within byte 0x30 0x3F then deviceParameter
        else if within byte 0x40 0x7E then string
        else device
    | deviceParameter =>
        if within byte 0x20 0x2F then deviceIntermediate
        else if within byte 0x3C 0x7E then string
        else deviceParameter
    | deviceIntermediate => if within byte 0x30 0x7E then string else deviceIntermediate
    | string => if byte = 0x9C then ground else string
    | command => if byte = 0x07 then ground else command

def after (state : TerminalState) (c : Char) : TerminalState :=
  (String.utf8EncodeChar c).foldl (fun state byte => state.next byte.toNat) state

def showsBlanks : TerminalState → Bool
  | escape => true
  | escapeIntermediate => true
  | control => true
  | _ => false

end TerminalState

def isBlankControl (c : Char) : Bool :=
  c = '\t' || c = '\n' || c = '\x0c' || c = '\r'

/-- Controls other than tab, line feed, form feed and carriage return. -/
def isHidden (c : Char) : Bool :=
  (c.toNat < 0x20 && !isBlankControl c) || c.toNat = 0x7F

/--
What is shown of a text.  A blank within a sequence is shown together with what
follows, up to the next hidden control, and behind that the sequence goes on;
`showing` tells whether this is the case.
-/
def shownFrom (showing : Bool) (state : TerminalState) : Text → Text
  | [] => []
  | c :: rest =>
      if showing || state = .ground then
        if isHidden c then
          shownFrom false (state.after c) rest
        else
          c :: shownFrom true (if c.toNat < 0x80 then state else .ground) rest
      else if state.showsBlanks && isBlankControl c then
        c :: shownFrom true state rest
      else
        shownFrom false (state.after c) rest

def shown (text : Text) : Text :=
  shownFrom false .ground text

end Cli

end TemplateDocs

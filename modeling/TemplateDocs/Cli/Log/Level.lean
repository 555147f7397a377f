import TemplateDocs.Text.Basic

/-!
# Levels of the log

A level says how much is logged.  It is written as a word or as a number.
-/

namespace TemplateDocs

namespace Cli

inductive LogLevel where
  | off
  | error
  | warn
  | info
  | debug
  | trace
deriving DecidableEq, Repr

namespace LogLevel

def rank : LogLevel → Nat
  | off => 0
  | error => 1
  | warn => 2
  | info => 3
  | debug => 4
  | trace => 5

def includes (level other : LogLevel) : Bool :=
  other.rank ≤ level.rank

def max (first second : LogLevel) : LogLevel :=
  if first.includes second then first else second

def highest (levels : List LogLevel) : LogLevel :=
  levels.foldl max off

def ofRank? (n : Nat) : Option LogLevel :=
  [off, error, warn, info, debug, trace].find? fun level => level.rank = n

def name : LogLevel → Text
  | off => "off".toList
  | error => "error".toList
  | warn => "warn".toList
  | info => "info".toList
  | debug => "debug".toList
  | trace => "trace".toList

def ofName? (text : Text) : Option LogLevel :=
  [off, error, warn, info, debug, trace].find? fun level => level.name = text.map Char.toLower

/-- A number in decimal digits, which a plus sign may precede. -/
def number? (text : Text) : Option Nat :=
  let digits := (Text.after? ['+'] text).getD text
  if !digits.isEmpty && digits.all Char.isDigit then
    some (digits.foldl (fun n c => 10 * n + (c.toNat - '0'.toNat)) 0)
  else
    none

def ofText? (text : Text) : Option LogLevel :=
  ((number? text).bind ofRank?).or (ofName? text)

end LogLevel

end Cli

end TemplateDocs

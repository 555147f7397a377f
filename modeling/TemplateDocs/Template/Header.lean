import TemplateDocs.Template.Header.Token

/-!
# Headers

The header of a definition names it and lists its parameters: names, each with
an optional default behind an equals sign, and at most one name with an ellipsis
that takes all further arguments.  Commas and parentheses around the list are
accepted and have no meaning of their own.

Defaults are skipped, not read.  Outside brackets a default ends before a comma,
before a closing bracket, and before a name that follows an operand: two operands
in a row can only mean that the next parameter has started.
-/

namespace TemplateDocs

structure Header where
  /-- Missing when the header starts with neither a name nor a quoted text. -/
  name : Option Text
  arguments : List Text
  catchAll : Option Text
deriving DecidableEq, Repr

namespace Header

/-- Comparison operators that are spelled as words. -/
def isWordOperator (name : Text) : Bool :=
  name = ['g', 't'] || name = ['g', 't', 'e'] || name = ['l', 't'] || name = ['l', 't', 'e']

def endsOperand : HeaderToken → Bool
  | .ident name => !isWordOperator name
  | .quoted .. | .number _ | .closeGroup _ => true
  | _ => false

/-- What is being read: a list of parameters, or the default of one of them. -/
inductive Reading where
  | parameters
  /-- `depth` counts open brackets; `operand` tells that an operand has just ended. -/
  | skipping (depth : Nat) (operand : Bool)
deriving DecidableEq, Repr

def endsDefault (depth : Nat) (operand : Bool) (token : HeaderToken) : Bool :=
  depth = 0 &&
    match token with
    | .comma | .closeGroup _ => true
    | .ident name => operand && !isWordOperator name
    | _ => false

def depthAfter (depth : Nat) : HeaderToken → Nat
  | .openGroup _ => depth + 1
  | .closeGroup _ => depth - 1
  | _ => depth

/-- The reading behind a token of a default, or nothing if the default ends before it. -/
def Reading.step? : Reading → HeaderToken → Option Reading
  | parameters, _ => none
  | skipping depth operand, token =>
      if endsDefault depth operand token then
        none
      else
        some (skipping (depthAfter depth token) (endsOperand token))

def addArgument (name : Text) (header : Header) : Header :=
  { header with arguments := name :: header.arguments }

/-- Add a catch-all in front of what was already read; the last one counts. -/
def addCatchAll (name : Text) (header : Header) : Header :=
  { header with catchAll := header.catchAll.or (some name) }

def readParameters : Reading → List HeaderToken → Header
  | _, [] => ⟨none, [], none⟩
  | reading, token :: rest =>
      match reading.step? token with
      | some reading => readParameters reading rest
      | none =>
          match token, rest with
          | .ident name, .ellipsis :: rest =>
              addCatchAll name (readParameters .parameters rest)
          | .ident name, .equals :: rest =>
              addArgument name (readParameters (.skipping 0 false) rest)
          | .ident name, rest => addArgument name (readParameters .parameters rest)
          | _, rest => readParameters .parameters rest

def ofTokens : List HeaderToken → Header
  | .ident name :: rest => { readParameters .parameters rest with name := some name }
  | .quoted _ body :: rest => { readParameters .parameters rest with name := some body }
  | tokens => readParameters .parameters tokens

def parse (header : Text) : Header :=
  ofTokens ((HeaderToken.tokens header).filter fun token => !token.isGap)

end Header

end TemplateDocs

import TemplateDocs.Fault
import TemplateDocs.Index.Basic

/-!
# Reports

A report has a code, a message and advice.  A sign in front of the message tells
warnings from errors.
-/

namespace TemplateDocs

namespace Cli

inductive Severity where
  | warning
  | error
deriving DecidableEq, Repr

/-- The sign in front of a message; terminals with colours also have other signs. -/
def Severity.sign (color : Bool) : Severity → Char
  | warning => if color then '⚠' else '!'
  | error => if color then '×' else 'x'

structure Report where
  severity : Severity
  code : Text
  message : Text
  help : Option Text
deriving DecidableEq, Repr

namespace Report

def ofFault (fault : Fault) : Report :=
  ⟨.error, fault.code, fault.message, fault.help?⟩

def ofDiagnostic (item : FileDiagnostic) : Report where
  severity := .warning
  code := item.diagnostic.problem.code
  message :=
    "[".toList ++ item.file ++ ":".toList ++ item.diagnostic.position.render ++ "] ".toList ++
      item.diagnostic.problem.message
  help := some item.diagnostic.problem.help

def ofFailure (failure : Failure) : Report where
  severity := .error
  code := "ftldoc::file_failed".toList
  message := "[".toList ++ failure.filename ++ "] ".toList ++ failure.message
  help := some "this file was skipped; fix the error and run again".toList

/-- The bar in front of the further lines of a message. -/
def bar (color : Bool) : Char :=
  if color then '│' else '|'

/-- The lines of a text, the first behind one lead and the others behind another. -/
def led (first next text : Text) : List Text :=
  match Text.splitOn '\n' text with
  | [] => []
  | start :: rest => (first ++ start) :: rest.map (next ++ ·)

/-- The code, the message behind its sign, and the advice, with an empty line at the end. -/
def lines (color : Bool) (report : Report) : List Text :=
  let message := led [' ', ' ', report.severity.sign color, ' '] [' ', ' ', bar color, ' ']
    report.message
  let help := (report.help.map (led "  help: ".toList "        ".toList)).getD []
  [report.code, []] ++ message ++ help ++ [[]]

end Report

end Cli

end TemplateDocs

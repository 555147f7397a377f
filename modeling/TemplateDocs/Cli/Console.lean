import TemplateDocs.Cli.Log
import TemplateDocs.Cli.Report

/-!
# Consoles

A console puts reports and entries of the log into lines.  How it sets their text,
and where it breaks it, is left to the console; the styles that it adds are not part
of the lines.
-/

namespace TemplateDocs

namespace Cli

structure Console where
  report : (color : Bool) → Report → List Text
  entry : (color : Bool) → LogEntry → List Text

namespace Console

/-- The console that breaks no line of its own accord. -/
def plain : Console where
  report := Report.lines
  entry _ entry := [entry.line]

def log (console : Console) (color : Bool) (filter : LogFilter) (entries : List LogEntry) :
    List Text :=
  (filter.entries entries).flatMap (console.entry color)

end Console

end Cli

end TemplateDocs

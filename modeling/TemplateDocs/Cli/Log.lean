import TemplateDocs.Cli.Log.Filter
import TemplateDocs.Index.Document
import TemplateDocs.Text.Category

/-!
# The log

What happens while a command runs makes entries of the log, as far as the filter
lets them through.  An entry about a file names the file where the filter opens
the span of the work on it.
-/

namespace TemplateDocs

namespace Cli

inductive LogValue where
  | text (value : Text)
  | number (n : Nat)
  | options (value : Options)
deriving DecidableEq, Repr

structure LogEntry where
  level : LogLevel
  /-- The part of the program that makes the entry. -/
  origin : Text
  /-- The work during which the entry is made. -/
  span : Option LogSpan
  message : Text
  fields : List (Text × LogValue)
deriving DecidableEq, Repr

namespace LogEntry

def point (entry : LogEntry) : LogPoint :=
  ⟨entry.level, entry.origin, "message".toList :: entry.fields.map Prod.fst⟩

def isAdmitted (filter : LogFilter) (entry : LogEntry) : Bool :=
  match entry.span with
  | some span => filter.admitsWithin span entry.point
  | none => filter.admits entry.point

/-- An entry as it is written: a span that the filter does not open is not shown. -/
def seen (filter : LogFilter) (entry : LogEntry) : LogEntry :=
  { entry with span := entry.span.filter filter.opens }

end LogEntry

def LogFilter.entries (filter : LogFilter) (entries : List LogEntry) : List LogEntry :=
  (entries.filter (LogEntry.isAdmitted filter)).map (LogEntry.seen filter)

/-! ## What is logged -/

def programOrigin : Text :=
  "ftldoc".toList

def markerOrigin : Text :=
  "ftldoc_core::diagnostic".toList

def fileOrigin : Text :=
  "ftldoc_core::project".toList

def fileSpan (file : Text) : LogSpan :=
  ⟨"file".toList, ⟨.debug, fileOrigin, ["name".toList]⟩, [("name".toList, file)]⟩

def optionsEntry (options : Options) (root : Text) : LogEntry :=
  ⟨.debug, programOrigin, none, "resolved options".toList,
    [("options".toList, .options options), ("root".toList, .text root)]⟩

def eventEntry : Event → LogEntry
  | .unread path message =>
      ⟨.error, fileOrigin, none, "skipping file".toList,
        [("path".toList, .text path), ("error".toList, .text message)]⟩
  | .started file bytes =>
      ⟨.debug, fileOrigin, some (fileSpan file), "documenting file".toList,
        [("bytes".toList, .number bytes)]⟩
  | .documented file definitions categories =>
      ⟨.debug, fileOrigin, some (fileSpan file), "documented file".toList,
        [("definitions".toList, .number definitions),
          ("categories".toList, .number categories)]⟩
  | .skipped file message =>
      ⟨.error, fileOrigin, some (fileSpan file), "skipping file".toList,
        [("error".toList, .text message)]⟩
  | .noticed file diagnostic =>
      ⟨.warn, markerOrigin, some (fileSpan file), diagnostic.problem.message,
        [("line".toList, .number diagnostic.position.line),
          ("column".toList, .number diagnostic.position.column)]⟩

/-! ## The lines of the log -/

/--
A character of a message.  Those that could steer a terminal are spelled out: bell,
backspace, form feed, escape, delete, and the controls from U+0080 to U+009F.
-/
def spelled (c : Char) : Text :=
  if c = '\x07' || c = '\x08' || c = '\x0c' || c = '\x1b' || c = '\x7f' then
    '\\' :: 'x' :: Text.ofByte c.toNat
  else if 0x80 ≤ c.toNat && c.toNat ≤ 0x9F then
    '\\' :: 'u' :: '{' :: (Text.ofByte c.toNat ++ ['}'])
  else
    [c]

/-- A character between quotes.  Marks and what has no form are spelled by their numbers. -/
def quotedChar (c : Char) : Text :=
  let inner :=
    if c = '\x00' then ['\\', '0']
    else if c = '\'' || c = '\\' then ['\\', c]
    else if Text.inRanges Text.graphicRanges c.toNat && !Text.isMark c then [c]
    else "\\u\x7b".toList ++ Nat.toDigits 16 c.toNat ++ ['}']
  '\'' :: inner ++ ['\'']

def spelledOptions (options : Options) : Text :=
  "DocOptions \x7b marker: ".toList ++ quotedChar options.marker ++
    ", sort_files: ".toList ++ (if options.sortFiles then "true" else "false").toList ++
    ", max_file_size: ".toList ++ Text.ofNat options.maxFileSize ++ " \x7d".toList

def LogValue.spelled : LogValue → Text
  | text value => value
  | number n => Text.ofNat n
  | options value => spelledOptions value

/-- The word for a level in capitals, as wide as the longest. -/
def LogLevel.label (level : LogLevel) : Text :=
  let word := level.name.map Char.toUpper
  List.replicate (5 - word.length) ' ' ++ word

namespace LogEntry

def context (entry : LogEntry) : Text :=
  match entry.span with
  | some span =>
      let values := span.values.map fun value => value.1 ++ '=' :: value.2
      span.name ++ '{' :: (Text.join [' '] values ++ "\x7d: ".toList)
  | none => []

def line (entry : LogEntry) : Text :=
  entry.level.label ++ ' ' :: (entry.context ++ entry.message.flatMap Cli.spelled ++
    entry.fields.flatMap fun field => ' ' :: (field.1 ++ '=' :: field.2.spelled))

end LogEntry

end Cli

end TemplateDocs

import TemplateDocs.Cli.Log.Directive

/-!
# The filter of the log

Directives decide together what is logged.  Of those that select a message
wherever it is written, the most specific one counts, and of equals the last.  A
directive that names a span or a field of one opens that span, and while the work
goes on it lets through what its level includes.
-/

namespace TemplateDocs

namespace Cli

/-- Something that can be logged: its level, where it comes from, what it shows. -/
structure LogPoint where
  level : LogLevel
  origin : Text
  fields : List Text
deriving DecidableEq, Repr

/-- Work that has a name and a named value, and that shows in messages written meanwhile. -/
structure LogSpan where
  name : Text
  point : LogPoint
  values : List (Text × Text)
deriving DecidableEq, Repr

namespace LogDirective

def fitsOrigin (directive : LogDirective) (origin : Text) : Bool :=
  directive.origin.all fun start => Text.startsWith start origin

def fitsFields (directive : LogDirective) (fields : List Text) : Bool :=
  directive.field.all fun test => fields.contains test.name

def isGeneral (directive : LogDirective) : Bool :=
  directive.span.isNone && directive.field.all fun test => test.value.isNone

def isForSpans (directive : LogDirective) : Bool :=
  directive.span.isSome || directive.field.isSome

def asksValue (directive : LogDirective) : Bool :=
  directive.field.any fun test => test.value.isSome

/-- Does a directive about spans select a span, whatever the values of its fields? -/
def fitsSpan (directive : LogDirective) (span : LogSpan) : Bool :=
  directive.isForSpans && directive.fitsOrigin span.point.origin &&
    directive.span.all (fun name => name = span.name) &&
    directive.fitsFields span.point.fields

def fitsValues (directive : LogDirective) (span : LogSpan) : Bool :=
  directive.field.all fun test =>
    test.value.all fun value =>
      span.values.any fun entry => entry.1 = test.name && FieldTest.fitsValue value entry.2

def sameSelection (first second : LogDirective) : Bool :=
  first.origin = second.origin && first.span = second.span && first.field = second.field

def fieldName (directive : LogDirective) : Text :=
  (directive.field.map FieldTest.name).getD []

/--
Is the second directive at least as specific as the first?  A longer origin counts
before a field, and a field before its name.
-/
def leSpecific (first second : LogDirective) : Bool :=
  let origin (directive : LogDirective) := (directive.origin.map (·.length + 1)).getD 0
  if origin first = origin second then
    Text.le first.fieldName second.fieldName
  else
    origin first < origin second

end LogDirective

structure LogFilter where
  directives : List LogDirective
deriving DecidableEq, Repr

namespace LogFilter

def atLevel (level : LogLevel) : LogFilter :=
  ⟨[.everything level]⟩

/-- Directives with commas between them; the first one that is not read counts. -/
def read (setting : Text) : Except DirectiveFault LogFilter :=
  (((Text.splitOn ',' setting).filter fun part => !part.isEmpty).mapM
    LogDirective.read).map LogFilter.mk

def choose (setting : Option Text) (verbose : Bool) : Except DirectiveFault LogFilter :=
  let standard := atLevel (if verbose then .debug else .warn)
  match setting.map read with
  | some (.ok filter) => .ok filter
  | some (.error .torn) => .error .torn
  | _ => .ok standard

/-- The most specific of several directives, of equals the last. -/
def mostSpecific? (directives : List LogDirective) : Option LogDirective :=
  directives.foldl
    (fun best directive =>
      match best with
      | some other => if other.leSpecific directive then some directive else some other
      | none => some directive)
    none

def levelOf (directives : List LogDirective) : LogLevel :=
  ((mostSpecific? directives).map LogDirective.level).getD .off

def admits (filter : LogFilter) (point : LogPoint) : Bool :=
  (levelOf <| filter.directives.filter fun directive =>
    directive.isGeneral && directive.fitsOrigin point.origin &&
      directive.fitsFields point.fields).includes point.level

/-- Of directives that select the same, only the last. -/
def withoutRepeats : List LogDirective → List LogDirective
  | [] => []
  | directive :: rest =>
      if rest.any directive.sameSelection then
        withoutRepeats rest
      else
        directive :: withoutRepeats rest

def spanDirectives (filter : LogFilter) (span : LogSpan) : List LogDirective :=
  withoutRepeats (filter.directives.filter fun directive => directive.fitsSpan span)

/-- The level up to which anything can be let through. -/
def ceiling (filter : LogFilter) : LogLevel :=
  if filter.directives.any LogDirective.asksValue then
    .trace
  else
    LogLevel.highest (filter.directives.map LogDirective.level)

/-- Is a span open, so that it shows in the messages written meanwhile? -/
def opens (filter : LogFilter) (span : LogSpan) : Bool :=
  filter.ceiling.includes span.point.level &&
    (!(filter.spanDirectives span).isEmpty ||
      (levelOf <| filter.directives.filter fun directive =>
        directive.isGeneral && directive.fitsOrigin span.point.origin).includes span.point.level)

def levelWithin (filter : LogFilter) (span : LogSpan) : LogLevel :=
  LogLevel.highest <|
    ((filter.spanDirectives span).filter fun directive => directive.fitsValues span).map
      LogDirective.level

def admitsWithin (filter : LogFilter) (span : LogSpan) (point : LogPoint) : Bool :=
  filter.admits point ||
    (filter.opens span && (filter.levelWithin span).includes point.level)

end LogFilter

end Cli

end TemplateDocs

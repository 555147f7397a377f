import TemplateDocs.Fault
import TemplateDocs.Options
import TemplateDocs.Settings.Value

/-!
# Settings

A settings file has one setting on a line, a key and a value with an equals sign
between them.  Blank lines and comments are passed over.  Every key names one of
three settings and is set at most once; a value has the type of its setting.
-/

namespace TemplateDocs

structure Settings where
  /-- The character that marks a comment as documentation, not yet checked. -/
  docMarker : Option Text
  sortFiles : Bool
  maxFileSize : Nat
deriving DecidableEq, Repr

def Settings.standard : Settings :=
  ⟨none, false, defaultMaxFileSize⟩

/-- A marker is exactly one character that is not blank. -/
def parseMarker : Text → Except Fault Char
  | [c] => if Text.isBlank c then .error (.badMarker [c]) else .ok c
  | value => .error (.badMarker value)

namespace Settings

def options (settings : Settings) : Except Fault Options :=
  match settings.docMarker with
  | none => .ok ⟨DocComment.defaultMarker, settings.sortFiles, settings.maxFileSize⟩
  | some value =>
      (parseMarker value).map fun marker =>
        ⟨marker, settings.sortFiles, settings.maxFileSize⟩

structure Draft where
  docMarker : Option Text
  sortFiles : Option Bool
  maxFileSize : Option Nat
deriving DecidableEq, Repr

def sizeLimit : Nat :=
  18446744073709551615

namespace Draft

def start : Draft :=
  ⟨none, none, none⟩

/-- Settings that were not given have their standard values. -/
def finish (draft : Draft) : Settings :=
  ⟨draft.docMarker, draft.sortFiles.getD false, draft.maxFileSize.getD defaultMaxFileSize⟩

def markerKey : Text :=
  "doc_marker".toList

def sortKey : Text :=
  "sort_files".toList

def sizeKey : Text :=
  "max_file_size".toList

def setMarker (draft : Draft) : SettingsValue → Except SettingsFault Draft
  | .text value =>
      if draft.docMarker.isSome then
        .error (.repeatedKey markerKey)
      else
        .ok { draft with docMarker := some value }
  | _ => .error (.unfitValue markerKey)

def setSort (draft : Draft) : SettingsValue → Except SettingsFault Draft
  | .truth value =>
      if draft.sortFiles.isSome then
        .error (.repeatedKey sortKey)
      else
        .ok { draft with sortFiles := some value }
  | _ => .error (.unfitValue sortKey)

def setSize (draft : Draft) : SettingsValue → Except SettingsFault Draft
  | .number value =>
      if draft.maxFileSize.isSome then
        .error (.repeatedKey sizeKey)
      else if value < 0 || (sizeLimit : Int) < value then
        .error (.unfitValue sizeKey)
      else
        .ok { draft with maxFileSize := some value.toNat }
  | _ => .error (.unfitValue sizeKey)

def set (draft : Draft) (key : Text) (value : SettingsValue) : Except SettingsFault Draft :=
  if key = markerKey then draft.setMarker value
  else if key = sortKey then draft.setSort value
  else if key = sizeKey then draft.setSize value
  else .error (.unknownKey key)

end Draft

def isBareKey (c : Char) : Bool :=
  c.isAlphanum || c = '_' || c = '-'

def readKey : SettingsValue.Reader Text
  | '"' :: rest => SettingsValue.readBasic (rest.length + 1) rest
  | '\'' :: rest => SettingsValue.readLiteral rest
  | text =>
      let key := text.takeWhile isBareKey
      if key.isEmpty then none else some (key, text.dropWhile isBareKey)

def readSetting (text : Text) : Option ((Text × SettingsValue) × Text) :=
  (readKey text).bind fun key =>
    match SettingsValue.skipBlanks key.2 with
    | '=' :: rest =>
        (SettingsValue.read (SettingsValue.skipBlanks rest)).map fun value =>
          ((key.1, value.1), value.2)
    | _ => none

def skipComment : Text → Option Text
  | [] => some []
  | c :: rest =>
      match SettingsValue.afterBreak? (c :: rest) with
      | some _ => some (c :: rest)
      | none => if SettingsValue.isControl c then none else skipComment rest

/-- What follows the end of a line: blanks, a comment, and a line break. -/
def endLine? (text : Text) : Option Text :=
  match SettingsValue.skipBlanks text with
  | [] => some []
  | '#' :: rest =>
      (skipComment rest).bind fun rest =>
        if rest.isEmpty then some [] else SettingsValue.afterBreak? rest
  | rest => SettingsValue.afterBreak? rest

/-- Fuelled reader of lines; every line uses up one unit and at least one character. -/
def readLines : Nat → Draft → Text → Except SettingsFault Draft
  | 0, _, _ => .error .malformed
  | _ + 1, draft, [] => .ok draft
  | fuel + 1, draft, c :: text =>
      match endLine? (c :: text) with
      | some rest => readLines fuel draft rest
      | none =>
          match readSetting (SettingsValue.skipBlanks (c :: text)) with
          | none => .error .malformed
          | some (setting, rest) =>
              (draft.set setting.1 setting.2).bind fun draft =>
                match endLine? rest with
                | some rest => readLines fuel draft rest
                | none => .error .malformed

def withoutOrderMark (text : Text) : Text :=
  (Text.after? [Char.ofNat 0xFEFF] text).getD text

def parse (text : Text) : Except Fault Settings :=
  let text := withoutOrderMark text
  match readLines (text.length + 1) Draft.start text with
  | .ok draft => .ok draft.finish
  | .error cause => .error (.badSettings cause)

end Settings

end TemplateDocs

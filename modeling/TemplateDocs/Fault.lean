import TemplateDocs.Definition
import TemplateDocs.Position

/-!
# Faults

Everything that can keep a file from being documented or the settings from being
loaded, with the message, the code and the advice that go with each cause.
-/

namespace TemplateDocs

inductive ReadFault where
  | notFound
  | notDirectory
  | isDirectory
  /-- A name or a whole path is longer than the file system takes. -/
  | nameTooLong
  | nulInName
  | notUtf8
  /-- Any other cause, in the words of the operating system. -/
  | other (message : Text)
deriving DecidableEq, Repr

namespace ReadFault

def message : ReadFault → Text
  | notFound => "No such file or directory (os error 2)".toList
  | notDirectory => "Not a directory (os error 20)".toList
  | isDirectory => "Is a directory (os error 21)".toList
  | nameTooLong => "File name too long (os error 36)".toList
  | nulInName => "file name contained an unexpected NUL byte".toList
  | notUtf8 => "stream did not contain valid UTF-8".toList
  | other message => message

end ReadFault

inductive SettingsFault where
  | malformed
  | unknownKey (key : Text)
  | repeatedKey (key : Text)
  /-- A value is of another type than its setting, or out of range. -/
  | unfitValue (key : Text)
deriving DecidableEq, Repr

namespace SettingsFault

def quote (text : Text) : Text :=
  "`".toList ++ text ++ "`".toList

def message : SettingsFault → Text
  | malformed => "a line is not of the form `key = value`".toList
  | unknownKey key => "unknown key ".toList ++ quote key
  | repeatedKey key => "the key ".toList ++ quote key ++ " is set twice".toList
  | unfitValue key => "the value of ".toList ++ quote key ++ " does not fit".toList

end SettingsFault

inductive Fault where
  | unreadable (cause : ReadFault)
  | unclosedComment (start : Position)
  /-- A definition that is never closed; the name is empty when its opening tag never ends. -/
  | unclosedDefinition (kind : DefinitionKind) (name : Text) (start : Position)
  /-- A closing tag without an open definition of its kind. -/
  | unexpectedClosing (tag : Text) (start : Position)
  | missingName (kind : DefinitionKind) (start : Position)
  | badSettings (cause : SettingsFault)
  | badMarker (value : Text)
  | tooLarge (path : Text) (size limit : Nat)
deriving DecidableEq, Repr

namespace Fault

def message : Fault → Text
  | unreadable cause => cause.message
  | unclosedComment start => "unterminated comment starting at ".toList ++ start.render
  | unclosedDefinition kind name start =>
      "missing closing tag for ".toList ++ kind.label ++ " `".toList ++ name ++
        "` opened at ".toList ++ start.render
  | unexpectedClosing tag start =>
      "unexpected closing tag `".toList ++ tag ++ "` at ".toList ++ start.render
  | missingName kind start =>
      kind.label ++ " definition at ".toList ++ start.render ++ " has no name".toList
  | badSettings cause => "failed to parse config file: ".toList ++ cause.message
  | badMarker value => "invalid doc comment marker: `".toList ++ value ++ "`".toList
  | tooLarge path size limit =>
      "file too large: `".toList ++ path ++ "` is ".toList ++ Text.ofNat size ++
        " bytes (limit: ".toList ++ Text.ofNat limit ++ " bytes)".toList

def code : Fault → Text
  | unreadable _ => "ftldoc::io_error".toList
  | unclosedComment _ => "ftldoc::unclosed_comment".toList
  | unclosedDefinition .. => "ftldoc::unclosed_definition".toList
  | unexpectedClosing .. => "ftldoc::unexpected_closing_tag".toList
  | missingName .. => "ftldoc::missing_definition_name".toList
  | badSettings _ => "ftldoc::config_parse".toList
  | badMarker _ => "ftldoc::invalid_doc_marker".toList
  | tooLarge .. => "ftldoc::file_too_large".toList

def help? : Fault → Option Text
  | unreadable _ => none
  | unclosedComment _ => some "close the comment with `-->`".toList
  | unclosedDefinition kind .. =>
      some ("add `</#".toList ++ kind.label ++ ">` to close this definition".toList)
  | unexpectedClosing .. =>
      some ("every `</#macro>` or `</#function>` must close a matching open definition".toList)
  | missingName .. => none
  | badSettings _ => some "check that ftldoc.toml is valid TOML".toList
  | badMarker _ =>
      some "the doc comment marker must be exactly one character, e.g. `-`".toList
  | tooLarge .. =>
      some "increase `max_file_size` in ftldoc.toml or leave this file out".toList

end Fault

end TemplateDocs

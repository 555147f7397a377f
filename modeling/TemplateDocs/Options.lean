import TemplateDocs.Comment.Basic

/-!
# Options

What the settings of a project come to once they have been checked.
-/

namespace TemplateDocs

def defaultMaxFileSize : Nat :=
  10 * 1024 * 1024

structure Options where
  marker : Char
  /-- Process files in the order of their names instead of the order given. -/
  sortFiles : Bool
  /-- The size in bytes beyond which files are not read. -/
  maxFileSize : Nat
deriving DecidableEq, Repr

def Options.standard : Options :=
  ⟨DocComment.defaultMarker, false, defaultMaxFileSize⟩

end TemplateDocs

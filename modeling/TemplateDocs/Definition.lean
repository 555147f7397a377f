import TemplateDocs.Text.Basic

/-!
# Definitions

A template defines macros, which write output, and functions, which return a
value.
-/

namespace TemplateDocs

/-- Macros write output; functions return a value. -/
inductive DefinitionKind where
  | macroDef
  | functionDef
deriving DecidableEq, Repr

namespace DefinitionKind

def label : DefinitionKind → Text
  | macroDef => ['m', 'a', 'c', 'r', 'o']
  | functionDef => ['f', 'u', 'n', 'c', 't', 'i', 'o', 'n']

def isFunction : DefinitionKind → Bool
  | macroDef => false
  | functionDef => true

end DefinitionKind

structure Definition where
  name : Text
  kind : DefinitionKind
  arguments : List Text
  /-- The parameter that takes all further arguments. -/
  catchAll : Option Text
  /-- The text of the whole definition, from its opening tag to its closing tag. -/
  source : Text
deriving DecidableEq, Repr

end TemplateDocs

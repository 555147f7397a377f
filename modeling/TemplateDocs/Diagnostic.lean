import TemplateDocs.Position

/-!
# Diagnostics

Problems with the markers of a file that do not keep it from being documented.
-/

namespace TemplateDocs

inductive Problem where
  /-- A region begins while another one is open, which ends there. -/
  | nestedBegin (openName name : Text)
  /-- An end without an open region; it is passed over. -/
  | endWithoutBegin
  /-- A region without an end; it runs to the end of the file. -/
  | missingEnd (name : Text)
deriving DecidableEq, Repr

namespace Problem

def message : Problem → Text
  | nestedBegin openName name =>
      "nested @begin `".toList ++ name ++ "` while category `".toList ++ openName ++
        "` is still open".toList
  | endWithoutBegin => "@end without @begin".toList
  | missingEnd name =>
      "missing @end for category `".toList ++ name ++ "` (runs to end of file)".toList

def code : Problem → Text
  | nestedBegin .. => "ftldoc::nested_begin".toList
  | endWithoutBegin => "ftldoc::end_without_begin".toList
  | missingEnd _ => "ftldoc::missing_end".toList

def help : Problem → Text
  | nestedBegin openName _ =>
      "add `<#-- @end -->` before this marker to close `".toList ++ openName ++ "`".toList
  | endWithoutBegin =>
      "remove this marker or add a matching `<#-- @begin Name -->`".toList
  | missingEnd name =>
      "add `<#-- @end -->` where category `".toList ++ name ++ "` should stop".toList

end Problem

/-- A problem and the start of the comment that shows it. -/
structure Diagnostic where
  problem : Problem
  position : Position
deriving DecidableEq, Repr

def Diagnostic.render (diagnostic : Diagnostic) : Text :=
  diagnostic.problem.message ++ " at ".toList ++ diagnostic.position.render

structure FileDiagnostic where
  file : Text
  diagnostic : Diagnostic
deriving DecidableEq, Repr

end TemplateDocs

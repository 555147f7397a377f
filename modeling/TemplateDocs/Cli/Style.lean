import TemplateDocs.Text.Basic

/-!
# Styles

Bold, dimmed and coloured text for terminals, and text without all of that.
-/

namespace TemplateDocs

namespace Cli

inductive Style where
  | bold
  | dimmed
  | red
  | green
deriving DecidableEq, Repr

def Style.sequence (code : Nat) : Text :=
  '\x1b' :: '[' :: (Text.ofNat code ++ ['m'])

def Style.on : Style → Nat
  | bold => 1
  | dimmed => 2
  | red => 31
  | green => 32

/-- The attribute that switches a style off: all of them, or the colour only. -/
def Style.off : Style → Nat
  | bold => 0
  | dimmed => 0
  | red => 39
  | green => 39

def paint (color : Bool) (style : Style) (text : Text) : Text :=
  if color then
    Style.sequence style.on ++ text ++ Style.sequence style.off
  else
    text

end Cli

end TemplateDocs

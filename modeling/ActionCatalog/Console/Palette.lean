import ActionCatalog.Text.Digit
import ActionCatalog.Text.Piece

/-! Colours of terminal output, one for each role. -/
namespace ActionCatalog.Console

inductive Theme where
  | dark | light
  deriving DecidableEq, Repr

inductive Color where
  | rgb (red green blue : Nat)
  | reset
  deriving DecidableEq, Repr

structure Palette where
  timestamp : Color := .reset
  primary : Color := .reset
  accent : Color := .reset
  success : Color := .reset
  label : Color := .reset
  value : Color := .reset
  muted : Color := .reset
  deriving DecidableEq, Repr

namespace Palette

def dark : Palette where
  timestamp := .rgb 120 150 178
  primary := .rgb 152 195 121
  accent := .rgb 224 108 117
  success := .rgb 86 182 194
  label := .rgb 229 192 123
  value := .rgb 209 154 102
  muted := .rgb 127 132 142

def light : Palette where
  timestamp := .rgb 64 86 120
  primary := .rgb 56 98 48
  accent := .rgb 176 48 56
  success := .rgb 24 112 124
  label := .rgb 140 96 20
  value := .rgb 150 80 30
  muted := .rgb 110 110 110

/-- The colours of a theme; without colours every role is reset. -/
def ofTheme (enabled : Bool) : Theme → Palette
  | .dark => if enabled then dark else {}
  | .light => if enabled then light else {}

end Palette

/-- The theme of a terminal that tells its colours as `foreground;background`, perhaps with more between
the two. Backgrounds from 8 up are light. -/
def Theme.ofColors? (colors : String) : Option Theme := do
  let background ← (Text.splitWhere (· = ';') colors.toList).getLast?
  let digits := match background with
    | '+' :: rest => rest
    | rest => rest
  let n ← Text.natural? 10 digits
  if n < 256 then return if n < 8 then .dark else .light else none

/-- A text in a colour. -/
def Color.paint (c : Color) (text : String) : String :=
  let start := match c with
    | rgb r g b => s!"38;2;{r};{g};{b}"
    | reset => "39"
  "\x1b[" ++ start ++ "m" ++ text ++ "\x1b[39m"

end ActionCatalog.Console

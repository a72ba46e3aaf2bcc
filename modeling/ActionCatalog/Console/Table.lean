import ActionCatalog.Text.Columns
import ActionCatalog.Text.Piece

/-! Tables with rules above, below and under the titles. -/
namespace ActionCatalog.Console

/-- Titles of columns, each with whether its cells stand to the right, and rows of cells. -/
structure Table where
  columns : List (String × Bool)
  rows : List (List String)

namespace Table

/-- The lines of a cell. -/
def linesOf (cell : String) : List (List Char) := Text.splitWhere (· = '\n') cell.toList

/-- Columns are one space wider on both sides than the longest line in them. -/
def widths (t : Table) : List Nat :=
  t.columns.mapIdx fun i column =>
    let lines := t.rows.flatMap fun row => linesOf (row[i]?.getD "")
    2 + (lines.map Text.columns).foldl max (Text.columns column.1.toList)

def spaces (n : Nat) : String := .ofList (List.replicate n ' ')
def rule (n : Nat) : String := .ofList (List.replicate n '─')

def cell (width : Nat) (right : Bool) (line : List Char) : String :=
  let gap := spaces (width - 2 - Text.columns line)
  let text := String.ofList line
  if right then " " ++ gap ++ text ++ " " else " " ++ text ++ gap ++ " "

def joined (cells : List String) : String := " ".intercalate cells

/-- The lines of a row, as many as its longest cell has. -/
def row (ws : List Nat) (rights : List Bool) (cells : List String) : List String :=
  let cells := cells.map linesOf
  (List.range ((cells.map List.length).foldl max 1)).map fun i =>
    joined ((ws.zip (rights.zip cells)).map fun (w,right,lines) => cell w right (lines[i]?.getD []))

/-- The lines of a table. Titles stand to the left, whatever their cells do. -/
def lines (t : Table) : List String :=
  let ws := t.widths
  let border := joined (ws.map rule)
  let titles := joined ((ws.zip t.columns).map fun (w,c) => cell w false c.1.toList)
  border :: titles :: rule border.length :: t.rows.flatMap (row ws (t.columns.map (·.2))) ++ [border]

end Table
end ActionCatalog.Console

import Columnar.Cell
import Columnar.Text.Width

namespace Columnar

/-- Cells by row, the header being the first row. -/
structure Table where
  header : List String
  rows : List (List String)
  deriving DecidableEq, Repr

namespace Table

def cellLines (cell : String) : List String := cell.splitOn "\n"

def cellWidth (cell : String) : Nat := ((cellLines cell).map Text.width).foldl max 0

def widths (table : Table) : List Nat :=
  table.rows.foldl (fun ws row => ws.zipWith (fun w cell => max w (cellWidth cell)) row)
    (table.header.map fun cell => max 1 (cellWidth cell))

def spaces (n : Nat) : String := "".pushn ' ' n

def rule (widths : List Nat) : String :=
  "+" ++ String.join (widths.map fun w => "".pushn '-' (w + 2) ++ "+")

/-- One line of a row, cells without such a line being blank there. -/
def rowLine (widths : List Nat) (cells : List (List String)) (line : Nat) : String :=
  let shown := widths.zipWith (fun w lines =>
    let text := lines.getD line ""
    " " ++ text ++ spaces (w - Text.width text) ++ " |") cells
  "|" ++ String.join shown

def rowLines (widths : List Nat) (row : List String) : List String :=
  let cells := row.map cellLines
  let height := (cells.map List.length).foldl max 1
  (List.range height).map (rowLine widths cells)

def lines (table : Table) : List String :=
  let ws := table.widths
  rule ws :: rowLines ws table.header ++ rule ws ::
    (table.rows.map (rowLines ws)).flatten ++ [rule ws]

def text (table : Table) : String := "\n".intercalate table.lines

/-- The rows of columns side by side, as many as the first column has. -/
def transpose : List (List String) → List (List String)
  | [] => []
  | first :: rest =>
    (List.range first.length).map fun i => (first :: rest).map fun c => c.getD i ""

def ofColumns (columns : List (String × Column)) : Except Failure Table := do
  let texts ← columns.mapM (·.2.texts)
  return ⟨columns.map (·.1), transpose texts⟩

def ofChunks (name : String) (chunks : List Column) : Except Failure Table := do
  let texts ← chunks.mapM Column.texts
  return ⟨[name], texts.flatten.map ([·])⟩

end Table

end Columnar

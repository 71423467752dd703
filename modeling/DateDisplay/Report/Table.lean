import DateDisplay.Text.Width

/-!
# Tables

A table has rows of cells.  Every cell is padded to the width of its column, the last one too, and
bars stand between columns.  A cell with line breaks takes several lines, and so do the others of its
row.
-/

namespace DateDisplay

open Text

namespace Table

/-- The lines of a cell. -/
def cellLines (cell : Text) : List Text := splitOn [10] cell

/-- The width of a cell. -/
def cellWidth (cell : Text) : Nat := ((cellLines cell).map width).foldl max 0

/-- The widths of the columns, each that of its widest cell. -/
def columnWidths (rows : List (List Text)) : List Nat :=
  rows.foldl
    (fun ws row =>
      let cells := row.map cellWidth
      (List.range (max ws.length cells.length)).map fun i => max (ws.getD i 0) (cells.getD i 0))
    []

/-- The text padded to `w` columns. -/
def pad (w : Nat) (s : Text) : Text := s ++ spaces (w - width s)

/-- The lines of a row. -/
def rowLines (ws : List Nat) (row : List Text) : List Text :=
  let cells := row.map cellLines
  let height := (cells.map List.length).foldl max 0
  (List.range height).map fun i =>
    join (lit " | ") ((cells.zip ws).map fun (ls, w) => pad w (ls.getD i []))

/-- The table. -/
def render (rows : List (List Text)) : Text :=
  let ws := columnWidths rows
  rows.flatMap fun row => (rowLines ws row).flatMap (· ++ [10])

end Table

end DateDisplay

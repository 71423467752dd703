import DateDisplay.Report.Table
import Mathlib.Data.List.Basic
import Mathlib.Data.List.GetD

/-!
# How a table is laid out

`layOut` writes a table down column by column: the width of a column is that of the widest line in
it, and line `i` of a row has line `i` of every cell, filled up with spaces to the width of its
column, with bars between the cells.  `render_eq` says that this is how tables are rendered.

The widths are found row by row, so what is proved about them is proved for the widths after some
rows (`getD_foldl_widen`).
-/

namespace DateDisplay

open Text

namespace Table

/-- The width of the widest line in column `j`. -/
def columnWidth (rows : List (List Text)) (j : Nat) : Nat :=
  (rows.flatMap fun row => (splitOn [10] (row.getD j [])).map width).foldl max 0

/-- The number of lines of the cell that has the most. -/
def height (row : List Text) : Nat := (row.map fun cell => (splitOn [10] cell).length).foldl max 0

/-- Line `i` of a cell, filled up with spaces to a width. -/
def filled (w i : Nat) (cell : Text) : Text :=
  let line := (splitOn [10] cell).getD i []
  line ++ List.replicate (w - width line) 32

/-- Line `i` of a row: that of its cells, with bars between them. -/
def lineOf (rows : List (List Text)) (row : List Text) (i : Nat) : Text :=
  [32, 124, 32].intercalate (row.mapIdx fun j cell => filled (columnWidth rows j) i cell)

/-- The lines of a table, row by row, each with a line feed at its end. -/
def layOut (rows : List (List Text)) : Text :=
  rows.flatMap fun row => (List.range (height row)).flatMap fun i => lineOf rows row i ++ [10]

/-! ### The widths of columns -/

/-- The widths of the columns with one more row. -/
def widen (ws : List Nat) (row : List Text) : List Nat :=
  (List.range (max ws.length row.length)).map fun i =>
    max (ws.getD i 0) ((row.map cellWidth).getD i 0)

theorem columnWidths_eq (rows : List (List Text)) : columnWidths rows = rows.foldl widen [] := by
  rw [columnWidths]
  congr
  funext ws row
  simp only [widen, List.length_map]

theorem getD_map_cellWidth (row : List Text) (j : Nat) :
    (row.map cellWidth).getD j 0 = cellWidth (row.getD j []) :=
  List.getD_map row [] cellWidth

theorem getD_widen (ws : List Nat) (row : List Text) (j : Nat) :
    (widen ws row).getD j 0 = max (ws.getD j 0) (cellWidth (row.getD j [])) := by
  rw [← getD_map_cellWidth]
  by_cases hj : j < max ws.length row.length
  · rw [widen, List.getD_eq_getElem _ _ (by simpa using hj), List.getElem_map, List.getElem_range]
  · have hws : ws.length ≤ j := by omega
    have hrow : (row.map cellWidth).length ≤ j := by rw [List.length_map]; omega
    rw [List.getD_eq_default _ _ (by simp [widen]; omega), List.getD_eq_default _ _ hws,
      List.getD_eq_default _ _ hrow]
    rfl

theorem columnWidth_cons (row : List Text) (rows : List (List Text)) (j : Nat) :
    columnWidth (row :: rows) j = max (cellWidth (row.getD j [])) (columnWidth rows j) := by
  have hstart : ∀ (n : Nat) (ns : List Nat), ns.foldl max (max n 0) = max n (ns.foldl max 0) :=
    fun _ _ => List.foldl_assoc
  rw [columnWidth, List.flatMap_cons, List.foldl_append, ← Nat.max_zero (List.foldl max 0 _),
    hstart]
  rfl

theorem getD_foldl_widen (j : Nat) : ∀ (rows : List (List Text)) (ws : List Nat),
    (rows.foldl widen ws).getD j 0 = max (ws.getD j 0) (columnWidth rows j) := by
  intro rows
  induction rows with
  | nil => intro ws; exact (Nat.max_zero _).symm
  | cons row rows ih =>
    intro ws
    rw [List.foldl_cons, ih, getD_widen, columnWidth_cons, Nat.max_assoc]

theorem getD_columnWidths (rows : List (List Text)) (j : Nat) :
    (columnWidths rows).getD j 0 = columnWidth rows j := by
  rw [columnWidths_eq, getD_foldl_widen, List.getD_nil, Nat.zero_max]

theorem length_le_foldl_widen : ∀ (rows : List (List Text)) (ws : List Nat),
    ws.length ≤ (rows.foldl widen ws).length ∧
      ∀ row ∈ rows, row.length ≤ (rows.foldl widen ws).length := by
  intro rows
  induction rows with
  | nil => intro ws; exact ⟨Nat.le_refl _, by simp⟩
  | cons row rows ih =>
    intro ws
    have hlen : (widen ws row).length = max ws.length row.length := by simp [widen]
    obtain ⟨hws, hrows⟩ := ih (widen ws row)
    rw [hlen] at hws
    rw [List.foldl_cons]
    exact ⟨by omega, List.forall_mem_cons.mpr ⟨by omega, hrows⟩⟩

/-! ### Rows -/

theorem join_eq_intercalate (sep : Text) : ∀ ts : List Text, join sep ts = sep.intercalate ts
  | [] => rfl
  | [t] => by simp [join]
  | t :: u :: ts => by
    rw [join, join_eq_intercalate sep (u :: ts), List.intercalate_cons_cons]

theorem rowLines_eq {rows : List (List Text)} {row : List Text} (h : row ∈ rows) :
    rowLines (columnWidths rows) row = (List.range (height row)).map (lineOf rows row) := by
  have hlen : row.length ≤ (columnWidths rows).length := by
    rw [columnWidths_eq]
    exact (length_le_foldl_widen rows []).2 row h
  have hheight : ((row.map cellLines).map List.length).foldl max 0 = height row := by
    rw [height, List.map_map]
    rfl
  rw [rowLines]
  dsimp only
  rw [hheight]
  refine List.map_congr_left fun i _ => ?_
  rw [join_eq_intercalate, lineOf]
  refine congrArg _ (List.ext_getElem (by simp [hlen]) fun j _ hj => ?_)
  have hjr : j < row.length := by simpa using hj
  rw [List.getElem_map, List.getElem_zip, List.getElem_map, List.getElem_mapIdx,
    ← getD_columnWidths, List.getD_eq_getElem (columnWidths rows) 0 (by omega)]
  rfl

/-- **A table is rendered as it is laid out.** -/
theorem render_eq (rows : List (List Text)) : render rows = layOut rows := by
  rw [render, layOut]
  refine List.flatMap_congr fun row h => ?_
  rw [rowLines_eq h, List.flatMap_map]

end Table

end DateDisplay

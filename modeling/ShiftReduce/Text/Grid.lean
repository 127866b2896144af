import ShiftReduce.Text.Blank
import ShiftReduce.Text.Padded

/-!
# Grids

A grid is printed as lines of cells in columns: a heading line with a label for each column, and one
line for each row, which begins with the number of the row. A column is as wide as its widest cell,
two spaces stand in front of every cell but the first, and no line ends in blanks.
-/

set_option autoImplicit false

namespace ShiftReduce.Text

/-- A table of texts with a label for each column and numbered rows. -/
structure Grid where
  /-- The heading of the row numbers. -/
  corner : String
  /-- The labels of the columns. -/
  labels : List String
  /-- The rows, each with one cell for each column. -/
  rows : List (List String)
deriving DecidableEq, Inhabited

namespace Grid

/-- The width of the column of row numbers: the last number has the most digits. -/
def cornerWidth (grid : Grid) : Nat :=
  max (toString (grid.rows.length - 1)).length grid.corner.length

/-- The widths of the columns. -/
def widths (grid : Grid) : List Nat :=
  grid.rows.foldl (fun widths row => widths.zipWith max (row.map String.length))
    (grid.labels.map String.length)

/-- One line of a grid whose columns have the given widths, that of the row numbers first. -/
def line (cornerWidth : Nat) (widths : List Nat) (first : String) (cells : List String) : String :=
  trimEnd <| padRight cornerWidth first ++
    String.join (cells.zipWith (fun cell width => "  " ++ padRight width cell) widths)

/-- The lines of a grid, heading first. -/
def lines (grid : Grid) : List String :=
  let render := line grid.cornerWidth grid.widths
  render grid.corner grid.labels ::
    grid.rows.zipIdx.map fun (row, number) => render (toString number) row

end Grid

end ShiftReduce.Text

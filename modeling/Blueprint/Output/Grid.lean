import Blueprint.Text.Width

/-! # Aligned rows

Rows of cells are written so that every column of cells starts at the same display
column. The last cell of a row is not padded.
-/

namespace Blueprint.Output.Grid

/-- Display columns between the widest cell and the next one. -/
def gap : Nat := 1

/-- The larger of the entries at each place. -/
def widen : List Nat → List Nat → List Nat
  | [], bs => bs
  | as, [] => as
  | a :: as, b :: bs => Nat.max a b :: widen as bs

/-- The widths of the cells of a row that another cell follows. -/
def paddedWidths (width : String → Nat) (row : List String) : List Nat :=
  row.dropLast.map width

/-- The width of each column of cells. -/
def widths (width : String → Nat) (rows : List (List String)) : List Nat :=
  (rows.map (paddedWidths width)).foldl widen []

/-- A row with each cell but the last padded to its column. -/
def line (width : String → Nat) : List Nat → List String → String
  | _, [] => ""
  | _, [cell] => cell
  | [], cell :: next :: rest => cell ++ line width [] (next :: rest)
  | w :: ws, cell :: next :: rest =>
    cell ++ "".pushn ' ' (w - width cell + gap) ++ line width ws (next :: rest)

/-- The lines of the rows. -/
def render (width : String → Nat) (rows : List (List String)) : List String :=
  rows.map (line width (widths width rows))

end Blueprint.Output.Grid

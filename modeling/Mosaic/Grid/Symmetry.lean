import Mosaic.Grid.Basic

/-!
# Flips, turns and the transpose

The eight symmetries of a rectangle acting on grids. A turn goes counter-clockwise by quarters, any
whole number of them; each operation is given by the cell that a position of the result shows.
-/

namespace Mosaic

/-- `rows` is the vertical axis, number 0, and `cols` the horizontal one, number 1. -/
inductive Axis
  | rows
  | cols
deriving DecidableEq, Repr

namespace Axis

def number : Axis → Nat
  | rows => 0
  | cols => 1

def other : Axis → Axis
  | rows => cols
  | cols => rows

end Axis

namespace Grid

/-- The order of the rows reversed. -/
def flipRows (g : Grid) : Grid :=
  ofFn g.rows g.cols g.rows_pos g.cols_pos fun r c _ hc => g.get (g.rows - 1 - r) c (by omega) hc

/-- The order of the columns reversed. -/
def flipCols (g : Grid) : Grid :=
  ofFn g.rows g.cols g.rows_pos g.cols_pos fun r c hr _ => g.get r (g.cols - 1 - c) hr (by omega)

def flip (g : Grid) : Axis → Grid
  | .rows => g.flipRows
  | .cols => g.flipCols

/-- Rows become columns. -/
def transpose (g : Grid) : Grid :=
  ofFn g.cols g.rows g.cols_pos g.rows_pos fun r c hr hc => g.get c r hc hr

/-- A quarter turn counter-clockwise. -/
def quarterTurn (g : Grid) : Grid :=
  ofFn g.cols g.rows g.cols_pos g.rows_pos fun r c _ hc => g.get c (g.cols - 1 - r) hc (by omega)

/-- Both orders reversed. -/
def halfTurn (g : Grid) : Grid :=
  ofFn g.rows g.cols g.rows_pos g.cols_pos fun r c _ _ =>
    g.get (g.rows - 1 - r) (g.cols - 1 - c) (by omega) (by omega)

/-- A quarter turn clockwise. -/
def backTurn (g : Grid) : Grid :=
  ofFn g.cols g.rows g.cols_pos g.rows_pos fun r c hr _ => g.get (g.rows - 1 - c) r (by omega) hr

/-- `k` quarter turns counter-clockwise; negative ones go clockwise. -/
def turn (g : Grid) (k : Int) : Grid :=
  if k % 4 = 0 then g
  else if k % 4 = 1 then g.quarterTurn
  else if k % 4 = 2 then g.halfTurn
  else g.backTurn

end Grid
end Mosaic

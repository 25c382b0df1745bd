import Mosaic.Grid.Basic

/-!
# Crops

A cell is bright over a threshold when its color exceeds it, and so is a row or a column that holds
such a cell. The inner crop is the bounding box of the bright cells, the outer crop keeps the bright
rows and the bright columns alone.
-/

namespace Mosaic
namespace Grid

def rowExceeds (g : Grid) (threshold : Color) (r : Fin g.rows) : Bool :=
  Nat.any g.cols fun c hc => threshold < g.get r c r.isLt hc

def colExceeds (g : Grid) (threshold : Color) (c : Fin g.cols) : Bool :=
  Nat.any g.rows fun r hr => threshold < g.get r c hr c.isLt

def brightRows (g : Grid) (threshold : Color) : List (Fin g.rows) :=
  (List.finRange g.rows).filter (g.rowExceeds threshold)

def brightCols (g : Grid) (threshold : Color) : List (Fin g.cols) :=
  (List.finRange g.cols).filter (g.colExceeds threshold)

/-- The rows from `top` to `bottom` and the columns from `left` to `right`, all inclusive. -/
def box (g : Grid) (top bottom : Fin g.rows) (left right : Fin g.cols) : Grid :=
  ofFn (bottom - top + 1) (right - left + 1) (Nat.succ_pos _) (Nat.succ_pos _) fun r c hr hc =>
    g.get (top + r) (left + c) (by omega) (by omega)

/-- The least box that holds every cell brighter than `threshold`, or the whole grid when there is
none. -/
def cropInner (g : Grid) (threshold : Color) : Grid :=
  let rows := g.brightRows threshold
  let cols := g.brightCols threshold
  match rows.head?, rows.getLast?, cols.head?, cols.getLast? with
  | some top, some bottom, some left, some right => g.box top bottom left right
  | _, _, _, _ => g

/-- The cells where a chosen row meets a chosen column. -/
def select (g : Grid) (rows : Array (Fin g.rows)) (cols : Array (Fin g.cols))
    (hrows : 0 < rows.size) (hcols : 0 < cols.size) : Grid :=
  ofFn rows.size cols.size hrows hcols fun r c _ _ =>
    g.get rows[r] cols[c] rows[r].isLt cols[c].isLt

/-- The rows and the columns that hold a cell brighter than `threshold`, or nothing when no cell is. -/
def cropOuter? (g : Grid) (threshold : Color) : Option Grid :=
  let rows := (g.brightRows threshold).toArray
  let cols := (g.brightCols threshold).toArray
  if h : 0 < rows.size ∧ 0 < cols.size then some (g.select rows cols h.1 h.2) else none

end Grid
end Mosaic

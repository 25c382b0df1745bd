import Mosaic.Grid.Basic
import Mosaic.Words

/-!
# Places in words

A grid keeps its cells in one stretch. The place of a cell, the ends of a row and the number of cells of a
new grid are computed in words, where `Grid.read`, `Grid.readRow` and `Grid.readCol` count without a bound.
There is no result where that computation stops, and where a place lies behind the last cell.
-/

namespace Mosaic
namespace Grid

/-- The cells take up at most half of the places that a word can name. -/
def Addressable (g : Grid) : Prop := 2 * g.cells.size ≤ wordLimit

instance (g : Grid) : Decidable g.Addressable := inferInstanceAs (Decidable (_ ≤ _))

/-- The place of row `r` and column `c` among the cells. -/
def placeOn (w : WordArithmetic) (g : Grid) (r c : Nat) : Option Nat := do w.add (← w.mul r g.cols) c

/-- The color at row `r` and column `c`, which must be in range. -/
def cellOn (w : WordArithmetic) (g : Grid) (r c : Nat) : Option Color :=
  if r < g.rows ∧ c < g.cols then (g.placeOn w r c).bind fun i => g.cells[i]? else none

/-- The color at row `r` and column `c` if that is in range. -/
def tryCellOn (w : WordArithmetic) (g : Grid) (r c : Nat) : Option (Option Color) :=
  if r < g.rows ∧ c < g.cols then (g.placeOn w r c).bind fun i => g.cells[i]?.map some else some none

/-- The colors between the ends of row `r`. -/
def rowOn (w : WordArithmetic) (g : Grid) (r : Nat) : Option (List Color) := do
  let start ← w.mul r g.cols
  let stop ← w.mul (← w.add r 1) g.cols
  if start ≤ stop ∧ stop ≤ g.cells.size then some (g.cells.extract start stop).toList else none

/-- The colors of column `c`, found row by row. -/
def colOn (w : WordArithmetic) (g : Grid) (c : Nat) : Option (List Color) :=
  (List.range g.rows).mapM fun r => (g.placeOn w r c).bind fun i => g.cells[i]?

/-- A one-colored grid. There is no result, either, where it would have more cells than a grid can be given, or not
a cell for every row and column. -/
def filledOn (w : WordArithmetic) (rows cols : Nat) (color : Color) : Option (Except GridError Grid) :=
  if 0 < rows ∧ 0 < cols ∧ color.InPalette then do
    let size ← w.mul rows cols
    if size = rows * cols ∧ size < cellLimit then some (filled rows cols color) else none
  else some (filled rows cols color)

def blankOn (w : WordArithmetic) (rows cols : Nat) : Option (Except GridError Grid) :=
  filledOn w rows cols Color.background

end Grid
end Mosaic

import Mosaic.Grid.Symmetry

/-!
# Periods and symmetry

The period of a grid along an axis is the least positive distance at which its lines repeat; it need
not divide their number. A grid is symmetric when a flip, the half turn or the transpose leaves it as
it is.
-/

namespace Mosaic
namespace Grid

/-- The number of rows, or of columns. -/
def lineCount (g : Grid) : Axis → Nat
  | .rows => g.rows
  | .cols => g.cols

/-- Lines `i` and `j` across `axis` have the same colors. -/
def sameLines (g : Grid) : (axis : Axis) → (i j : Nat) → i < g.lineCount axis →
    j < g.lineCount axis → Bool
  | .rows, i, j, hi, hj => Nat.all g.cols fun c hc => g.get i c hi hc == g.get j c hj hc
  | .cols, i, j, hi, hj => Nat.all g.rows fun r hr => g.get r i hr hi == g.get r j hr hj

/-- Every line equals the one `p` further on, where there is one. -/
def repeatsAt (g : Grid) (axis : Axis) (p : Nat) : Bool :=
  Nat.all (g.lineCount axis - p) fun i hi => g.sameLines axis i (i + p) (by omega) (by omega)

/-- The least positive distance at which the lines repeat; at the latest, their number. -/
def period (g : Grid) (axis : Axis) : Nat :=
  ((List.range' 1 (g.lineCount axis - 1)).find? (g.repeatsAt axis)).getD (g.lineCount axis)

def isSymmetric (g : Grid) : Bool :=
  g == g.flipRows || g == g.flipCols || g == g.halfTurn || g == g.transpose

end Grid
end Mosaic

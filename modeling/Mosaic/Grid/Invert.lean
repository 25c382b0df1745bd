import Mosaic.Grid.Basic

/-!
# Inversion

Figure and ground change places.
-/

namespace Mosaic
namespace Grid

/-- Background cells take `color`, all others become background. -/
def invert (g : Grid) (color : Color) : Grid :=
  ofFn g.rows g.cols g.rows_pos g.cols_pos fun r c hr hc =>
    if g.get r c hr hc = Color.background then color else Color.background

end Grid
end Mosaic

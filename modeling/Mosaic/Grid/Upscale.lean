import Mosaic.Grid.Basic
import Mosaic.Words

/-!
# Upscaling

Every cell becomes a block of its color. The numbers of rows and columns are scaled without a bound; words
suffice for a scaled grid whose cells they can count (`Grid.mul_factors`).
-/

namespace Mosaic
namespace Grid

theorem div_lt_of_lt_scaled {i n k : Nat} (h : i < n * k) : i / k < n :=
  Nat.div_lt_of_lt_mul (Nat.mul_comm n k ▸ h)

/-- Every cell drawn as `a` rows of `b` cells. -/
def scale (g : Grid) (a b : Nat) (ha : 0 < a) (hb : 0 < b) : Grid :=
  ofFn (g.rows * a) (g.cols * b) (Nat.mul_pos g.rows_pos ha) (Nat.mul_pos g.cols_pos hb)
    fun r c hr hc => g.get (r / a) (c / b) (div_lt_of_lt_scaled hr) (div_lt_of_lt_scaled hc)

/-- The grid scaled by `a` along its rows and `b` along its columns; there is none for a zero
factor. -/
def upscale? (g : Grid) (a b : Nat) : Option Grid :=
  if ha : 0 < a then
    if hb : 0 < b then some (g.scale a b ha hb) else none
  else none

end Grid
end Mosaic

import Mosaic.Grid.Symmetry

/-!
# Rolls

A roll shifts all cells along one axis; what leaves at one edge comes back at the opposite one. The length of
the axis is a number without a bound here; a signed word of 32 bits holds it up to `2 ^ 31` (`Grid.wrap32_eq`).
-/

namespace Mosaic
namespace Grid

/-- `shift` as a number of positions among `n`, going round as often as needed. -/
def wrap (shift : Int) (n : Nat) : Nat := (shift % n).toNat

theorem wrap_lt (shift : Int) {n : Nat} (h : 0 < n) : wrap shift n < n := by
  have := Int.emod_lt_of_pos shift (Int.natCast_pos.mpr h)
  have := Int.emod_nonneg shift (by omega : (n : Int) ≠ 0)
  unfold wrap
  omega

/-- The number of positions, where `n` is made a signed word of 32 bits first. -/
def wrap32 (shift : Int32) (n : Nat) : Nat := (shift.toInt % (Int32.ofNat n).toInt).toNat

/-- That makes no difference for an axis of less than `2 ^ 31` cells. -/
theorem wrap32_eq {shift : Int32} {n : Nat} (h : n < 2147483648) : wrap32 shift n = wrap shift.toInt n := by
  rw [wrap32, wrap, Int32.toInt_ofNat_of_lt h]

/-- Every cell moved by `shift` positions along `axis`, down or to the right for a positive one. -/
def roll (g : Grid) (shift : Int) : Axis → Grid
  | .rows =>
    let s := wrap shift g.rows
    ofFn g.rows g.cols g.rows_pos g.cols_pos fun r c _ hc =>
      g.get ((r + g.rows - s) % g.rows) c (Nat.mod_lt _ g.rows_pos) hc
  | .cols =>
    let s := wrap shift g.cols
    ofFn g.rows g.cols g.rows_pos g.cols_pos fun r c hr _ =>
      g.get r ((c + g.cols - s) % g.cols) hr (Nat.mod_lt _ g.cols_pos)

end Grid
end Mosaic

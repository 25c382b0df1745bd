import Mosaic.Proofs.Periods

/-!
# Laws of rolls

Positions along an axis form a cycle. `wrap i n` is where position `i` of the cycle of `n` lies, and a roll by
`a` shows there the line that was `a` lines before (`along_roll`). So the laws of rolls are those of remainders:
a roll of a roll takes the remainder of a remainder (`wrap_wrap_sub`), and counted from the other end a position
goes the other way (`sub_wrap`).
-/

namespace Mosaic
namespace Grid

variable {g : Grid} {axis axis' : Axis} {a b i : Int} {n r c k : Nat}

/-! ### Positions of a cycle -/

theorem natCast_wrap (hn : 0 < n) : (wrap i n : Int) = i % n := Int.toNat_of_nonneg (Int.emod_nonneg i (by omega))

/-- Numbers with the same remainder are one position. -/
theorem wrap_congr (h : a % n = b % n) : wrap a n = wrap b n := congrArg Int.toNat h

theorem wrap_natCast (hr : r < n) : wrap r n = r := by
  rw [wrap, ← Int.natCast_emod, Nat.mod_eq_of_lt hr, Int.toNat_natCast]

theorem wrap_wrap_sub (hn : 0 < n) : wrap (wrap i n - a) n = wrap (i - a) n := by
  refine wrap_congr ?_
  rw [natCast_wrap hn, Int.sub_emod, Int.emod_emod, ← Int.sub_emod]

/-- A shift and the shift back. -/
theorem wrap_wrap_add_sub (hr : r < n) : wrap (wrap (r + a) n - a) n = r := by
  rw [wrap_wrap_sub (Nat.zero_lt_of_lt hr), Int.add_sub_cancel, wrap_natCast hr]

/-- What a roll computes from a position and its shift. -/
theorem add_sub_wrap_mod (hn : 0 < n) : (r + n - wrap a n) % n = wrap (r - a) n := by
  have hlt := wrap_lt a hn
  have hcast : ((r + n - wrap a n : Nat) : Int) = r - a % n + n := by
    rw [← natCast_wrap hn]
    omega
  rw [← Int.natCast_inj, Int.natCast_emod, hcast, natCast_wrap hn, Int.add_emod_right, Int.sub_emod,
    Int.emod_emod, ← Int.sub_emod]

theorem sub_wrap (hn : 0 < n) : n - 1 - wrap i n = wrap ((n : Int) - 1 - i) n := by
  have hlt := wrap_lt i hn
  have hlast : n - 1 - wrap i n < n := by omega
  have hcast : ((n - 1 - wrap i n : Nat) : Int) = (n : Int) - 1 - i % n := by
    rw [← natCast_wrap hn]
    omega
  rw [← wrap_natCast hlast, hcast]
  refine wrap_congr ?_
  rw [Int.sub_emod, Int.emod_emod, ← Int.sub_emod]

/-! ### Lines after a roll -/

theorem lineCount_roll : (g.roll a axis).lineCount axis' = g.lineCount axis' := by
  cases axis <;> cases axis' <;> rfl

theorem along_roll (hr : r < g.lineCount axis) :
    (g.roll a axis).along axis r k = g.along axis (wrap (r - a) (g.lineCount axis)) k := by
  rw [← add_sub_wrap_mod lineCount_pos]
  cases axis with
  | rows =>
    refine get?_roll_rows.trans (ite_eq_left_iff.mpr fun hout => ?_)
    exact (get?_of_not_lt fun h => hout ⟨hr, h.2⟩).symm
  | cols =>
    refine get?_roll_cols.trans (ite_eq_left_iff.mpr fun hout => ?_)
    exact (get?_of_not_lt fun h => hout ⟨h.1, hr⟩).symm

theorem get?_roll_rows_of_lt (hr : r < g.rows) :
    (g.roll a .rows).get? r c = g.get? (wrap (r - a) g.rows) c :=
  along_roll (show r < g.lineCount .rows from hr)

theorem get?_roll_cols_of_lt (hc : c < g.cols) :
    (g.roll a .cols).get? r c = g.get? r (wrap (c - a) g.cols) :=
  along_roll (show c < g.lineCount .cols from hc)

/-! ### Laws -/

theorem roll_roll : (g.roll a axis).roll b axis = g.roll (a + b) axis := by
  refine ext_along axis (shape_roll.trans (shape_roll.trans shape_roll.symm)) fun r hr k => ?_
  simp only [lineCount_roll] at hr
  have hroll : r < (g.roll a axis).lineCount axis := Nat.lt_of_lt_of_eq hr lineCount_roll.symm
  have hback : wrap (wrap (r - b) (g.lineCount axis) - a) (g.lineCount axis) =
      wrap (r - (a + b)) (g.lineCount axis) := by
    rw [wrap_wrap_sub lineCount_pos]
    congr 1
    omega
  rw [along_roll hroll, lineCount_roll, along_roll (wrap_lt _ lineCount_pos), hback, along_roll hr]

/-- Whole times round the axis and every line is where it was. -/
theorem roll_mul_lineCount : g.roll (i * g.lineCount axis) axis = g := by
  refine ext_along axis shape_roll fun r hr k => ?_
  rw [lineCount_roll] at hr
  have hround : wrap (r - i * g.lineCount axis) (g.lineCount axis) = r :=
    (wrap_congr (Int.sub_mul_emod_self_right ..)).trans (wrap_natCast hr)
  rw [along_roll hr, hround]

theorem flip_roll : (g.roll a axis).flip axis = (g.flip axis).roll (-a) axis := by
  refine ext_along axis ((shape_flip.trans shape_roll).trans (shape_roll.trans shape_flip).symm) fun r hr k => ?_
  simp only [lineCount_flip, lineCount_roll] at hr
  have hroll : r < (g.roll a axis).lineCount axis := Nat.lt_of_lt_of_eq hr lineCount_roll.symm
  have hflip : r < (g.flip axis).lineCount axis := Nat.lt_of_lt_of_eq hr lineCount_flip.symm
  have hmirror : wrap ((g.lineCount axis - 1 - r : Nat) - a) (g.lineCount axis) =
      g.lineCount axis - 1 - wrap (r - -a) (g.lineCount axis) := by
    rw [sub_wrap lineCount_pos]
    congr 1
    omega
  rw [along_flip hroll, lineCount_roll, along_roll (Nat.sub_one_sub_lt_of_lt hr), hmirror,
    along_roll hflip, lineCount_flip, along_flip (wrap_lt _ lineCount_pos)]

theorem roll_rows_roll_cols : (g.roll a .rows).roll b .cols = (g.roll b .cols).roll a .rows := by
  refine ext_get?_of_lt rfl fun r (hr : r < g.rows) c (hc : c < g.cols) => ?_
  calc ((g.roll a .rows).roll b .cols).get? r c
      = (g.roll a .rows).get? r (wrap (c - b) g.cols) := get?_roll_cols_of_lt hc
    _ = g.get? (wrap (r - a) g.rows) (wrap (c - b) g.cols) := get?_roll_rows_of_lt hr
    _ = (g.roll b .cols).get? (wrap (r - a) g.rows) c := (get?_roll_cols_of_lt hc).symm
    _ = ((g.roll b .cols).roll a .rows).get? r c := (get?_roll_rows_of_lt (g := g.roll b .cols) hr).symm

theorem roll_roll_other : (g.roll a axis).roll b axis.other = (g.roll b axis.other).roll a axis := by
  cases axis with
  | rows => exact roll_rows_roll_cols
  | cols => exact roll_rows_roll_cols.symm

/-- A line goes forward by the shift. -/
theorem along_roll_add (hr : r < g.lineCount axis) :
    (g.roll a axis).along axis (wrap (r + a) (g.lineCount axis)) k = g.along axis r k := by
  rw [along_roll (wrap_lt _ lineCount_pos), wrap_wrap_add_sub hr]

/-- Rolls act on an axis as the whole numbers act on a cycle: line `r` comes to lie `a` lines further on, rolls
add up, whole times round change nothing, rolls along the two axes do not meet, and a flip turns a roll
round. -/
theorem roll_laws (g : Grid) (axis : Axis) (a b : Int) :
    (∀ (r : Fin (g.lineCount axis)) (k : Nat),
      (g.roll a axis).along axis (wrap (r + a) (g.lineCount axis)) k = g.along axis r k) ∧
    (g.roll a axis).roll b axis = g.roll (a + b) axis ∧
    g.roll (a * g.lineCount axis) axis = g ∧
    (g.roll a axis).roll b axis.other = (g.roll b axis.other).roll a axis ∧
    (g.roll a axis).flip axis = (g.flip axis).roll (-a) axis :=
  ⟨fun r _ => along_roll_add r.isLt, roll_roll, roll_mul_lineCount, roll_roll_other, flip_roll⟩

/-- A row of three rolled by five, which is twice round less one, and back by five. -/
example :
    let g : Grid := ⟨1, 3, #[1, 2, 3], by decide, by decide, rfl⟩
    g.roll 5 .cols = ⟨1, 3, #[2, 3, 1], by decide, by decide, rfl⟩ ∧ g.roll 5 .cols = g.roll (-1) .cols ∧
      (g.roll 5 .cols).roll (-5) .cols = g := by
  decide +kernel

end Grid
end Mosaic

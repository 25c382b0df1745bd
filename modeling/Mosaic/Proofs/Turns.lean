import Mosaic.Proofs.Geometry

/-!
# Laws of flips and turns

Flips undo themselves, and a quarter turn is a transpose followed by a flip. So all turns are made of flips
and the transpose, which flips pass through by changing their axis, and the laws of turns follow from three
facts about single cells: `flipRows_flipRows`, `flipRows_flipCols` and `quarterTurn_eq`. A turn by one more
quarter is a turn followed by a quarter turn (`turn_add_one`); hence turns add up (`turn_turn`).
-/

namespace Mosaic
namespace Grid

variable {g : Grid} {axis : Axis} {a b k : Int}

/-! ### Reads -/

section

variable {r c : Nat}

theorem get_flipRows (hr : r < g.rows) (hc : c < g.cols) :
    g.flipRows.get r c hr hc = g.get (g.rows - 1 - r) c (Nat.sub_one_sub_lt_of_lt hr) hc := get_ofFn

theorem get_flipCols (hr : r < g.rows) (hc : c < g.cols) :
    g.flipCols.get r c hr hc = g.get r (g.cols - 1 - c) hr (Nat.sub_one_sub_lt_of_lt hc) := get_ofFn

theorem get_halfTurn (hr : r < g.rows) (hc : c < g.cols) : g.halfTurn.get r c hr hc =
    g.get (g.rows - 1 - r) (g.cols - 1 - c) (Nat.sub_one_sub_lt_of_lt hr) (Nat.sub_one_sub_lt_of_lt hc) := get_ofFn

theorem get_quarterTurn (hr : r < g.cols) (hc : c < g.rows) :
    g.quarterTurn.get r c hr hc = g.get c (g.cols - 1 - r) hc (Nat.sub_one_sub_lt_of_lt hr) := get_ofFn

theorem get_transpose (hr : r < g.cols) (hc : c < g.rows) :
    g.transpose.get r c hr hc = g.get c r hc hr := get_ofFn

end

/-! ### Flips -/

theorem flipRows_flipRows : g.flipRows.flipRows = g := by
  refine ext_get rfl rfl fun r c (hr : r < g.rows) (hc : c < g.cols) => ?_
  have hback : g.rows - 1 - (g.rows - 1 - r) = r := by omega
  exact (get_flipRows (g := g.flipRows) hr hc).trans ((get_flipRows _ hc).trans (get_congr hback rfl))

theorem flipCols_flipCols : g.flipCols.flipCols = g := by
  rw [← transpose_inj, transpose_flipCols, transpose_flipCols, flipRows_flipRows]

theorem flip_flip : (g.flip axis).flip axis = g := by
  cases axis with
  | rows => exact flipRows_flipRows
  | cols => exact flipCols_flipCols

theorem flipRows_flipCols : g.flipRows.flipCols = g.halfTurn :=
  ext_get rfl rfl fun r c (hr : r < g.rows) (hc : c < g.cols) =>
    (get_flipCols (g := g.flipRows) hr hc).trans ((get_flipRows hr _).trans (get_halfTurn hr hc).symm)

theorem flipCols_flipRows : g.flipCols.flipRows = g.halfTurn := by
  rw [← transpose_inj, transpose_flipRows, transpose_flipCols, flipRows_flipCols, transpose_halfTurn]

/-! ### Quarter turns -/

theorem quarterTurn_eq : g.quarterTurn = g.transpose.flipRows :=
  ext_get rfl rfl fun r c (hr : r < g.cols) (hc : c < g.rows) =>
    (get_quarterTurn hr hc).trans ((get_flipRows (g := g.transpose) hr hc).trans (get_transpose _ hc)).symm

theorem quarterTurn_eq_transpose : g.quarterTurn = g.flipCols.transpose := by
  rw [quarterTurn_eq, transpose_flipCols]

theorem backTurn_eq : g.backTurn = g.transpose.flipCols := by
  rw [← transpose_inj, transpose_backTurn, quarterTurn_eq, transpose_flipCols]

theorem quarterTurn_quarterTurn : g.quarterTurn.quarterTurn = g.halfTurn := by
  rw [quarterTurn_eq (g := g), quarterTurn_eq_transpose, flipRows_flipCols, transpose_halfTurn,
    transpose_transpose]

theorem halfTurn_quarterTurn : g.halfTurn.quarterTurn = g.backTurn := by
  rw [quarterTurn_eq, transpose_halfTurn, ← flipCols_flipRows, flipRows_flipRows, backTurn_eq]

theorem backTurn_quarterTurn : g.backTurn.quarterTurn = g := by
  rw [backTurn_eq, quarterTurn_eq_transpose, flipCols_flipCols, transpose_transpose]

/-! ### Turns -/

theorem turn_zero : g.turn 0 = g := rfl

theorem turn_one : g.turn 1 = g.quarterTurn := rfl

theorem turn_two : g.turn 2 = g.halfTurn := rfl

theorem turn_add_one : g.turn (k + 1) = (g.turn k).quarterTurn := by
  have hk : k % 4 = 0 ∨ k % 4 = 1 ∨ k % 4 = 2 ∨ k % 4 = 3 := by omega
  rcases hk with hk | hk | hk | hk
  · have hnext : (k + 1) % 4 = 1 := by omega
    simp [turn, hk, hnext]
  · have hnext : (k + 1) % 4 = 2 := by omega
    simp [turn, hk, hnext, quarterTurn_quarterTurn]
  · have hnext : (k + 1) % 4 = 3 := by omega
    simp [turn, hk, hnext, halfTurn_quarterTurn]
  · have hnext : (k + 1) % 4 = 0 := by omega
    simp [turn, hk, hnext, backTurn_quarterTurn]

theorem turn_turn_natCast (n : Nat) : (g.turn a).turn n = g.turn (a + n) := by
  induction n with
  | zero => exact turn_zero.trans (congrArg g.turn (Int.add_zero a).symm)
  | succ n ih => rw [Int.natCast_succ, turn_add_one, ih, ← Int.add_assoc, turn_add_one]

theorem turn_turn : (g.turn a).turn b = g.turn (a + b) := by
  -- turns by the remainder of `b`, a natural number, are those by `b`
  obtain ⟨n, hn⟩ : ∃ n : Nat, (n : Int) = b % 4 := ⟨(b % 4).toNat, by omega⟩
  rw [turn_congr (k := b) (l := n) (by omega), turn_turn_natCast]
  exact turn_congr (by omega)

/-- The symmetries of a grid compose as those of a square do, whatever the shape of the grid: turns add up,
flips and the transpose undo themselves, the half turn is both flips in either order, a quarter turn is a
transpose and a flip, and the transpose changes the axis of a flip and the sense of a turn. -/
theorem symmetry_laws (g : Grid) (axis : Axis) (a b : Int) :
    (g.turn a).turn b = g.turn (a + b) ∧
    (g.flip axis).flip axis = g ∧ g.transpose.transpose = g ∧
    g.halfTurn = (g.flip .rows).flip .cols ∧ g.halfTurn = (g.flip .cols).flip .rows ∧
    g.halfTurn = g.turn 2 ∧
    g.turn 1 = g.transpose.flip .rows ∧ g.turn 1 = (g.flip .cols).transpose ∧
    (g.flip .rows).transpose = g.transpose.flip .cols ∧
    (g.turn a).transpose = g.transpose.turn (-a) :=
  ⟨turn_turn, flip_flip, transpose_transpose, flipRows_flipCols.symm, flipCols_flipRows.symm, turn_two.symm,
    turn_one.trans quarterTurn_eq, turn_one.trans quarterTurn_eq_transpose, transpose_flipRows, transpose_turn⟩

/-- A row of three, turned the other way round and back. -/
example :
    let g : Grid := ⟨1, 3, #[1, 2, 3], by decide, by decide, rfl⟩
    g.turn (-1) = ⟨3, 1, #[1, 2, 3], by decide, by decide, rfl⟩ ∧ (g.turn (-1)).turn 3 = g.turn 2 ∧
      g.turn 2 = ⟨1, 3, #[3, 2, 1], by decide, by decide, rfl⟩ := by
  decide

end Grid
end Mosaic

import Mosaic.Trial

/-!
# Cells after a block is laid over a grid

`get?_withBlock` says what every cell is after `Grid.withBlock`, and `get?_placeTile` the same for a
tile of the working grid's shape: the cells of tile `(x, y)` are those whose row and column, divided by
the tile's, are `x` and `y`.
-/

namespace Mosaic
namespace Grid

variable {g h canvas working tile out : Grid} {row col x y r c : Nat}

/-! ### Reading cells -/

theorem get?_of_not_lt (h : ¬(r < g.rows ∧ c < g.cols)) : g.get? r c = none := dif_neg h

theorem get?_eq_some_iff {color : Color} :
    g.get? r c = some color ↔ ∃ hr hc, g.get r c hr hc = color := by
  constructor
  · intro h
    have hin : r < g.rows ∧ c < g.cols := Decidable.byContradiction fun hout => by
      cases (get?_of_not_lt hout).symm.trans h
    exact ⟨hin.1, hin.2, Option.some.inj ((get?_eq_some hin.1 hin.2).symm.trans h)⟩
  · rintro ⟨hr, hc, rfl⟩
    exact get?_eq_some hr hc

/-- Two grids of one shape in which every position reads the same are one. -/
theorem ext_get? (hshape : g.shape = h.shape) (hget : ∀ r c, g.get? r c = h.get? r c) : g = h := by
  obtain ⟨hrows, hcols⟩ := Prod.mk.inj hshape
  refine ext_get hrows hcols fun r c hr hc => ?_
  have key := hget r c
  rw [get?_eq_some hr hc, get?_eq_some (hrows ▸ hr) (hcols ▸ hc)] at key
  exact Option.some.inj key

/-- Positions outside both grids need no look. -/
theorem ext_get?_of_lt (hshape : g.shape = h.shape)
    (hget : ∀ r < g.rows, ∀ c < g.cols, g.get? r c = h.get? r c) : g = h := by
  refine ext_get? hshape fun r c => ?_
  by_cases hin : r < g.rows ∧ c < g.cols
  · exact hget r hin.1 c hin.2
  · obtain ⟨hrows, hcols⟩ := Prod.mk.inj hshape
    exact (get?_of_not_lt hin).trans (get?_of_not_lt (hrows ▸ hcols ▸ hin)).symm

theorem get?_ofFn {rows cols hrows hcols f} :
    (ofFn rows cols hrows hcols f).get? r c =
      if h : r < rows ∧ c < cols then some (f r c h.1 h.2) else none := by
  by_cases h : r < rows ∧ c < cols
  · rw [dif_pos h]
    exact (get?_eq_some h.1 h.2).trans (congrArg some get_ofFn)
  · rw [dif_neg h]
    exact get?_of_not_lt h

theorem get?_replicate {rows cols hrows hcols} {color : Color} :
    (replicate rows cols hrows hcols color).get? r c =
      if r < rows ∧ c < cols then some color else none := by
  by_cases h : r < rows ∧ c < cols
  · rw [if_pos h]
    exact (get?_eq_some h.1 h.2).trans (by simp [get, replicate])
  · rw [if_neg h]
    exact get?_of_not_lt h

/-! ### Blocks -/

/-- A cell of the block shows the tile, any other cell what it showed before. -/
theorem get?_withBlock {hr : row + tile.rows ≤ g.rows} {hc : col + tile.cols ≤ g.cols} :
    (g.withBlock row col tile hr hc).get? r c =
      if (row ≤ r ∧ r < row + tile.rows) ∧ col ≤ c ∧ c < col + tile.cols then
        tile.get? (r - row) (c - col)
      else g.get? r c := by
  by_cases hin : r < g.rows ∧ c < g.cols
  · obtain ⟨rows, cols, cells, rows_pos, cols_pos, size_cells⟩ := g
    have hlt : r * cols + c < rows * cols := index_lt hin.1 hin.2
    rw [get?_eq_some (g := withBlock _ row col tile hr hc) hin.1 hin.2]
    show some (overlay ⟨cells, size_cells⟩ row col tile hr hc)[r * cols + c] = _
    rw [getElem_overlay hin.1 hin.2]
    split <;> rename_i hb
    · rw [get?_eq_some]
    · rw [get?_eq_some hin.1 hin.2]; rfl
  · rw [if_neg (by omega), get?_of_not_lt hin]
    exact get?_of_not_lt hin

/-! ### Tiles -/

theorem tile_fits {size step n i : Nat} (hi : i < n) (h : n * step ≤ size) :
    i * step + step ≤ size :=
  calc i * step + step = (i + 1) * step := (Nat.succ_mul i step).symm
    _ ≤ n * step := Nat.mul_le_mul_right step hi
    _ ≤ size := h

/-- Position `i` lies on block `n` of blocks `step` long. -/
theorem mem_block_iff {step n i : Nat} (h : 0 < step) :
    (n * step ≤ i ∧ i < n * step + step) ↔ i / step = n := by
  rw [Nat.div_eq_iff h]
  omega

theorem rows_of_shape_eq (h : g.shape = tile.shape) : g.rows = tile.rows := (Prod.mk.inj h).1

theorem cols_of_shape_eq (h : g.shape = tile.shape) : g.cols = tile.cols := (Prod.mk.inj h).2

/-- The background grid of a shape. -/
def cleared (g : Grid) : Grid := replicate g.rows g.cols g.rows_pos g.cols_pos Color.background

@[simp] theorem shape_cleared : g.cleared.shape = g.shape := rfl

/-- A shape with a row and a column has a background grid. -/
theorem blank_eq_ok {rows cols : Nat} (hrows : 0 < rows) (hcols : 0 < cols) :
    blank rows cols = .ok (replicate rows cols hrows hcols Color.background) := by
  rw [blank, filled, dif_pos ⟨hrows, hcols⟩]
  rfl

theorem blank_shape : blank g.rows g.cols = .ok g.cleared := blank_eq_ok g.rows_pos g.cols_pos

theorem get?_cleared (hr : r < g.rows) (hc : c < g.cols) :
    g.cleared.get? r c = some Color.background := by
  rw [cleared, get?_replicate, if_pos ⟨hr, hc⟩]

theorem placeTile_cleared : canvas.placeTile working x y working.cleared =
    canvas.writeBlock (x * working.rows) (y * working.cols) working.cleared := if_pos rfl

/-- A tile of the right shape is laid over its place when that lies on the canvas; the cells of its
place then show it and the others are as before. -/
theorem exists_placeTile (hshape : tile.shape = working.shape)
    (hrow : x * working.rows + working.rows ≤ canvas.rows)
    (hcol : y * working.cols + working.cols ≤ canvas.cols) :
    ∃ out, canvas.placeTile working x y tile = .ok out ∧ out.shape = canvas.shape ∧
      ∀ r c, out.get? r c =
        if r / working.rows = x ∧ c / working.cols = y then
          tile.get? (r % working.rows) (c % working.cols)
        else canvas.get? r c := by
  have hrows := rows_of_shape_eq hshape
  have hcols := cols_of_shape_eq hshape
  have hr : x * working.rows + tile.rows ≤ canvas.rows := hrows ▸ hrow
  have hc : y * working.cols + tile.cols ≤ canvas.cols := hcols ▸ hcol
  refine ⟨canvas.withBlock (x * working.rows) (y * working.cols) tile hr hc, ?_, rfl, fun r c => ?_⟩
  · rw [placeTile, if_pos hshape, writeBlock, dif_pos ⟨hr, hc⟩]
  · simp only [get?_withBlock, hrows, hcols, mem_block_iff working.rows_pos,
      mem_block_iff working.cols_pos]
    split <;> rename_i h
    · rw [← h.1, ← h.2, Nat.mul_comm, Nat.mul_comm (c / _), ← Nat.mod_eq_sub_mul_div,
        ← Nat.mod_eq_sub_mul_div]
    · rfl

end Grid
end Mosaic

import Mosaic.Proofs.Blocks
import Mosaic.Grid.Crop
import Mosaic.Grid.Invert
import Mosaic.Grid.Roll
import Mathlib.Logic.Basic

/-!
# Cells after a flip, a turn, a roll or a crop

Each of these operations shows, at every position of its result, one cell of the grid. `get?_flipRows` and
the lemmas beside it say which one; a law of the geometry is then an equality of two reads. The transpose
undoes itself and carries every other operation to the one along the other axis.
-/

namespace Mosaic

namespace Grid

variable {g h : Grid} {r c : Nat} {color : Color}

/-! ### Reads -/

theorem get?_reindex {rows cols hrows hcols} {i j : Nat → Nat → Nat}
    {hi : ∀ r c, r < rows → c < cols → i r c < g.rows}
    {hj : ∀ r c, r < rows → c < cols → j r c < g.cols} :
    (ofFn rows cols hrows hcols fun r c hr hc =>
        g.get (i r c) (j r c) (hi r c hr hc) (hj r c hr hc)).get? r c =
      if r < rows ∧ c < cols then g.get? (i r c) (j r c) else none := by
  rw [get?_ofFn]
  split
  · rw [get?_eq_some]
  · rfl

theorem get?_flipRows : g.flipRows.get? r c =
    if r < g.rows ∧ c < g.cols then g.get? (g.rows - 1 - r) c else none := get?_reindex

theorem get?_flipCols : g.flipCols.get? r c =
    if r < g.rows ∧ c < g.cols then g.get? r (g.cols - 1 - c) else none := get?_reindex

theorem get?_transpose : g.transpose.get? r c = g.get? c r := by
  have h : g.transpose.get? r c = if r < g.cols ∧ c < g.rows then g.get? c r else none := get?_reindex
  rw [h, ite_eq_left_iff]
  intro hout
  exact (get?_of_not_lt (mt And.symm hout)).symm

theorem get?_roll_rows {shift : Int} : (g.roll shift .rows).get? r c =
    if r < g.rows ∧ c < g.cols then g.get? ((r + g.rows - wrap shift g.rows) % g.rows) c else none :=
  get?_reindex

theorem get?_roll_cols {shift : Int} : (g.roll shift .cols).get? r c =
    if r < g.rows ∧ c < g.cols then g.get? r ((c + g.cols - wrap shift g.cols) % g.cols) else none :=
  get?_reindex

theorem get?_invert : (g.invert color).get? r c =
    (g.get? r c).map fun old => if old = Color.background then color else Color.background := by
  rw [invert, get?_ofFn, get?]
  split <;> rfl

theorem get?_box {top bottom : Fin g.rows} {left right : Fin g.cols} :
    (g.box top bottom left right).get? r c =
      if r < bottom - top + 1 ∧ c < right - left + 1 then g.get? (top + r) (left + c) else none :=
  get?_reindex

theorem get?_select {rows : Array (Fin g.rows)} {cols : Array (Fin g.cols)} {hrows hcols} :
    (g.select rows cols hrows hcols).get? r c =
      rows[r]?.bind fun row => cols[c]?.bind fun col => g.get? row col := by
  rw [select, get?_ofFn]
  split <;> rename_i h
  · rw [Array.getElem?_eq_getElem h.1, Array.getElem?_eq_getElem h.2]
    exact (get?_eq_some _ _).symm
  · rcases not_and_or.mp h with hr | hc
    · rw [Array.getElem?_eq_none (Nat.le_of_not_lt hr)]
      rfl
    · rw [Array.getElem?_eq_none (Nat.le_of_not_lt hc)]
      cases rows[r]? <;> rfl

/-! ### Shapes -/

section

variable {axis : Axis} {shift k : Int}

theorem shape_flip : (g.flip axis).shape = g.shape := by cases axis <;> rfl

theorem shape_roll : (g.roll shift axis).shape = g.shape := by cases axis <;> rfl

theorem shape_turn_of_odd (h : k % 2 = 1) : (g.turn k).shape = g.shape.swap := by
  have hk : k % 4 = 1 ∨ k % 4 = 3 := by omega
  rcases hk with hk | hk
  · simp only [turn, hk]
    rfl
  · simp only [turn, hk]
    rfl

theorem shape_turn_of_even (h : k % 2 = 0) : (g.turn k).shape = g.shape := by
  have hk : k % 4 = 0 ∨ k % 4 = 2 := by omega
  rcases hk with hk | hk
  · simp only [turn, hk]
    rfl
  · simp only [turn, hk]
    rfl

theorem shape_swap_eq_iff : g.shape.swap = g.shape ↔ g.rows = g.cols := by
  constructor
  · intro h
    exact (Prod.mk.inj h).2
  · intro h
    exact Prod.ext h.symm h

end

/-! ### Colors shown -/

theorem mem_cells_iff : color ∈ g.cells ↔ ∃ r c, g.get? r c = some color := by
  constructor
  · intro h
    obtain ⟨i, hi, rfl⟩ := Array.mem_iff_getElem.mp h
    have hi' : i < g.rows * g.cols := g.size_cells ▸ hi
    refine ⟨i / g.cols, i % g.cols, ?_⟩
    rw [get?_eq_some (row_of_index_lt hi') (Nat.mod_lt _ g.cols_pos)]
    simp only [get, Nat.div_add_mod']
  · rintro ⟨r, c, h⟩
    obtain ⟨hr, hc, rfl⟩ := get?_eq_some_iff.mp h
    exact Array.getElem_mem _

instance : Decidable g.InPalette :=
  decidable_of_iff (g.cells.toList.all (fun c => decide c.InPalette) = true) <| by
    simp only [List.all_eq_true, decide_eq_true_eq, Array.mem_toList_iff, InPalette]

/-- A grid that shows only colors of a palette grid is one. -/
theorem InPalette.of_get? (hg : g.InPalette)
    (hshown : ∀ r c color, h.get? r c = some color → ∃ r' c', g.get? r' c' = some color) :
    h.InPalette := by
  intro color hmem
  obtain ⟨r, c, hget⟩ := mem_cells_iff.mp hmem
  exact hg color (mem_cells_iff.mpr (hshown r c color hget))

/-! ### The transpose -/

theorem shape_transpose : g.transpose.shape = g.shape.swap := rfl

theorem transpose_transpose : g.transpose.transpose = g :=
  ext_get? rfl fun r c => by rw [get?_transpose, get?_transpose]

theorem transpose_inj : g.transpose = h.transpose ↔ g = h :=
  ⟨fun e => by rw [← transpose_transpose (g := g), e, transpose_transpose], congrArg transpose⟩

/-- The transpose of a rearranged grid is the transposed grid rearranged. -/
theorem transpose_reindex {rows cols hrows hcols} {i j : Nat → Nat → Nat}
    {hi : ∀ r c, r < rows → c < cols → i r c < g.rows}
    {hj : ∀ r c, r < rows → c < cols → j r c < g.cols} :
    (ofFn rows cols hrows hcols fun r c hr hc =>
        g.get (i r c) (j r c) (hi r c hr hc) (hj r c hr hc)).transpose =
      ofFn cols rows hcols hrows fun r c hr hc =>
        g.transpose.get (j c r) (i c r) (hj c r hc hr) (hi c r hc hr) := by
  refine ext_get? rfl fun r c => (get?_transpose.trans get?_reindex).trans (.trans ?_ get?_reindex.symm)
  exact if_congr and_comm get?_transpose.symm rfl

theorem transpose_flipRows : g.flipRows.transpose = g.transpose.flipCols := transpose_reindex

theorem transpose_flipCols : g.flipCols.transpose = g.transpose.flipRows := transpose_reindex

theorem transpose_flip {axis : Axis} :
    (g.flip axis).transpose = g.transpose.flip axis.other := by
  cases axis with
  | rows => exact transpose_flipRows
  | cols => exact transpose_flipCols

theorem transpose_quarterTurn : g.quarterTurn.transpose = g.transpose.backTurn := transpose_reindex

theorem transpose_halfTurn : g.halfTurn.transpose = g.transpose.halfTurn := transpose_reindex

theorem transpose_backTurn : g.backTurn.transpose = g.transpose.quarterTurn := transpose_reindex

theorem turn_congr {k l : Int} (h : k % 4 = l % 4) : g.turn k = g.turn l := by
  unfold turn
  rw [h]

/-- Seen in the transpose, a turn goes the other way round. -/
theorem transpose_turn {k : Int} : (g.turn k).transpose = g.transpose.turn (-k) := by
  have hk : k % 4 = 0 ∨ k % 4 = 1 ∨ k % 4 = 2 ∨ k % 4 = 3 := by omega
  unfold turn
  rcases hk with hk | hk | hk | hk
  · rw [if_pos hk, if_pos (by omega)]
  · have hneg : -k % 4 = 3 := by omega
    simp [hk, hneg, transpose_quarterTurn]
  · have hneg : -k % 4 = 2 := by omega
    simp [hk, hneg, transpose_halfTurn]
  · have hneg : -k % 4 = 1 := by omega
    simp [hk, hneg, transpose_backTurn]

theorem transpose_roll {shift : Int} {axis : Axis} :
    (g.roll shift axis).transpose = g.transpose.roll shift axis.other := by
  cases axis with
  | rows => exact transpose_reindex
  | cols => exact transpose_reindex

theorem transpose_invert : (g.invert color).transpose = g.transpose.invert color :=
  ext_get? rfl fun r c => by rw [get?_transpose, get?_invert, get?_invert, get?_transpose]

theorem transpose_box {top bottom : Fin g.rows} {left right : Fin g.cols} :
    (g.box top bottom left right).transpose = g.transpose.box left right top bottom :=
  transpose_reindex

theorem transpose_select {rows : Array (Fin g.rows)} {cols : Array (Fin g.cols)} {hrows hcols} :
    (g.select rows cols hrows hcols).transpose = g.transpose.select cols rows hcols hrows :=
  ext_get? rfl fun r c => by
    have hselect : (g.transpose.select cols rows hcols hrows).get? r c = _ := get?_select
    rw [get?_transpose, get?_select]
    refine Eq.trans ?_ hselect.symm
    simp only [get?_transpose]
    exact Option.bind_comm ..

theorem transpose_replicate {rows cols hrows hcols} :
    (replicate rows cols hrows hcols color).transpose = replicate cols rows hcols hrows color :=
  ext_get? rfl fun r c => by
    rw [get?_transpose, get?_replicate, get?_replicate]
    exact if_congr and_comm rfl rfl

end Grid
end Mosaic

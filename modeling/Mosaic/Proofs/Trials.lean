import Mathlib.Control.Monad.Basic
import Mosaic.Proofs.Tilings

/-!
# The output of a trial, cell by cell

`Candidate.run` fails at the first of its stages that fails, and otherwise lays the tiles
(`Candidate.laid_run`). `Candidate.run_tiled` reads off what an output holds: a cell on a tile shows
background or the state of the transform that the tile took, a cell on no tile what the canvas held.
-/

namespace Mosaic

namespace Canvas

variable {canvas : Canvas} {working start : Grid}

def shape (canvas : Canvas) (working : Grid) : Shape :=
  match canvas with
  | reference g => g.shape
  | scaled a b => (working.rows * a, working.cols * b)

/-- Factors that are not zero make a shape with a row and a column, so the new grid is built. -/
theorem start_scaled (working : Grid) {a b : Nat} (ha : 0 < a) (hb : 0 < b) :
    ∃ start, (scaled a b).start working = .ok start ∧ start.shape = (scaled a b).shape working := by
  refine ⟨.replicate (working.rows * a) (working.cols * b) (Nat.mul_pos working.rows_pos ha)
    (Nat.mul_pos working.cols_pos hb) Color.background, ?_, rfl⟩
  rw [start, if_neg (by omega), Grid.blank_eq_ok]
  rfl

theorem start_scaled_of_not_pos {a b : Nat} (h : ¬(0 < a ∧ 0 < b)) :
    (scaled a b).start working = .error (.degenerateTileRatio a b) := if_pos (by omega)

theorem shape_of_start (h : canvas.start working = .ok start) :
    start.shape = canvas.shape working := by
  cases canvas with
  | reference g => cases h; rfl
  | scaled a b =>
    by_cases hpos : 0 < a ∧ 0 < b
    · obtain ⟨start', hstart, hshape⟩ := start_scaled working hpos.1 hpos.2
      cases hstart.symm.trans h
      exact hshape
    · cases (start_scaled_of_not_pos hpos).symm.trans h

end Canvas

namespace Transform

variable {t : Transform} {g : Grid}

theorem nth_tiles_of_pure (h : t.isSequence = false) (n : Nat) : (t.tiles g).nth n = t.apply g := by
  cases t with
  | rotateLoop | rotateLoopRows | rotateLoopCols | flipLoop | flipLoopRows | flipLoopCols => cases h
  | _ => exact TileSource.nth_same

theorem nth_tiles_zero : (t.tiles g).nth 0 = t.apply g := by
  cases t with
  | rotateLoop | rotateLoopRows | rotateLoopCols | flipLoop | flipLoopRows | flipLoopCols => rfl
  | _ => exact nth_tiles_of_pure rfl 0

end Transform

namespace Candidate

variable {c : Candidate} {g working start out : Grid} {canvas : Canvas} {k : Criterion}
  {failure : TrialFailure}

/-! ### The stages of a trial -/

theorem run_of_preprocess_error (h : c.preprocess.apply g = .error failure) :
    c.run g canvas = .error failure := by
  rw [run, h]; rfl

theorem run_of_start_error (hw : c.preprocess.apply g = .ok working)
    (h : canvas.start working = .error failure) : c.run g canvas = .error failure := by
  simp only [run, hw, h, bind, Except.bind]

theorem run_eq_fill (hw : c.preprocess.apply g = .ok working) (hs : canvas.start working = .ok start) :
    c.run g canvas = c.fill working start := by
  simp only [run, hw, hs, bind, Except.bind]

theorem run_of_degenerate (hw : c.preprocess.apply g = .ok working)
    (hs : canvas.start working = .ok start)
    (h : start.rows / working.rows = 0 ∨ start.cols / working.cols = 0) :
    c.run g canvas = .error (.degenerateTileRatio (start.rows / working.rows)
      (start.cols / working.cols)) := by
  rw [run_eq_fill hw hs]
  simp only [fill, if_pos h]
  rfl

/-- A working grid has the shape of a grid, so there is a blank tile, and with room for tiles it comes to them. -/
theorem fill_eq_tileFrom (hpos : ¬(start.rows / working.rows = 0 ∨ start.cols / working.cols = 0)) :
    c.fill working start = (c.transform.tiles working).tileFrom c.query working working.cleared
      (start.cols / working.cols) (start.rows / working.rows * (start.cols / working.cols)) 0 start := by
  simp only [fill, if_neg hpos, Grid.blank_shape]
  rfl

/-- A query that comes to nothing fails on the first tile. -/
theorem run_of_criterion_error (hw : c.preprocess.apply g = .ok working)
    (hs : canvas.start working = .ok start)
    (hpos : ¬(start.rows / working.rows = 0 ∨ start.cols / working.cols = 0))
    (h : c.query.criterion working = .error failure) : c.run g canvas = .error failure := by
  obtain ⟨todo, htodo⟩ : ∃ todo, start.rows / working.rows * (start.cols / working.cols) = todo + 1 :=
    Nat.exists_eq_succ_of_ne_zero (mt Nat.mul_eq_zero.mp hpos)
  rw [run_eq_fill hw hs, fill_eq_tileFrom hpos, htodo, TileSource.tileFrom, Query.evaluate_tile, h]
  rfl

/-- Once a trial has come to its tiles, its outcome is what comes of laying them. -/
theorem laid_run (hw : c.preprocess.apply g = .ok working) (hs : canvas.start working = .ok start)
    (hpos : ¬(start.rows / working.rows = 0 ∨ start.cols / working.cols = 0))
    (hk : c.query.criterion working = .ok k) :
    Laid ((c.transform.tiles working).content (k.selects working) working
        (start.cols / working.cols)) working (start.cols / working.cols) 0
      (start.rows / working.rows * (start.cols / working.cols)) start (c.run g canvas) := by
  rw [run_eq_fill hw hs, fill_eq_tileFrom hpos]
  exact TileSource.laid_tileFrom hk (Nat.div_mul_le_self _ _) (Nat.div_mul_le_self _ _)
    (Nat.le_of_eq (Nat.zero_add _))

theorem exists_of_run (h : c.run g canvas = .ok out) :
    ∃ working start k, c.preprocess.apply g = .ok working ∧ canvas.start working = .ok start ∧
      ¬(start.rows / working.rows = 0 ∨ start.cols / working.cols = 0) ∧
      c.query.criterion working = .ok k := by
  cases hw : c.preprocess.apply g with
  | error failure => cases (run_of_preprocess_error hw).symm.trans h
  | ok working =>
    cases hs : canvas.start working with
    | error failure => cases (run_of_start_error hw hs).symm.trans h
    | ok start =>
      by_cases hpos : start.rows / working.rows = 0 ∨ start.cols / working.cols = 0
      · cases (run_of_degenerate hw hs hpos).symm.trans h
      · cases hk : c.query.criterion working with
        | error failure => cases (run_of_criterion_error hw hs hpos hk).symm.trans h
        | ok k => exact ⟨working, start, k, rfl, hs, hpos, hk⟩

/-! ### The cells of an output -/

/-- A cell of `out` lies on a tile, of which as many as fit whole are put side by side from the top
left. -/
def OnTile (working out : Grid) (r col : Nat) : Prop :=
  r / working.rows < out.rows / working.rows ∧ col / working.cols < out.cols / working.cols

/-- How many tiles before the one of cell `(r, col)` are selected, row by row. -/
def takenBefore (c : Candidate) (working out : Grid) (r col : Nat) : Nat :=
  selectedBefore (c.query.selects working) (out.cols / working.cols)
    (r / working.rows * (out.cols / working.cols) + col / working.cols)

/-- `out` is what the candidate lays over `canvas` with tiles of the working grid. -/
structure Tiled (c : Candidate) (working : Grid) (canvas : Canvas) (out : Grid) : Prop where
  shape : out.shape = canvas.shape working
  /-- A tile that is not selected is background, a selected one the next state of the transform. -/
  onTile : ∀ r col, OnTile working out r col →
    (c.query.evaluate working (r / working.rows % working.rows) (col / working.cols % working.cols) =
        .ok false ∧ out.get? r col = some Color.background) ∨
    (c.query.evaluate working (r / working.rows % working.rows) (col / working.cols % working.cols) =
        .ok true ∧
      ∃ tile, (c.transform.tiles working).nth (c.takenBefore working out r col) = .ok tile ∧
        tile.shape = working.shape ∧
        out.get? r col = tile.get? (r % working.rows) (col % working.cols))
  /-- What no tile covers is as in the reference. -/
  offTile : ∀ ref, canvas = .reference ref → ∀ r col, ¬OnTile working out r col →
    out.get? r col = ref.get? r col
  /-- Tiles cover a scaled canvas. -/
  covered : ∀ a b, canvas = .scaled a b → ∀ r col, r < out.rows → col < out.cols →
    OnTile working out r col

theorem onTile_of_scaled {a b r col : Nat} (hshape : out.shape = (Canvas.scaled a b).shape working)
    (hr : r < out.rows) (hc : col < out.cols) : OnTile working out r col := by
  obtain ⟨hrows, hcols⟩ := Prod.mk.inj hshape
  rw [OnTile, hrows, hcols, Nat.mul_div_cancel_left _ working.rows_pos,
    Nat.mul_div_cancel_left _ working.cols_pos]
  exact ⟨Nat.div_lt_of_lt_mul (hrows ▸ hr), Nat.div_lt_of_lt_mul (hcols ▸ hc)⟩

theorem tiled_of_run (hw : c.preprocess.apply g = .ok working)
    (hs : canvas.start working = .ok start)
    (hpos : ¬(start.rows / working.rows = 0 ∨ start.cols / working.cols = 0))
    (hk : c.query.criterion working = .ok k) (h : c.run g canvas = .ok out) :
    c.Tiled working canvas out := by
  have hlaid := h ▸ laid_run hw hs hpos hk
  have hshape : out.shape = start.shape := hlaid.1
  have hout := hshape.trans (Canvas.shape_of_start hs)
  rw [← Grid.rows_of_shape_eq hshape, ← Grid.cols_of_shape_eq hshape] at hlaid
  refine ⟨hout, fun r col hon => ?_, ?_, ?_⟩
  · obtain ⟨tile, htile, hget⟩ := hlaid.get?_of_tile hon
    have hdiv := Grid.index_div (r := r / working.rows) hon.2
    have hmod := Grid.index_mod (r := r / working.rows) hon.2
    rw [Query.evaluate_of_criterion hk]
    cases hsel : k.selects working (r / working.rows) (col / working.cols) with
    | false =>
      left
      rw [TileSource.content_of_not_selected (by rw [hdiv, hmod, hsel])] at htile
      cases htile
      exact ⟨rfl, hget.trans (Grid.get?_cleared (Nat.mod_lt _ working.rows_pos)
        (Nat.mod_lt _ working.cols_pos))⟩
    | true =>
      right
      refine ⟨rfl, tile, ?_, TileSource.shape_of_content htile, hget⟩
      rw [takenBefore, Query.selects_of_criterion hk]
      exact TileSource.content_of_selected (by rw [hdiv, hmod, hsel]) htile
  · rintro ref rfl r col hoff
    cases hs
    exact hlaid.get?_of_not_tile hoff
  · rintro a b rfl r col hr hc
    exact onTile_of_scaled hout hr hc

/-- What a trial puts out is the tiling of its canvas by its candidate; the tiles of a transform that is
not a sequence are all alike. -/
theorem run_tiled (h : c.run g canvas = .ok out) :
    ∃ working, c.preprocess.apply g = .ok working ∧ c.Tiled working canvas out ∧
      (c.transform.isSequence = false →
        ∀ n, (c.transform.tiles working).nth n = c.transform.apply working) := by
  obtain ⟨working, start, k, hw, hs, hpos, hk⟩ := exists_of_run h
  exact ⟨working, hw, tiled_of_run hw hs hpos hk h, Transform.nth_tiles_of_pure⟩

/-- Three selected tiles take three turns, the tile between them stays background, and the last row is
the reference's. -/
theorem run_tiled_turning :
    let c : Candidate := ⟨.identity, .rotateLoop 0, .notZero⟩
    let g : Grid := ⟨2, 2, #[1, 2, 0, 4], by decide, by decide, rfl⟩
    let ref : Grid := ⟨5, 4, Array.replicate 20 9, by decide, by decide, rfl⟩
    let out : Grid :=
      ⟨5, 4, #[1, 2, 2, 4, 0, 4, 1, 0, 0, 0, 4, 0, 0, 0, 2, 1, 9, 9, 9, 9], by decide, by decide, rfl⟩
    c.run g (.reference ref) = .ok out ∧
      ∃ working, c.preprocess.apply g = .ok working ∧ c.Tiled working (.reference ref) out ∧
        (c.transform.isSequence = false →
          ∀ n, (c.transform.tiles working).nth n = c.transform.apply working) := by
  intro c g ref out
  have h : c.run g (.reference ref) = .ok out := by decide +kernel
  exact ⟨h, run_tiled h⟩

end Candidate
end Mosaic

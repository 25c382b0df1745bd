import Mosaic.Proofs.Periods
import Mosaic.Proofs.Transposition
import Mosaic.Proofs.Trials

/-!
# Trials in the transpose

The dual of a candidate exchanges what it says of rows and of columns. Every stage of the dual does to the
transpose what the stage does to the grid, and the tiles are laid column by column instead of row by row;
tiles that are all alike do not depend on that order. So the dual makes the transposed output of the
transposed grid, and fails where the candidate does (`Candidate.run_dual`).
-/

namespace Mosaic

/-! ### Duals -/

/-- The failure with its rows and columns exchanged. -/
def TrialFailure.transpose : TrialFailure → TrialFailure
  | grid (.emptyShape rows cols) => grid (.emptyShape cols rows)
  | grid (.colorOutOfRange row col color) => grid (.colorOutOfRange col row color)
  | degenerateTileRatio rows cols => degenerateTileRatio cols rows
  | tileShapeMismatch expected found => tileShapeMismatch expected.swap found.swap
  | blockOutOfBounds row col shape canvas => blockOutOfBounds col row shape.swap canvas.swap
  | cellOutOfRange row col => cellOutOfRange col row
  | failure => failure

def transposeResult : Except TrialFailure Grid → Except TrialFailure Grid
  | .ok g => .ok g.transpose
  | .error failure => .error failure.transpose

def Canvas.transpose : Canvas → Canvas
  | reference g => reference g.transpose
  | scaled rows cols => scaled cols rows

/-- Of the transforms that are not sequences; quarter turns go the other way round. -/
def Transform.dual : Transform → Transform
  | flip axis => flip axis.other
  | rot90 k => rot90 (UInt8.ofNat (-(k.toNat : Int) % 4).toNat)
  | roll shift axis => roll shift axis.other
  | t => t

def Query.dual : Query → Query
  | countColorsRow => countColorsCol
  | countColorsCol => countColorsRow
  | countSquaresRow => countSquaresCol
  | countSquaresCol => countSquaresRow
  | periodLength0 => periodLength1
  | periodLength1 => periodLength0
  | q => q

def Criterion.dual : Criterion → Criterion
  | columnwiseUpTo rows bound => rowwiseUpTo rows bound
  | rowwiseUpTo cols bound => columnwiseUpTo cols bound
  | rowMultipleOf period => colMultipleOf period
  | colMultipleOf period => rowMultipleOf period
  | k => k

def Candidate.dual (c : Candidate) : Candidate := ⟨c.preprocess, c.transform.dual, c.query.dual⟩

/-! ### Stages -/

section

variable {g working : Grid} {failure : TrialFailure}

theorem Preprocess.apply_transpose {p : Preprocess} :
    p.apply g.transpose = transposeResult (p.apply g) := by
  cases p with
  | identity => rfl
  | cropInner t => exact congrArg Except.ok Grid.cropInner_transpose
  | cropOuter t =>
    rw [apply, apply, Grid.cropOuter?_transpose]
    cases g.cropOuter? t <;> rfl

theorem Preprocess.inPalette_of_apply {p : Preprocess} (hg : g.InPalette)
    (h : p.apply g = .ok working) : working.InPalette := by
  cases p with
  | identity => cases h; exact hg
  | cropInner t => cases h; exact hg.cropInner
  | cropOuter t =>
    rw [apply] at h
    split at h <;> cases h
    exact hg.cropOuter ‹_›

theorem Canvas.start_transpose (canvas : Canvas) (working : Grid) :
    canvas.transpose.start working.transpose = transposeResult (canvas.start working) := by
  cases canvas with
  | reference g => rfl
  | scaled a b =>
    unfold start Canvas.transpose
    by_cases h : a = 0 ∨ b = 0
    · simp only [if_pos h, if_pos h.symm]
      rfl
    · have hrows : 0 < working.rows * a := Nat.mul_pos working.rows_pos (by omega)
      have hcols : 0 < working.cols * b := Nat.mul_pos working.cols_pos (by omega)
      have hblank' : Grid.blank (working.transpose.rows * b) (working.transpose.cols * a) =
          .ok (.replicate _ _ hcols hrows Color.background) := Grid.blank_eq_ok hcols hrows
      simp only [if_neg h, if_neg (mt Or.symm h), Grid.blank_eq_ok hrows hcols, hblank']
      exact congrArg Except.ok Grid.transpose_replicate.symm

/-! ### Color sources and transforms -/

theorem ColorSource.figure_transpose {s : ColorSource} (hg : g.InPalette) :
    s.figure g.transpose = s.figure g := by
  cases s <;> simp only [figure, Grid.tally_transpose hg, Grid.highestColor?_transpose,
    Grid.figureCells_transpose]

theorem ColorSource.exists_figure {s : ColorSource} (hg : g.InPalette) : ∃ n, s.figure g = .ok n := by
  have htally := Grid.tally_of_inPalette hg
  cases s <;> simp only [figure, htally] <;> exact ⟨_, rfl⟩

/-- The position that an unresolved source reports is the first one of any grid. -/
theorem ColorSource.transpose_of_resolve {s : ColorSource} (hg : g.InPalette)
    (h : s.resolve g = .error failure) : failure.transpose = failure := by
  obtain ⟨n, hn⟩ := s.exists_figure hg
  simp only [resolve, hn, bind, Except.bind] at h
  split at h <;> cases h
  rfl

theorem Transform.invert_transpose {s : ColorSource} (hg : g.InPalette) :
    (s.resolve g.transpose).map g.transpose.invert = transposeResult ((s.resolve g).map g.invert) := by
  have hresolve : s.resolve g.transpose = s.resolve g := by
    simp only [ColorSource.resolve, ColorSource.figure_transpose hg]
  rw [hresolve]
  cases h : s.resolve g with
  | error failure => exact congrArg Except.error (ColorSource.transpose_of_resolve hg h).symm
  | ok color => exact congrArg Except.ok Grid.transpose_invert.symm

theorem Transform.apply_dual {t : Transform} (ht : t.isSequence = false) (hg : g.InPalette) :
    t.dual.apply g.transpose = transposeResult (t.apply g) := by
  cases t with
  | identity | swapAxes => rfl
  | flip axis => exact congrArg Except.ok Grid.transpose_flip.symm
  | rot90 k =>
    refine congrArg Except.ok (.trans ?_ Grid.transpose_turn.symm)
    refine Grid.turn_congr ?_
    rw [UInt8.toNat_ofNat']
    omega
  | roll shift axis => exact congrArg Except.ok Grid.transpose_roll.symm
  | invertColor | invert => exact invert_transpose hg
  | rotateLoop | rotateLoopRows | rotateLoopCols | flipLoop | flipLoopRows | flipLoopCols => cases ht

/-! ### Queries -/

theorem Criterion.holds_dual {k : Criterion} {x y : Nat} {value : Color} :
    k.dual.holds y x value = k.holds x y value := by cases k <;> rfl

theorem Criterion.selects_dual {k : Criterion} {x y : Nat} :
    k.dual.selects working.transpose y x = k.selects working x y :=
  holds_dual.trans (congrArg _ Grid.get_ofFn)

theorem Query.criterion_dual {q : Query} (hg : g.InPalette) :
    q.dual.criterion g.transpose = (q.criterion g).map Criterion.dual := by
  have htally := Grid.tally_of_inPalette hg
  have htally' := (Grid.tally_transpose hg).trans htally
  cases q <;> simp [criterion, dual, htally, htally', Grid.figureCells_transpose,
    Grid.highestColor?_transpose, Grid.lowestColor?_transpose, Grid.period_transpose,
    Grid.isSymmetric_transpose] <;> rfl

theorem Query.exists_criterion {q : Query} (hg : g.InPalette) : ∃ k, q.criterion g = .ok k := by
  have htally := Grid.tally_of_inPalette hg
  cases q <;> simp only [criterion, htally] <;> exact ⟨_, rfl⟩

end

/-! ### Tiles -/

section

variable {t : Transform} {k : Criterion} {working : Grid} {down across x y : Nat}
  {failure failure' : TrialFailure}

/-- The tile in row `y` and column `x` of the dual has the transposed content of the one in row `x` and
column `y`. -/
theorem content_dual (ht : t.isSequence = false) (hw : working.InPalette) (hx : x < down)
    (hy : y < across) :
    (t.dual.tiles working.transpose).content (k.dual.selects working.transpose) working.transpose down
        (y * down + x) =
      transposeResult ((t.tiles working).content (k.selects working) working across
        (x * across + y)) := by
  have ht' : t.dual.isSequence = false := by cases t <;> first | rfl | cases ht
  rw [TileSource.content, TileSource.content, Grid.index_div hx, Grid.index_mod hx, Grid.index_div hy,
    Grid.index_mod hy, Criterion.selects_dual, Transform.nth_tiles_of_pure ht,
    Transform.nth_tiles_of_pure ht', Transform.apply_dual ht hw]
  split
  · cases t.apply working with
    | error failure => rfl
    | ok tile =>
      show (if tile.shape.swap = working.shape.swap then _ else _) = _
      by_cases hshape : tile.shape = working.shape
      · simp only [hshape, if_true, transposeResult]
      · have hswap : tile.shape.swap ≠ working.shape.swap := mt Prod.swap_inj.mp hshape
        simp only [if_neg hshape, if_neg hswap, transposeResult, TrialFailure.transpose]
        rfl
  · exact congrArg Except.ok Grid.transpose_replicate.symm

theorem content_error_unique {selects : Nat → Nat → Bool} {i j : Nat} (ht : t.isSequence = false)
    (hi : (t.tiles working).content selects working across i = .error failure)
    (hj : (t.tiles working).content selects working across j = .error failure') :
    failure = failure' := by
  rw [TileSource.content, Transform.nth_tiles_of_pure ht] at hi hj
  split at hi
  · split at hj
    · exact Except.error.inj (hi.symm.trans hj)
    · cases hj
  · cases hi

end

/-- Tiles laid row by row and their transposes laid column by column come to transposed results, if those
that have no content all fail alike. -/
theorem Laid.transpose {content content' : Nat → Except TrialFailure Grid} {working start : Grid}
    {down across : Nat} {outcome outcome' : Except TrialFailure Grid}
    (hdual : ∀ x y, x < down → y < across →
      content' (y * down + x) = transposeResult (content (x * across + y)))
    (halike : ∀ i j f f', content i = .error f → content j = .error f' → f = f')
    (h : Laid content working across 0 (down * across) start outcome)
    (h' : Laid content' working.transpose down 0 (across * down) start.transpose outcome') :
    outcome' = transposeResult outcome := by
  cases outcome with
  | error failure =>
    -- the transposed tile fails too, so the dual fails; where it fails first is another tile, but alike
    obtain ⟨i, -, hi, hfail, -⟩ := h
    obtain ⟨x, y, hx, hy, rfl⟩ := exists_tile_of_lt hi
    have hfail' : content' (y * down + x) = .error failure.transpose := by rw [hdual x y hx hy, hfail]; rfl
    cases outcome' with
    | ok out' =>
      obtain ⟨tile, htile⟩ := h'.2.1 (y * down + x) (Nat.zero_le _) (tile_lt_iff.mpr ⟨hy, hx⟩).2.2
      cases hfail'.symm.trans htile
    | error failure' =>
      obtain ⟨j, -, hj, hfirst, -⟩ := h'
      obtain ⟨y', x', hy', hx', rfl⟩ := exists_tile_of_lt hj
      rw [hdual x' y' hx' hy'] at hfirst
      cases hother : content (x' * across + y') with
      | ok tile => rw [hother] at hfirst; cases hfirst
      | error other =>
        rw [hother, halike _ _ _ _ hother hfail] at hfirst
        exact hfirst.symm
  | ok out =>
    cases outcome' with
    | error failure' =>
      obtain ⟨j, -, hj, hfirst, -⟩ := h'
      obtain ⟨y, x, hy, hx, rfl⟩ := exists_tile_of_lt hj
      obtain ⟨tile, htile⟩ := h.2.1 (x * across + y) (Nat.zero_le _) (tile_lt_iff.mpr ⟨hx, hy⟩).2.2
      rw [hdual x y hx hy, htile] at hfirst
      cases hfirst
    | ok out' =>
      refine congrArg Except.ok (Grid.ext_get? ?_ fun r c => ?_)
      · rw [h'.1, Grid.shape_transpose, Grid.shape_transpose, h.1]
      · rw [Grid.get?_transpose]
        -- a cell is on a tile exactly if the transposed cell is on the transposed tile
        by_cases hon : c / working.rows < down ∧ r / working.cols < across
        · obtain ⟨tile, htile, hget⟩ := h.get?_of_tile hon
          obtain ⟨tile', htile', hget'⟩ := h'.get?_of_tile (r := r) (c := c) hon.symm
          have hcontent := (hdual _ _ hon.1 hon.2).symm.trans htile'
          rw [htile] at hcontent
          cases hcontent
          rw [hget, hget', Grid.get?_transpose]
          rfl
        · rw [h.get?_of_not_tile hon, h'.get?_of_not_tile (mt And.symm hon), Grid.get?_transpose]

namespace Candidate

variable {c : Candidate} {g : Grid} {canvas : Canvas}

/-- On the transpose of a grid, the dual of a candidate makes the transpose of the output, or fails as the
candidate does. -/
theorem run_dual (hc : c.transform.isSequence = false) (hg : g.InPalette) :
    c.dual.run g.transpose canvas.transpose = transposeResult (c.run g canvas) := by
  have happly : c.dual.preprocess.apply g.transpose = transposeResult (c.preprocess.apply g) :=
    Preprocess.apply_transpose
  cases hw : c.preprocess.apply g with
  | error failure =>
    rw [run_of_preprocess_error hw]
    exact run_of_preprocess_error (happly.trans (congrArg _ hw))
  | ok working =>
    have hw' : c.dual.preprocess.apply g.transpose = .ok working.transpose :=
      happly.trans (congrArg _ hw)
    have hworking := Preprocess.inPalette_of_apply hg hw
    have hcanvas := canvas.start_transpose working
    cases hs : canvas.start working with
    | error failure =>
      rw [run_of_start_error hw hs]
      exact run_of_start_error hw' (hcanvas.trans (congrArg _ hs))
    | ok start =>
      have hs' : canvas.transpose.start working.transpose = .ok start.transpose :=
        hcanvas.trans (congrArg _ hs)
      by_cases hpos : start.rows / working.rows = 0 ∨ start.cols / working.cols = 0
      · rw [run_of_degenerate hw hs hpos]
        exact run_of_degenerate hw' hs' hpos.symm
      · obtain ⟨k, hk⟩ := c.query.exists_criterion hworking
        have hk' : c.dual.query.criterion working.transpose = .ok k.dual :=
          (Query.criterion_dual hworking).trans (congrArg _ hk)
        have hlaid' := laid_run hw' hs' (mt Or.symm hpos) hk'
        exact Laid.transpose (fun x y hx hy => content_dual hc hworking hx hy)
          (fun i j f f' => content_error_unique hc) (laid_run hw hs hpos hk) hlaid'

/-- A roll to the right becomes one downwards, and a turned tile that does not fit fails with its shape
exchanged. -/
theorem run_dual_cropped :
    let g : Grid := ⟨3, 3, #[0, 0, 0, 1, 2, 3, 4, 0, 1], by decide, by decide, rfl⟩
    let ref : Grid := ⟨4, 4, Array.replicate 16 9, by decide, by decide, rfl⟩
    let out : Grid := ⟨4, 4, #[3, 1, 2, 9, 1, 4, 0, 9, 0, 0, 0, 9, 0, 0, 0, 9], by decide, by decide, rfl⟩
    let rolled : Candidate := ⟨.cropInner 0, .roll 1 .cols, .periodLength0⟩
    let turned : Candidate := ⟨.cropInner 0, .rot90 1, .periodLength0⟩
    rolled.run g (.reference ref) = .ok out ∧
      (⟨.cropInner 0, .roll 1 .rows, .periodLength1⟩ : Candidate).run g.transpose
        (.reference ref.transpose) = .ok out.transpose ∧
      turned.dual.run g.transpose (.reference ref.transpose) =
        .error (.tileShapeMismatch (3, 2) (2, 3)) := by
  intro g ref out rolled turned
  have hg : g.InPalette := by decide
  have hrolled : rolled.run g (.reference ref) = .ok out := by decide +kernel
  have hturned : turned.run g (.reference ref) = .error (.tileShapeMismatch (2, 3) (3, 2)) := by
    decide +kernel
  refine ⟨hrolled, ?_, ?_⟩
  · exact (run_dual (c := rolled) rfl hg).trans (congrArg transposeResult hrolled)
  · exact (run_dual rfl hg).trans (congrArg transposeResult hturned)

end Candidate
end Mosaic

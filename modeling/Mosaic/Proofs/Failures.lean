import Mosaic.Proofs.Canvases
import Mosaic.Proofs.Contents
import Mosaic.Proofs.Duality

/-!
# How trials fail

A trial on a grid of palette colors fails for one of four reasons, tried in this order: preprocessing
leaves nothing, a factor is zero, the reference is too small for one tile, or a selected tile cannot be
placed. `Candidate.FailsWith` lists them with the failures they are reported by, and
`Candidate.run_error_iff` states that there is no other: new grids have a shape, queries are asked about
cells of the working grid, and tiles lie on the canvas. This is so as long as a grid can be given the cells
of a scaled canvas (`Canvas.Held`); a larger one is not answered at all, or with a shape that is not its own.
-/

namespace Mosaic

theorem Preprocess.apply_error_iff {p : Preprocess} {g : Grid} {failure : TrialFailure} :
    p.apply g = .error failure ↔
      failure = .emptyPreprocess ∧ ∃ t, p = .cropOuter t ∧ ¬g.Bright t := by
  cases p with
  | identity => simp [apply]
  | cropInner t => simp [apply]
  | cropOuter t =>
    rw [apply]
    by_cases hbright : g.Bright t
    · obtain ⟨hrows, hcols, hcrop⟩ := Grid.cropOuter?_of_bright hbright
      rw [hcrop]
      refine iff_of_false (by simp) ?_
      rintro ⟨-, t', ht, hdark⟩
      cases ht
      exact hdark hbright
    · rw [Grid.cropOuter?_of_not_bright hbright, Except.error.injEq, eq_comm]
      exact (and_iff_left ⟨t, rfl, hbright⟩).symm

namespace Canvas

variable {canvas : Canvas} {working start : Grid}

/-- How many tiles of the working grid's shape fit whole, down and across. -/
def tileRatio (canvas : Canvas) (working : Grid) : Nat × Nat :=
  match canvas with
  | reference g => (g.rows / working.rows, g.cols / working.cols)
  | scaled a b => (a, b)

theorem tileRatio_of_start (h : canvas.start working = .ok start) :
    canvas.tileRatio working = (start.rows / working.rows, start.cols / working.cols) := by
  have hshape : (start.rows, start.cols) = canvas.shape working := shape_of_start h
  cases canvas with
  | reference g => cases h; rfl
  | scaled a b =>
    obtain ⟨hrows, hcols⟩ := Prod.mk.inj hshape
    rw [hrows, hcols, Nat.mul_div_cancel_left _ working.rows_pos,
      Nat.mul_div_cancel_left _ working.cols_pos]
    rfl

end Canvas

theorem Laid.error_iff {content : Nat → Except TrialFailure Grid} {working start : Grid}
    {across todo : Nat} {outcome : Except TrialFailure Grid} {failure : TrialFailure}
    (h : Laid content working across 0 todo start outcome) :
    outcome = .error failure ↔
      ∃ i < todo, content i = .error failure ∧ ∀ j < i, ∀ f, content j ≠ .error f := by
  constructor
  · rintro rfl
    obtain ⟨i, -, hi, hfail, hbefore⟩ := h
    refine ⟨i, by omega, hfail, fun j hj f hf => ?_⟩
    obtain ⟨tile, htile⟩ := hbefore j (Nat.zero_le j) hj
    rw [hf] at htile
    cases htile
  · rintro ⟨i, hi, hfail, hbefore⟩
    have herror : Laid content working across 0 todo start (.error failure) := by
      refine ⟨i, Nat.zero_le i, by omega, hfail, fun j _ hj => ?_⟩
      cases hj' : content j with
      | error f => exact absurd hj' (hbefore j hj f)
      | ok tile => exact ⟨tile, rfl⟩
    cases outcome with
    | ok out => exact absurd herror h.not_error_of_ok
    | error failure' => rw [h.error_unique herror]

namespace Candidate

variable {c : Candidate} {g working start ref : Grid} {canvas : Canvas} {failure : TrialFailure}
  {i : Nat}

/-- Tile `i`, counted row by row, is selected. -/
def SelectsTile (c : Candidate) (working : Grid) (across i : Nat) : Prop :=
  c.query.selects working (i / across) (i % across) = true

instance {across : Nat} : Decidable (c.SelectsTile working across i) :=
  inferInstanceAs (Decidable (_ = true))

/-- Why tile `i` cannot be placed when it is selected: the transform has come to the state that follows
one for every selected tile before. -/
def TileFault (c : Candidate) (working : Grid) (across i : Nat) (failure : TrialFailure) : Prop :=
  c.transform.Fault working (selectedBefore (c.query.selects working) across i) failure

/-- The reasons for which a trial fails, each with its failure. -/
inductive FailsWith (c : Candidate) (g : Grid) (canvas : Canvas) : TrialFailure → Prop
  | emptyPreprocess {t : UInt8} (hpreprocess : c.preprocess = .cropOuter t) (hdark : ¬g.Bright t) :
      FailsWith c g canvas .emptyPreprocess
  | zeroFactor {working : Grid} {a b : Nat} (hworking : c.preprocess.apply g = .ok working)
      (hcanvas : canvas = .scaled a b) (hzero : a = 0 ∨ b = 0) :
      FailsWith c g canvas (.degenerateTileRatio a b)
  | smallReference {working ref : Grid} (hworking : c.preprocess.apply g = .ok working)
      (hcanvas : canvas = .reference ref) (hsmall : ref.rows < working.rows ∨ ref.cols < working.cols) :
      FailsWith c g canvas
        (.degenerateTileRatio (ref.rows / working.rows) (ref.cols / working.cols))
  | tile {working : Grid} {down across i : Nat} {failure : TrialFailure}
      (hworking : c.preprocess.apply g = .ok working)
      (hratio : canvas.tileRatio working = (down, across)) (hi : i < down * across)
      (hselected : c.SelectsTile working across i) (hfault : c.TileFault working across i failure)
      (hfirst : ∀ j < i, c.SelectsTile working across j → ∀ f, ¬c.TileFault working across j f) :
      FailsWith c g canvas failure

/-- Once there is room for tiles, a trial fails by the first selected tile that cannot be placed. -/
theorem run_error_of_room (hg : g.InPalette) (hw : c.preprocess.apply g = .ok working)
    (hs : canvas.start working = .ok start)
    (hpos : ¬(start.rows / working.rows = 0 ∨ start.cols / working.cols = 0)) :
    c.run g canvas = .error failure ↔
      ∃ i < start.rows / working.rows * (start.cols / working.cols),
        (c.SelectsTile working (start.cols / working.cols) i ∧
          c.TileFault working (start.cols / working.cols) i failure) ∧
        ∀ j < i, ∀ f, ¬(c.SelectsTile working (start.cols / working.cols) j ∧
          c.TileFault working (start.cols / working.cols) j f) := by
  have hworking := Preprocess.inPalette_of_apply hg hw
  obtain ⟨k, hk⟩ := c.query.exists_criterion hworking
  have hlaid := laid_run hw hs hpos hk
  rw [← Query.selects_of_criterion hk] at hlaid
  rw [hlaid.error_iff]
  simp only [ne_eq, TileSource.content_error_iff hworking]
  rfl

theorem failsWith_of_run_error (hg : g.InPalette) (h : c.run g canvas = .error failure) :
    c.FailsWith g canvas failure := by
  cases hw : c.preprocess.apply g with
  | error f =>
    rw [run_of_preprocess_error hw] at h
    cases h
    obtain ⟨rfl, t, hpreprocess, hdark⟩ := Preprocess.apply_error_iff.mp hw
    exact .emptyPreprocess hpreprocess hdark
  | ok working =>
    cases hs : canvas.start working with
    | error f =>
      rw [run_of_start_error hw hs] at h
      cases h
      cases canvas with
      | reference ref => cases hs
      | scaled a b =>
        by_cases hpos : 0 < a ∧ 0 < b
        · obtain ⟨start, hstart, -⟩ := Canvas.start_scaled working hpos.1 hpos.2
          rw [hstart] at hs
          cases hs
        · rw [Canvas.start_scaled_of_not_pos hpos] at hs
          cases hs
          exact .zeroFactor hw rfl (by omega)
    | ok start =>
      have hratio := Canvas.tileRatio_of_start hs
      by_cases hpos : start.rows / working.rows = 0 ∨ start.cols / working.cols = 0
      · rw [run_of_degenerate hw hs hpos] at h
        cases h
        cases canvas with
        | reference ref =>
          cases hs
          refine .smallReference hw rfl (hpos.imp ?_ ?_)
          · exact (Nat.div_eq_zero_iff_lt working.rows_pos).mp
          · exact (Nat.div_eq_zero_iff_lt working.cols_pos).mp
        | scaled a b =>
          obtain ⟨rfl, rfl⟩ := Prod.mk.inj hratio
          exact .zeroFactor hw rfl hpos
      · obtain ⟨i, hi, ⟨hselected, hfault⟩, hfirst⟩ := (run_error_of_room hg hw hs hpos).mp h
        exact .tile hw hratio hi hselected hfault fun j hj hsel f hf => hfirst j hj f ⟨hsel, hf⟩

theorem FailsWith.kind (h : c.FailsWith g canvas failure) : failure = .emptyPreprocess ∨
    (∃ rows cols, failure = .degenerateTileRatio rows cols) ∨
    (∃ expected found, failure = .tileShapeMismatch expected found) ∨
    ∃ color, failure = .grid (.colorOutOfRange 0 0 color) := by
  cases h with
  | emptyPreprocess => exact .inl rfl
  | zeroFactor => exact .inr (.inl ⟨_, _, rfl⟩)
  | smallReference => exact .inr (.inl ⟨_, _, rfl⟩)
  | tile _ _ _ _ hfault =>
    cases hfault with
    | color => exact .inr (.inr (.inr ⟨_, rfl⟩))
    | shape => exact .inr (.inr (.inl ⟨_, _, rfl⟩))

end Candidate
end Mosaic

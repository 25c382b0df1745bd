import Mosaic.Proofs.Answers
import Mosaic.Proofs.Forms
import Mosaic.Proofs.Rankings
import Mosaic.Proofs.Scalings

/-!
# Which tasks are worth a search

The ratios of shapes and the tally of colors decide on a task. Where binary64 holds the numbers of rows and
columns, each test says of a pair what it stands for: the ratios are one when the shapes are equal, whole when
the one number divides the other, and an output that is its input scaled by any factors is scaled by the ratios
(`TrainingPair.isScaled_iff`). So the tasks that are accepted are those of `Task.Accepted`, and scaling solves
none of them.
-/

namespace Mosaic

/-! ### Tests on a pair -/

namespace TrainingPair

variable {pair : TrainingPair} {a b : Nat}

theorem sameFigureCount_iff (hvalid : pair.Valid) :
    pair.sameFigureCount = true ↔ pair.input.figureKinds.card = pair.output.figureKinds.card := by
  have hinput := Grid.tally_of_inPalette (Grid.valid_iff.mp hvalid.input)
  have houtput := Grid.tally_of_inPalette (Grid.valid_iff.mp hvalid.output)
  rw [sameFigureCount, hinput, houtput, ← Grid.figureCount_of_tally hinput, ← Grid.figureCount_of_tally houtput]
  exact beq_iff_eq

/-- Only valid grids have tallies. -/
theorem valid_of_sameFigureCount (h : pair.sameFigureCount = true) : pair.Valid := by
  rw [sameFigureCount] at h
  split at h
  · rename_i hinput houtput
    exact ⟨Grid.valid_iff.mpr (Grid.inPalette_of_tally hinput), Grid.valid_iff.mpr (Grid.inPalette_of_tally houtput)⟩
  · cases h

section

variable (hexact : pair.ExactShapes)
include hexact

theorem keepsShape_iff : pair.keepsShape = true ↔ pair.output.shape = pair.input.shape := by
  rw [keepsShape, Bool.and_eq_true, shapeRatio,
    Binary64.isOne_ofRatio pair.input.rows_pos hexact.outputRows hexact.inputRows,
    Binary64.isOne_ofRatio pair.input.cols_pos hexact.outputCols hexact.inputCols, Grid.shape, Grid.shape,
    Prod.mk.injEq]

theorem isMultiple_iff : pair.isMultiple = true ↔
    pair.input.rows ∣ pair.output.rows ∧ pair.input.cols ∣ pair.output.cols := by
  rw [isMultiple, Bool.and_eq_true, isWholeFactor, isWholeFactor, Bool.and_eq_true, Bool.and_eq_true, shapeRatio,
    Binary64.atLeastOne_ofRatio pair.input.rows_pos hexact.outputRows hexact.inputRows,
    Binary64.atLeastOne_ofRatio pair.input.cols_pos hexact.outputCols hexact.inputCols,
    Binary64.isWhole_ofRatio pair.input.rows_pos hexact.outputRows hexact.inputRows,
    Binary64.isWhole_ofRatio pair.input.cols_pos hexact.outputCols hexact.inputCols]
  exact and_congr (and_iff_right_of_imp (Nat.le_of_dvd pair.output.rows_pos))
    (and_iff_right_of_imp (Nat.le_of_dvd pair.output.cols_pos))

/-- An output that is scaled by some factors has a shape whose ratios are these factors. -/
theorem factors_of_upscale? (h : pair.input.upscale? a b = some pair.output) :
    pair.factors = (a, b) ∧ pair.output.shape = (pair.input.rows * a, pair.input.cols * b) := by
  obtain ⟨ha, hb, hscale⟩ := Grid.upscale?_eq_some_iff.mp h
  have hshape : pair.output.shape = (pair.input.rows * a, pair.input.cols * b) := hscale ▸ Grid.shape_scale
  obtain ⟨hrows, hcols⟩ := Prod.mk.inj hshape
  refine ⟨?_, hshape⟩
  rw [factors_eq hexact, hrows, hcols, Nat.mul_div_cancel_left _ pair.input.rows_pos,
    Nat.mul_div_cancel_left _ pair.input.cols_pos]

/-- The ratios of the shapes are the only factors to be tried. -/
theorem isScaled_iff : pair.isScaled = true ↔
    ∃ a b, 1 ≤ a ∧ 1 ≤ b ∧ pair.input.upscale? a b = some pair.output := by
  constructor
  · intro h
    have hup := Scaling.upscale?_of_isScaled h
    obtain ⟨ha, hb, -⟩ := Grid.upscale?_eq_some_iff.mp hup
    exact ⟨_, _, ha, hb, hup⟩
  · rintro ⟨a, b, -, -, hup⟩
    obtain ⟨hfactors, hshape⟩ := factors_of_upscale? hexact hup
    have hwhole : pair.shapeRatio.1.isWhole = true ∧ pair.shapeRatio.2.isWhole = true := by
      rw [isWhole_iff hexact, hfactors]
      exact hshape
    obtain ⟨rfl, rfl⟩ := Prod.mk.inj hfactors
    rw [isScaled, Bool.and_eq_true, Bool.and_eq_true]
    exact ⟨hwhole, beq_iff_eq.mpr hup⟩

end

end TrainingPair

namespace Task

variable {task : Task}

theorem isTiling_iff : task.isTiling = true ↔ task.train ≠ [] ∧ (∃ pair ∈ task.train, pair.keepsShape = false) ∧
    (∀ pair ∈ task.train, pair.isMultiple = true) ∧ (∀ pair ∈ task.train, pair.sameFigureCount = true) ∧
    ∃ pair ∈ task.train, pair.isScaled = false := by
  by_cases htrain : task.train = []
  · simp [isTiling, htrain]
  · simp [isTiling, keepsShape, isMultiple, Scaling.solves, htrain, and_assoc]

/-- What makes a task worth a search, said of its grids. -/
structure Accepted (task : Task) : Prop where
  nonempty : task.train ≠ []
  resizes : ∃ pair ∈ task.train, pair.output.shape ≠ pair.input.shape
  rows_dvd : ∀ pair ∈ task.train, pair.input.rows ∣ pair.output.rows
  cols_dvd : ∀ pair ∈ task.train, pair.input.cols ∣ pair.output.cols
  card_eq : ∀ pair ∈ task.train, pair.input.figureKinds.card = pair.output.figureKinds.card
  notScaled : ∃ pair ∈ task.train, ∀ a b, 1 ≤ a → 1 ≤ b → pair.input.upscale? a b ≠ some pair.output

theorem isTiling_iff_accepted (hexact : ∀ pair ∈ task.train, pair.ExactShapes)
    (hvalid : ∀ pair ∈ task.train, pair.Valid) : task.isTiling = true ↔ task.Accepted := by
  have hresizes : (∃ pair ∈ task.train, pair.keepsShape = false) ↔
      ∃ pair ∈ task.train, pair.output.shape ≠ pair.input.shape :=
    exists_congr fun pair => and_congr_right fun hpair =>
      Bool.eq_false_iff.trans (not_congr (TrainingPair.keepsShape_iff (hexact pair hpair)))
  have hmultiple : (∀ pair ∈ task.train, pair.isMultiple = true) ↔ ∀ pair ∈ task.train,
      pair.input.rows ∣ pair.output.rows ∧ pair.input.cols ∣ pair.output.cols :=
    forall₂_congr fun pair hpair => TrainingPair.isMultiple_iff (hexact pair hpair)
  have hcount : (∀ pair ∈ task.train, pair.sameFigureCount = true) ↔ ∀ pair ∈ task.train,
      pair.input.figureKinds.card = pair.output.figureKinds.card :=
    forall₂_congr fun pair hpair => TrainingPair.sameFigureCount_iff (hvalid pair hpair)
  have hscaled : (∃ pair ∈ task.train, pair.isScaled = false) ↔ ∃ pair ∈ task.train,
      ∀ a b, 1 ≤ a → 1 ≤ b → pair.input.upscale? a b ≠ some pair.output := by
    refine exists_congr fun pair => and_congr_right fun hpair => ?_
    rw [Bool.eq_false_iff, Ne, TrainingPair.isScaled_iff (hexact pair hpair)]
    simp only [not_exists, not_and, Ne]
  rw [isTiling_iff, hresizes, hmultiple, hcount, hscaled]
  constructor
  · rintro ⟨hnonempty, hres, hdvd, hcard, hnot⟩
    exact ⟨hnonempty, hres, fun pair hpair => (hdvd pair hpair).1, fun pair hpair => (hdvd pair hpair).2, hcard, hnot⟩
  · rintro ⟨hnonempty, hres, hrows, hcols, hcard, hnot⟩
    exact ⟨hnonempty, hres, fun pair hpair => ⟨hrows pair hpair, hcols pair hpair⟩, hcard, hnot⟩

theorem not_scaled_of_isTiling (h : task.isTiling = true) : Scaling.solves task = false := by
  obtain ⟨-, -, -, -, pair, hpair, hscaled⟩ := isTiling_iff.mp h
  refine Bool.eq_false_iff.mpr fun hsolves => ?_
  rw [Scaling.isScaled_of_solves hsolves hpair] at hscaled
  cases hscaled

end Task

namespace Strategy

/-- A task of valid grids, whose numbers of rows and columns binary64 holds, is accepted for tiling just when it has
training pairs, some output differs from its input in shape, rows and columns of each input divide those of its
output, no pair changes the number of colors besides the background, and some output is its input scaled by no
factors at all. A task with other grids is not accepted, and none that is accepted is solved by scaling. -/
theorem tiling_detects_accepted (s : Session) (task : Task) :
    ((∀ pair ∈ task.train, pair.ExactShapes) → (∀ pair ∈ task.train, pair.Valid) →
      (tiling.detect s task = true ↔ task.Accepted)) ∧
    (tiling.detect s task = true → ∀ pair ∈ task.train, pair.Valid) ∧
    ¬(tiling.detect s task = true ∧ (scaling.solve () task).1 = true) := by
  refine ⟨Task.isTiling_iff_accepted, fun hdetect pair hpair => ?_, fun ⟨hdetect, hsolve⟩ => ?_⟩
  · exact TrainingPair.valid_of_sameFigureCount (Session.sameFigureCount_of_isTiling hdetect pair hpair)
  · exact Bool.false_ne_true ((Task.not_scaled_of_isTiling hdetect).symm.trans hsolve)

/-- One pair that keeps its shape and one that scaling solves do not stand in the way of a third. -/
theorem tiling_detects_accepted_third :
    let same : TrainingPair :=
      ⟨⟨1, 1, #[1], by decide, by decide, rfl⟩, ⟨1, 1, #[2], by decide, by decide, rfl⟩⟩
    let scaled : TrainingPair :=
      ⟨⟨1, 1, #[3], by decide, by decide, rfl⟩, ⟨2, 2, #[3, 3, 3, 3], by decide, by decide, rfl⟩⟩
    let tiled : TrainingPair :=
      ⟨⟨1, 2, #[1, 0], by decide, by decide, rfl⟩, ⟨1, 4, #[1, 0, 1, 0], by decide, by decide, rfl⟩⟩
    let task : Task := { train := [same, scaled, tiled], test := [], id := "a" }
    let s : Session := .new .standard
    (∀ pair ∈ task.train, pair.ExactShapes) ∧ (∀ pair ∈ task.train, pair.Valid) ∧
      tiling.detect s task = true ∧ task.Accepted ∧ (scaling.solve () task).1 = false := by
  intro same scaled tiled task s
  have hexact : ∀ pair ∈ task.train, pair.ExactShapes := by
    simp only [task, List.forall_mem_cons]
    exact ⟨⟨by decide, by decide, by decide, by decide⟩, ⟨by decide, by decide, by decide, by decide⟩,
      ⟨by decide, by decide, by decide, by decide⟩, by simp⟩
  have hdetect : tiling.detect s task = true := by decide +kernel
  obtain ⟨hiff, hvalid, hdisjoint⟩ := tiling_detects_accepted s task
  exact ⟨hexact, hvalid hdetect, hdetect, (hiff hexact (hvalid hdetect)).mp hdetect,
    Bool.eq_false_iff.mpr fun hsolve => hdisjoint ⟨hdetect, hsolve⟩⟩

end Strategy
end Mosaic

import Mosaic.Proofs.Quotients
import Mosaic.Proofs.Upscales
import Mosaic.Strategy

/-!
# What scaling gives back

Scaling holds a task for solved when it scales every pair by the pair's own factors, and then scales every
grid by the factors of the first pair. So it gives back the outputs of those pairs that have the factors of
the first one, and no others.
-/

namespace Mosaic

namespace Scaling

variable {task : Task} {pair : TrainingPair} {subject : Subject task} {a b : Nat}

theorem upscale?_of_isScaled (h : pair.isScaled = true) :
    pair.input.upscale? pair.factors.1 pair.factors.2 = some pair.output := by
  simp only [TrainingPair.isScaled, Bool.and_eq_true] at h
  exact beq_iff_eq.mp h.2

/-- A pair is scaled by no factors but its own. -/
theorem upscale?_eq_output_iff (h : pair.isScaled = true) :
    pair.input.upscale? a b = some pair.output ↔ pair.factors = (a, b) := by
  have hown := upscale?_of_isScaled h
  constructor
  · intro hother
    obtain ⟨ha, hb, hscale⟩ := Grid.upscale?_eq_some_iff.mp hother
    obtain ⟨hpos, hpos', hscale'⟩ := Grid.upscale?_eq_some_iff.mp hown
    have hshape := congrArg Grid.shape (hscale'.trans hscale.symm)
    rw [Grid.shape_scale, Grid.shape_scale, Prod.mk.injEq] at hshape
    exact Prod.ext (Nat.eq_of_mul_eq_mul_left pair.input.rows_pos hshape.1)
      (Nat.eq_of_mul_eq_mul_left pair.input.cols_pos hshape.2)
  · intro hfactors
    rwa [hfactors] at hown

theorem isScaled_of_solves (h : solves task = true) (hpair : pair ∈ task.train) :
    pair.isScaled = true := by
  rw [solves, Bool.and_eq_true, List.all_eq_true] at h
  exact h.2 pair hpair

theorem exists_factors_of_solves (h : solves task = true) :
    ∃ a b, task.outputRatio? = some (a, b) ∧ 0 < a ∧ 0 < b := by
  cases htrain : task.train with
  | nil => simp [solves, htrain] at h
  | cons first rest =>
    have hscaled := isScaled_of_solves h (htrain ▸ List.mem_cons_self : first ∈ task.train)
    obtain ⟨ha, hb, -⟩ := Grid.upscale?_eq_some_iff.mp (upscale?_of_isScaled hscaled)
    exact ⟨_, _, by rw [Task.outputRatio?_eq, htrain]; rfl, ha, hb⟩

theorem apply_of_solves (h : solves task = true) (hratio : task.outputRatio? = some (a, b)) (ha : 0 < a)
    (hb : 0 < b) : apply task subject = .ok (subject.grid.scale a b ha hb) := by
  have hup : subject.grid.upscale? a b = some (subject.grid.scale a b ha hb) :=
    Grid.upscale?_eq_some_iff.mpr ⟨ha, hb, rfl⟩
  simp only [apply, h, if_true, hratio, hup]

theorem apply_of_not_solves (h : solves task = false) :
    apply task subject = .error (.notSolved task.id) := by
  simp [apply, h]

end Scaling

namespace Strategy

/-- Once scaling has solved a task, it draws every grid larger by the factors of the first pair, which gives
back the outputs of those pairs that have these factors. Nothing is applied for a task that it does not
solve. -/
theorem scaling_applies_first_factors (task : Task) :
    let (solved, state) := scaling.solve () task
    (solved = true → ∃ a b, ∃ (ha : 0 < a) (hb : 0 < b), task.outputRatio? = some (a, b) ∧
      (∀ subject : Subject task,
        scaling.apply state task subject = .ok (subject.grid.scale a b ha hb)) ∧
      ∀ pair ∈ task.train, ∀ subject : Subject task, subject.grid = pair.input →
        (scaling.apply state task subject = .ok pair.output ↔ pair.factors = (a, b))) ∧
    (solved = false → ∀ subject : Subject task,
      scaling.apply state task subject = .error (.notSolved task.id)) := by
  refine ⟨fun hsolved => ?_, fun hnot subject => Scaling.apply_of_not_solves hnot⟩
  obtain ⟨a, b, hratio, ha, hb⟩ := Scaling.exists_factors_of_solves hsolved
  have happly : ∀ subject : Subject task, scaling.apply () task subject =
      .ok (subject.grid.scale a b ha hb) := fun subject => Scaling.apply_of_solves hsolved hratio ha hb
  refine ⟨a, b, ha, hb, hratio, happly, fun pair hpair subject hgrid => ?_⟩
  rw [← Scaling.upscale?_eq_output_iff (Scaling.isScaled_of_solves hsolved hpair),
    Grid.upscale?_eq_some_iff, ← hgrid]
  rw [happly, Except.ok.injEq]
  exact ⟨fun h => ⟨ha, hb, h⟩, fun ⟨_, _, h⟩ => h⟩

/-- Two pairs of one factor, which need not be the same along both axes: both outputs come back, and another
grid is drawn larger by it. -/
theorem scaling_applies_first_factors_twice :
    let wide : TrainingPair :=
      ⟨⟨1, 1, #[3], by decide, by decide, rfl⟩, ⟨1, 2, #[3, 3], by decide, by decide, rfl⟩⟩
    let tall : TrainingPair :=
      ⟨⟨2, 1, #[4, 0], by decide, by decide, rfl⟩, ⟨2, 2, #[4, 4, 0, 0], by decide, by decide, rfl⟩⟩
    let line : Grid := ⟨1, 3, #[7, 8, 9], by decide, by decide, rfl⟩
    let task : Task := { train := [wide, tall], test := [], id := "a" }
    (scaling.solve () task).1 = true ∧
      scaling.apply () task (.training ⟨1, by decide⟩) = .ok tall.output ∧
      scaling.apply () task (.own tall.input) = .ok tall.output ∧
      scaling.apply () task (.own line) = .ok ⟨1, 6, #[7, 7, 8, 8, 9, 9], by decide, by decide, rfl⟩ := by
  intro wide tall line task
  have hsolved : (scaling.solve () task).1 = true := by decide +kernel
  obtain ⟨a, b, ha, hb, hratio, hscaled, hpairs⟩ := (scaling_applies_first_factors task).1 hsolved
  have hfirst : task.outputRatio? = some (1, 2) := by decide +kernel
  cases Option.some.inj (hratio.symm.trans hfirst)
  have hfactors : tall.factors = (1, 2) := by decide +kernel
  have hmem : tall ∈ task.train := by decide
  have hline : line.scale 1 2 (by decide) (by decide) = ⟨1, 6, #[7, 7, 8, 8, 9, 9], by decide, by decide, rfl⟩ := by
    decide
  exact ⟨hsolved, (hpairs tall hmem _ rfl).mpr hfactors, (hpairs tall hmem _ rfl).mpr hfactors,
    (hscaled _).trans (congrArg Except.ok hline)⟩

/-- The second of two pairs is scaled by another factor than the first, and its output does not come
back. -/
theorem scaling_applies_first_factors_only :
    let two : TrainingPair :=
      ⟨⟨1, 1, #[1], by decide, by decide, rfl⟩, ⟨2, 2, #[1, 1, 1, 1], by decide, by decide, rfl⟩⟩
    let three : TrainingPair := ⟨⟨1, 1, #[2], by decide, by decide, rfl⟩,
      ⟨3, 3, #[2, 2, 2, 2, 2, 2, 2, 2, 2], by decide, by decide, rfl⟩⟩
    let task : Task := { train := [two, three], test := [], id := "a" }
    (scaling.solve () task).1 = true ∧
      scaling.apply () task (.training ⟨1, by decide⟩) = .ok ⟨2, 2, #[2, 2, 2, 2], by decide, by decide, rfl⟩ ∧
      scaling.apply () task (.training ⟨1, by decide⟩) ≠ .ok three.output := by
  decide +kernel

end Strategy
end Mosaic

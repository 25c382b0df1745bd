import Mosaic.Proofs.Failures
import Mosaic.Proofs.Predictions
import Mosaic.Proofs.Scalings
import Mosaic.Proofs.Validity

/-!
# Answers for accepted tasks

A task that is accepted has factors of at least one, so neither a scaled canvas nor the output of a training pair
is ever too small for a tile. Whatever valid grid its solution is applied to, the answer is a grid as large as the
factors make the preprocessed one, or one of three failures (`Session.accepted_answer`).
-/

namespace Mosaic

/-- A number that is less than the divisor is exact as that is, and their quotient is less than one. -/
theorem Binary64.le_of_atLeastOne {num den : Nat} (hpos : 0 < den) (hden : den < 2 ^ precision)
    (h : (ofRatio num den).atLeastOne = true) : den ≤ num := by
  by_contra hlt
  have hnum : num < 2 ^ precision := (Nat.lt_of_not_le hlt).trans hden
  exact hlt ((atLeastOne_ofRatio hpos hnum hden).mp h)

/-- Greater divisors come too near to a number that is less. -/
example : (Binary64.ofRatio (2 ^ 54 - 1) (2 ^ 54)).atLeastOne = true := by decide +kernel

namespace TrainingPair

variable {pair : TrainingPair}

/-- Grids that are all background have no other colors to count. -/
theorem sameFigureCount_of_background (hinput : ∀ color ∈ pair.input.cells, color = Color.background)
    (houtput : ∀ color ∈ pair.output.cells, color = Color.background) : pair.sameFigureCount = true := by
  have hcount : ∀ {g : Grid}, (∀ color ∈ g.cells, color = Color.background) →
      ∃ t, g.tally = .ok t ∧ t.figureCount = 0 := by
    intro g hg
    have hpalette : g.InPalette := fun color hcolor => hg color hcolor ▸ Color.background_inPalette
    have htally := Grid.tally_of_inPalette hpalette
    refine ⟨_, htally, List.length_eq_zero_iff.mpr (List.filter_eq_nil_iff.mpr fun color hcolor => ?_)⟩
    have hpalette : color.InPalette := Color.mem_palette_iff.mp (List.mem_of_mem_tail hcolor)
    rw [Grid.count_of_tally htally hpalette, decide_eq_true_eq, Array.count_pos_iff]
    intro hmem
    rw [hg color hmem] at hcolor
    exact absurd hcolor (by decide)
  obtain ⟨t, ht, hzero⟩ := hcount hinput
  obtain ⟨t', ht', hzero'⟩ := hcount houtput
  rw [sameFigureCount, ht, ht']
  exact beq_iff_eq.mpr (hzero.trans hzero'.symm)

theorem inPalette_of_sameFigureCount (h : pair.sameFigureCount = true) : pair.input.InPalette := by
  rw [sameFigureCount] at h
  split at h
  · exact Grid.inPalette_of_tally ‹_›
  · cases h

/-- An output that is a multiple of its input is no smaller. -/
theorem dims_le_of_isMultiple (h : pair.isMultiple = true) (hrows : pair.input.rows < 2 ^ Binary64.precision)
    (hcols : pair.input.cols < 2 ^ Binary64.precision) :
    pair.input.rows ≤ pair.output.rows ∧ pair.input.cols ≤ pair.output.cols := by
  simp only [isMultiple, isWholeFactor, shapeRatio, Bool.and_eq_true] at h
  exact ⟨Binary64.le_of_atLeastOne pair.input.rows_pos hrows h.1.1,
    Binary64.le_of_atLeastOne pair.input.cols_pos hcols h.2.1⟩

end TrainingPair

namespace Candidate

variable {c : Candidate} {g ref : Grid} {a b : Nat}

/-- On a reference that is no smaller than the grid, there is room for a tile whatever the preprocessing. -/
theorem not_degenerate_of_le (hg : g.InPalette) (hrows : g.rows ≤ ref.rows) (hcols : g.cols ≤ ref.cols) :
    c.run g (.reference ref) ≠ .error (.degenerateTileRatio a b) := by
  intro h
  cases failsWith_of_run_error hg h with
  | zeroFactor _ hcanvas => cases hcanvas
  | smallReference hworking hcanvas hsmall =>
    cases hcanvas
    obtain ⟨hr, hc⟩ := Preprocess.dims_le_of_apply hworking
    omega
  | tile _ _ _ _ hfault => cases hfault

/-- An answer made of `g` with factors `a` and `b`: an output as large as they make the preprocessed grid, or one of
three failures. -/
inductive Answers (c : Candidate) (g : Grid) (a b : Nat) : Except ApplyError Grid → Prop
  | output {working out : Grid} (hworking : c.preprocess.apply g = .ok working)
      (hshape : out.shape = (working.rows * a, working.cols * b)) : Answers c g a b (.ok out)
  | emptyPreprocess : Answers c g a b (.error (.trial .emptyPreprocess))
  | tileShapeMismatch {expected found : Shape} :
      Answers c g a b (.error (.trial (.tileShapeMismatch expected found)))
  | colorOutOfRange {color : Color} : Answers c g a b (.error (.trial (.grid (.colorOutOfRange 0 0 color))))

theorem answers_run (hg : g.InPalette) (ha : 0 < a) (hb : 0 < b) :
    c.Answers g a b ((c.run g (.scaled a b)).mapError .trial) := by
  cases h : c.run g (.scaled a b) with
  | ok out =>
    obtain ⟨working, -, -, hworking, -⟩ := exists_of_run h
    exact .output hworking (shape_of_run hworking h)
  | error failure =>
    cases failsWith_of_run_error hg h with
    | emptyPreprocess => exact .emptyPreprocess
    | zeroFactor _ hcanvas hzero =>
      cases hcanvas
      omega
    | smallReference _ hcanvas => cases hcanvas
    | tile _ _ _ _ hfault =>
      cases hfault with
      | color => exact .colorOutOfRange
      | shape => exact .tileShapeMismatch

end Candidate

namespace Session

variable {s : Session} {task : Task} {c : Candidate}

theorem sameFigureCount_of_isTiling (h : task.isTiling = true) :
    ∀ pair ∈ task.train, pair.sameFigureCount = true := by
  simp only [Task.isTiling, Bool.and_eq_true, List.all_eq_true] at h
  exact h.1.2

theorem ne_nil_of_isTiling (h : task.isTiling = true) : task.train ≠ [] := by
  intro hnil
  simp [Task.isTiling, hnil] at h

/-- The solution of an accepted task answers for every valid grid in one of the ways of `Candidate.Answers`, with
the factors of the first training pair. And no trial on a training pair, of any candidate, finds the output too
small for a tile, where binary64 holds the numbers of rows and columns of the input. -/
theorem accepted_answer (htiling : task.isTiling = true) (hsolved : s.solution? task = some c) :
    ∃ first rx ry, task.train.head? = some first ∧ task.outputRatio? = some (rx, ry) ∧ 1 ≤ rx ∧ 1 ≤ ry ∧
      (first.ExactShapes → first.output.shape = (first.input.rows * rx, first.input.cols * ry)) ∧
      (∀ g : Grid, g.Valid → c.Answers g rx ry (s.apply task (.own g))) ∧
      ∀ pair ∈ task.train, pair.input.rows < 2 ^ Binary64.precision →
        pair.input.cols < 2 ^ Binary64.precision → ∀ (d : Candidate) (rows cols : Nat),
          d.run pair.input (.reference pair.output) ≠ .error (.degenerateTileRatio rows cols) := by
  have hmultiple := isMultiple_of_isTiling htiling
  obtain ⟨first, rest, htrain⟩ := List.exists_cons_of_ne_nil (ne_nil_of_isTiling htiling)
  have hhead : task.train.head? = some first := by rw [htrain]; rfl
  have hfirst : first ∈ task.train := List.mem_of_head? hhead
  have hratio : task.outputRatio? = some first.factors := by rw [Task.outputRatio?_eq, hhead]; rfl
  obtain ⟨ha, hb⟩ := TrainingPair.factors_pos (hmultiple first hfirst)
  refine ⟨first, _, _, hhead, hratio, ha, hb, TrainingPair.shape_output (hmultiple first hfirst), ?_, ?_⟩
  · intro g hg
    rw [apply_own hsolved hratio]
    exact Candidate.answers_run (Grid.valid_iff.mp hg) ha hb
  · intro pair hpair hrows hcols d rows cols
    obtain ⟨hr, hc⟩ := TrainingPair.dims_le_of_isMultiple (hmultiple pair hpair) hrows hcols
    have hinput := TrainingPair.inPalette_of_sameFigureCount (sameFigureCount_of_isTiling htiling pair hpair)
    exact Candidate.not_degenerate_of_le hinput hr hc

/-- A seed that turns the tiles answers for a square, but not for a row. -/
theorem accepted_answer_turning :
    let pair : TrainingPair := ⟨⟨2, 2, #[1, 2, 3, 4], by decide, by decide, rfl⟩,
      ⟨2, 4, #[2, 4, 2, 4, 1, 3, 1, 3], by decide, by decide, rfl⟩⟩
    let task : Task := { train := [pair], test := [], id := "a" }
    let c : Candidate := ⟨.identity, .rot90 1, .always⟩
    let s := (new .standard).run [.seed (Register.empty.insert "a" c), .solve task]
    let square : Grid := ⟨3, 3, #[1, 0, 0, 0, 0, 0, 0, 0, 2], by decide, by decide, rfl⟩
    let row : Grid := ⟨1, 3, #[1, 0, 2], by decide, by decide, rfl⟩
    task.isTiling = true ∧ s.solution? task = some c ∧
      square.Valid ∧ c.Answers square 1 2 (s.apply task (.own square)) ∧
      row.Valid ∧ c.Answers row 1 2 (s.apply task (.own row)) ∧
      s.apply task (.own row) = .error (.trial (.tileShapeMismatch (1, 3) (3, 1))) ∧
      ∀ rows cols, (⟨.cropOuter 3, .swapAxes, .always⟩ : Candidate).run pair.input (.reference pair.output) ≠
        .error (.degenerateTileRatio rows cols) := by
  intro pair task c s square row
  have htiling : task.isTiling = true := by decide +kernel
  have hsolved : s.solution? task = some c := by decide +kernel
  have hsquare : square.Valid := Grid.valid_iff.mpr (by decide)
  have hrow : row.Valid := Grid.valid_iff.mpr (by decide)
  have hfactors : task.outputRatio? = some (1, 2) := by decide +kernel
  obtain ⟨first, rx, ry, -, hratio, -, -, -, hanswers, hroom⟩ := accepted_answer htiling hsolved
  cases hfactors.symm.trans hratio
  exact ⟨htiling, hsolved, hsquare, hanswers square hsquare, hrow, hanswers row hrow, by decide +kernel,
    hroom pair (List.mem_singleton_self pair) (by decide) (by decide) _⟩

/-- The ratio of numbers that are too great for binary64 is one, although the output has a row less than the
input: the task is accepted, and on its training pair there is no room for a tile. -/
theorem accepted_answer_row_less :
    let pair : TrainingPair := ⟨⟨1, 2, #[1, 0], by decide, by decide, rfl⟩,
      ⟨1, 4, #[1, 0, 1, 0], by decide, by decide, rfl⟩⟩
    let tall : TrainingPair := ⟨.replicate (2 ^ 54) 1 (by decide) (by decide) Color.background,
      .replicate (2 ^ 54 - 1) 2 (by decide) (by decide) Color.background⟩
    let task : Task := { train := [tall], test := [], id := "a" }
    let c : Candidate := ⟨.identity, .identity, .always⟩
    let s := (new .standard).run [.solve { train := [pair], test := [], id := "a" }]
    task.isTiling = true ∧ s.solution? task = some c ∧
      c.run tall.input (.reference tall.output) = .error (.degenerateTileRatio 0 2) := by
  intro pair tall task c s
  have hmultiple : tall.isMultiple = true := by decide +kernel
  have hkeeps : tall.keepsShape = false := by decide +kernel
  have hcolors : tall.sameFigureCount = true :=
    TrainingPair.sameFigureCount_of_background (fun _ h => (Array.mem_replicate.mp h).2)
      fun _ h => (Array.mem_replicate.mp h).2
  have hscaled : tall.isScaled = false := by
    refine Bool.eq_false_iff.mpr fun h => ?_
    obtain ⟨ha, hb, hscale⟩ := Grid.upscale?_eq_some_iff.mp (Scaling.upscale?_of_isScaled h)
    have hrows : 2 ^ 54 * tall.factors.1 = 2 ^ 54 - 1 := congrArg Grid.rows hscale
    omega
  have htiling : task.isTiling = true := by
    simp [Task.isTiling, Task.keepsShape, Task.isMultiple, Scaling.solves, task, hmultiple, hkeeps, hcolors, hscaled]
  have hdown : tall.output.rows / tall.input.rows = 0 := by decide
  have hacross : tall.output.cols / tall.input.cols = 2 := by decide
  have hrun := Candidate.run_of_degenerate (show c.preprocess.apply tall.input = .ok tall.input from rfl)
    (show (Canvas.reference tall.output).start tall.input = .ok tall.output from rfl) (.inl hdown)
  rw [hdown, hacross] at hrun
  exact ⟨htiling, by decide +kernel, hrun⟩

end Session
end Mosaic

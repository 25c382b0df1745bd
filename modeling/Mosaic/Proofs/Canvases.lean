import Mosaic.Proofs.Trials

/-!
# What a trial takes from its canvas

Of its canvas a trial reads the shape alone. Two canvases of one shape receive the same tiles, so either
the same tile fails on both, or both show that tile wherever one lies (`Laid.agree`); only a cell that no
tile covers shows what the canvas held. A reference that whole tiles cover therefore gives the output
that a background canvas of its size gives.
-/

namespace Mosaic

/-- Two outcomes that fail alike, or that differ at most where no tile lies. -/
inductive Agree (working : Grid) : (outcome outcome' : Except TrialFailure Grid) → Prop
  | fail (failure : TrialFailure) : Agree working (.error failure) (.error failure)
  | done {out out' : Grid} (shape : out.shape = out'.shape)
      (onTile : ∀ r col, Candidate.OnTile working out r col → out.get? r col = out'.get? r col) :
      Agree working (.ok out) (.ok out')

/-! ### Tiles on two canvases -/

namespace Laid

variable {content : Nat → Except TrialFailure Grid} {working canvas start start' : Grid}
  {across i todo : Nat} {failure failure' : TrialFailure} {outcome outcome' : Except TrialFailure Grid}

theorem not_error_of_ok {out : Grid} (h : Laid content working across i todo start (.ok out)) :
    ¬Laid content working across i todo start' (.error failure) := by
  rintro ⟨j, hij, hj, hfail, -⟩
  obtain ⟨tile, htile⟩ := h.2.1 j hij hj
  rw [hfail] at htile
  cases htile

/-- The tile that stops the loop is the first one without content, whatever it is laid over. -/
theorem error_unique (h : Laid content working across i todo start (.error failure))
    (h' : Laid content working across i todo start' (.error failure')) : failure = failure' := by
  obtain ⟨j, hij, -, hfail, hbefore⟩ := h
  obtain ⟨j', hij', -, hfail', hbefore'⟩ := h'
  rcases Nat.lt_trichotomy j j' with hlt | rfl | hlt
  · obtain ⟨tile, htile⟩ := hbefore' j hij hlt
    rw [hfail] at htile
    cases htile
  · rw [hfail] at hfail'
    exact Except.error.inj hfail'
  · obtain ⟨tile, htile⟩ := hbefore j' hij' hlt
    rw [hfail'] at htile
    cases htile

theorem agree (hshape : start.shape = start'.shape)
    (h : Laid content working (start.cols / working.cols) 0
      (start.rows / working.rows * (start.cols / working.cols)) start outcome)
    (h' : Laid content working (start.cols / working.cols) 0
      (start.rows / working.rows * (start.cols / working.cols)) start' outcome') :
    Agree working outcome outcome' := by
  cases outcome with
  | error failure =>
    cases outcome' with
    | error failure' =>
      obtain rfl := h.error_unique h'
      exact .fail failure
    | ok out' => exact absurd h h'.not_error_of_ok
  | ok out =>
    cases outcome' with
    | error failure' => exact absurd h' h.not_error_of_ok
    | ok out' =>
      have hout : out.shape = start.shape := h.1
      have hout' : out'.shape = start'.shape := h'.1
      refine .done (hout.trans (hshape.trans hout'.symm)) fun r col hon => ?_
      rw [Candidate.OnTile, Grid.rows_of_shape_eq hout, Grid.cols_of_shape_eq hout] at hon
      -- both outputs show the content of the tile that the cell lies on
      obtain ⟨tile, htile, hget⟩ := h.get?_of_tile hon
      obtain ⟨tile', htile', hget'⟩ := h'.get?_of_tile hon
      rw [htile] at htile'
      cases htile'
      rw [hget, hget']

end Laid

/-! ### Trials on two canvases -/

namespace Candidate

variable {c : Candidate} {g working start start' ref ref' out : Grid} {canvas canvas' : Canvas}
  {r col : Nat}

theorem onTile_iff : OnTile working out r col ↔
    r < out.rows / working.rows * working.rows ∧ col < out.cols / working.cols * working.cols := by
  rw [OnTile, Nat.div_lt_iff_lt_mul working.rows_pos, Nat.div_lt_iff_lt_mul working.cols_pos]

theorem run_agree (hw : c.preprocess.apply g = .ok working) (hs : canvas.start working = .ok start)
    (hs' : canvas'.start working = .ok start') (hshape : start.shape = start'.shape) :
    Agree working (c.run g canvas) (c.run g canvas') := by
  have hrows := Grid.rows_of_shape_eq hshape
  have hcols := Grid.cols_of_shape_eq hshape
  by_cases hpos : start.rows / working.rows = 0 ∨ start.cols / working.cols = 0
  · have hpos' : start'.rows / working.rows = 0 ∨ start'.cols / working.cols = 0 := hrows ▸ hcols ▸ hpos
    rw [run_of_degenerate hw hs hpos, run_of_degenerate hw hs' hpos', hrows, hcols]
    exact .fail _
  · have hpos' : ¬(start'.rows / working.rows = 0 ∨ start'.cols / working.cols = 0) :=
      hrows ▸ hcols ▸ hpos
    cases hk : c.query.criterion working with
    | error failure =>
      rw [run_of_criterion_error hw hs hpos hk, run_of_criterion_error hw hs' hpos' hk]
      exact .fail failure
    | ok k =>
      have hlaid := laid_run hw hs hpos hk
      have hlaid' := laid_run hw hs' hpos' hk
      rw [← hrows, ← hcols] at hlaid'
      exact hlaid.agree hshape hlaid'

/-- Where tiles cover the whole canvas, outcomes that agree are equal. -/
theorem eq_of_agree {outcome outcome' : Except TrialFailure Grid} (h : Agree working outcome outcome')
    (hcovered : ∀ out, outcome = .ok out → ∀ r col, r < out.rows → col < out.cols →
      OnTile working out r col) : outcome = outcome' := by
  cases h with
  | fail failure => rfl
  | @done out out' hshape hcells =>
    refine congrArg Except.ok (Grid.ext_get? hshape fun r col => ?_)
    by_cases hin : r < out.rows ∧ col < out.cols
    · exact hcells r col (hcovered out rfl r col hin.1 hin.2)
    · have hin' : ¬(r < out'.rows ∧ col < out'.cols) :=
        Grid.rows_of_shape_eq hshape ▸ Grid.cols_of_shape_eq hshape ▸ hin
      rw [Grid.get?_of_not_lt hin, Grid.get?_of_not_lt hin']

theorem shape_of_run {out : Grid} (hw : c.preprocess.apply g = .ok working)
    (h : c.run g canvas = .ok out) : out.shape = canvas.shape working := by
  obtain ⟨working', start, k, hw', hs, hpos, hk⟩ := exists_of_run h
  rw [hw] at hw'
  cases hw'
  exact (tiled_of_run hw hs hpos hk h).shape

theorem run_reference_eq_scaled {a b : Nat} (hw : c.preprocess.apply g = .ok working) (ha : 0 < a)
    (hb : 0 < b) (hshape : ref.shape = (working.rows * a, working.cols * b)) :
    c.run g (.reference ref) = c.run g (.scaled a b) := by
  obtain ⟨start, hs, hstart⟩ := Canvas.start_scaled working ha hb
  have hagree : Agree working (c.run g (.reference ref)) (c.run g (.scaled a b)) :=
    run_agree hw rfl hs (hshape.trans hstart.symm)
  refine eq_of_agree hagree fun out hout r col hr hc => ?_
  exact onTile_of_scaled ((shape_of_run hw hout).trans hshape) hr hc

/-- Two references of one shape make a candidate fail alike or put out the same on every tiled cell, and a
reference of just so many working grids is worth the scaled canvas of its size. -/
theorem run_reference_agree (hshape : ref.shape = ref'.shape) :
    ((∃ failure, c.run g (.reference ref) = .error failure ∧
        c.run g (.reference ref') = .error failure) ∨
      ∃ out out', c.run g (.reference ref) = .ok out ∧ c.run g (.reference ref') = .ok out' ∧
        out.shape = out'.shape ∧
        ∀ working, c.preprocess.apply g = .ok working → ∀ r col,
          r < ref.rows / working.rows * working.rows → col < ref.cols / working.cols * working.cols →
          out.get? r col = out'.get? r col) ∧
    ∀ working a b, c.preprocess.apply g = .ok working → 0 < a → 0 < b →
      ref.shape = (working.rows * a, working.cols * b) →
      c.run g (.reference ref) = c.run g (.scaled a b) := by
  refine ⟨?_, fun working a b hw ha hb => run_reference_eq_scaled hw ha hb⟩
  cases hw : c.preprocess.apply g with
  | error failure =>
    exact .inl ⟨failure, run_of_preprocess_error hw, run_of_preprocess_error hw⟩
  | ok working =>
    have hagree : Agree working (c.run g (.reference ref)) (c.run g (.reference ref')) :=
      run_agree hw rfl rfl hshape
    generalize hout : c.run g (.reference ref) = outcome at hagree ⊢
    generalize c.run g (.reference ref') = outcome' at hagree ⊢
    cases hagree with
    | fail failure => exact .inl ⟨failure, rfl, rfl⟩
    | @done out out' hshape hcells =>
      refine .inr ⟨out, out', rfl, rfl, hshape, fun working' hw' r col hr hc => ?_⟩
      cases hw'
      have href : out.shape = ref.shape := shape_of_run hw hout
      refine hcells r col (onTile_iff.mpr ?_)
      rw [Grid.rows_of_shape_eq href, Grid.cols_of_shape_eq href]
      exact ⟨hr, hc⟩

/-- Tiles that turn, on references of nines and of threes: the last row and the last column keep their
color, and where the reference has just four tiles, zeros would have done. -/
theorem run_reference_agree_turning :
    let c : Candidate := ⟨.cropInner 0, .rotateLoop 0, .notZero⟩
    let g : Grid := ⟨2, 3, #[1, 2, 0, 0, 4, 0], by decide, by decide, rfl⟩
    let nines : Grid := ⟨5, 5, Array.replicate 25 9, by decide, by decide, rfl⟩
    let threes : Grid := ⟨5, 5, Array.replicate 25 3, by decide, by decide, rfl⟩
    let whole : Grid := ⟨4, 4, Array.replicate 16 9, by decide, by decide, rfl⟩
    nines.shape = threes.shape ∧
      (∃ out out', c.run g (.reference nines) = .ok out ∧ c.run g (.reference threes) = .ok out' ∧
        out.get? 1 3 = out'.get? 1 3 ∧ out.get? 4 0 = some 9 ∧ out'.get? 4 0 = some 3) ∧
      c.run g (.reference whole) = c.run g (.scaled 2 2) := by
  intro c g nines threes whole
  have hworking : c.preprocess.apply g = .ok ⟨2, 2, #[1, 2, 0, 4], by decide, by decide, rfl⟩ := by
    decide +kernel
  have hshape : nines.shape = threes.shape := rfl
  have hnine : ((c.run g (.reference nines)).map (·.get? 4 0)) = .ok (some 9) := by decide +kernel
  have hthree : ((c.run g (.reference threes)).map (·.get? 4 0)) = .ok (some 3) := by decide +kernel
  refine ⟨hshape, ?_, ?_⟩
  · rcases (run_reference_agree (c := c) (g := g) hshape).1 with
      ⟨failure, hfail, -⟩ | ⟨out, out', hout, hout', -, hcells⟩
    · rw [hfail] at hnine
      cases hnine
    · rw [hout] at hnine
      rw [hout'] at hthree
      exact ⟨out, out', hout, hout', hcells _ hworking 1 3 (by decide) (by decide),
        Except.ok.inj hnine, Except.ok.inj hthree⟩
  · have hself : whole.shape = whole.shape := rfl
    exact (run_reference_agree hself).2 _ 2 2 hworking (by decide) (by decide) rfl

end Candidate
end Mosaic

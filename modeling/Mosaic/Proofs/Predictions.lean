import Mosaic.Proofs.Canvases
import Mosaic.Proofs.Crops
import Mosaic.Proofs.Histories
import Mosaic.Proofs.Quotients
import Mosaic.Proofs.Resumption

/-!
# Predictions for copies of training inputs

A solution makes a training output over a canvas that holds it. For a grid that only equals the training
input it has a canvas of background, as large as the factors of the task make the preprocessed grid. This
canvas takes no more tiles than the other, so it can be filled; the two outputs are the same when the two
canvases have one shape, which is when preprocessing keeps the shape of the input.
-/

namespace Mosaic

/-! ### Counts of selected tiles -/

section

variable {selects : Nat → Nat → Bool} {down down' across across' i j n : Nat}

theorem selectedBefore_mono (h : i ≤ j) :
    selectedBefore selects across i ≤ selectedBefore selects across j :=
  (List.range_sublist.mpr h).countP_le

theorem selectedBefore_row {x : Nat} : selectedBefore selects across ((x + 1) * across) =
    selectedBefore selects across (x * across) + (List.range across).countP (selects x) := by
  rw [Nat.succ_mul, selectedBefore, List.range_add, List.countP_append, List.countP_map]
  congr 1
  refine List.countP_congr fun y hy => ?_
  have hlt := List.mem_range.mp hy
  rw [Function.comp_apply, Grid.index_div hlt, Grid.index_mod hlt]

theorem selectedBefore_le (hdown : down' ≤ down) (hacross : across' ≤ across) :
    selectedBefore selects across' (down' * across') ≤ selectedBefore selects across (down * across) := by
  have hrows : ∀ x, selectedBefore selects across' (x * across') ≤
      selectedBefore selects across (x * across) := fun x => by
    induction x with
    | zero => simp [selectedBefore]
    | succ x ih =>
      rw [selectedBefore_row, selectedBefore_row]
      exact Nat.add_le_add ih (List.range_sublist.mpr hacross).countP_le
  exact (hrows down').trans (selectedBefore_mono (Nat.mul_le_mul_right across hdown))

theorem selectedBefore_lt (hi : i < n) (hselected : selects (i / across) (i % across) = true) :
    selectedBefore selects across i < selectedBefore selects across n :=
  calc selectedBefore selects across i < selectedBefore selects across (i + 1) := by
        rw [selectedBefore_succ, if_pos hselected]
        exact Nat.lt_succ_self _
    _ ≤ selectedBefore selects across n := selectedBefore_mono hi

/-- Among the first `total` tiles, every number below that of the selected ones counts those before one
of them. -/
theorem exists_selected {total : Nat} (h : n < selectedBefore selects across total) :
    ∃ j < total, selects (j / across) (j % across) = true ∧ selectedBefore selects across j = n := by
  induction total with
  | zero => exact absurd h (Nat.not_lt_zero n)
  | succ total ih =>
    by_cases hbefore : n < selectedBefore selects across total
    · obtain ⟨j, hj, hselected, hcount⟩ := ih hbefore
      exact ⟨j, Nat.lt_succ_of_lt hj, hselected, hcount⟩
    · rw [selectedBefore_succ] at h
      split at h
      · rename_i hselected
        exact ⟨total, Nat.lt_succ_self total, hselected, by omega⟩
      · omega

end

/-! ### Fewer tiles -/

theorem TileSource.content_congr {source : TileSource} {selects : Nat → Nat → Bool} {working : Grid}
    {across across' i j : Nat} (hi : selects (i / across) (i % across) = true)
    (hj : selects (j / across') (j % across') = true)
    (hcount : selectedBefore selects across i = selectedBefore selects across' j) :
    source.content selects working across i = source.content selects working across' j := by
  rw [content, content, if_pos hi, if_pos hj, hcount]

/-- Where all tiles of a canvas have contents, so have those of a canvas with fewer rows and columns of
tiles: a selected one takes the content that a selected one of the first canvas takes. -/
theorem Laid.ok_of_le {source : TileSource} {selects : Nat → Nat → Bool}
    {working start start' out : Grid} {down down' across across' : Nat}
    {outcome : Except TrialFailure Grid} (hdown : down' ≤ down) (hacross : across' ≤ across)
    (h : Laid (source.content selects working across) working across 0 (down * across) start (.ok out))
    (h' : Laid (source.content selects working across') working across' 0 (down' * across') start'
      outcome) : ∃ out', outcome = .ok out' := by
  cases outcome with
  | ok out' => exact ⟨out', rfl⟩
  | error failure =>
    obtain ⟨i, -, hi, hfail, -⟩ := h'
    rw [Nat.zero_add] at hi
    -- a tile that is not selected is blank and cannot fail
    have hselected : selects (i / across') (i % across') = true := by
      by_contra hnot
      rw [TileSource.content_of_not_selected (Bool.eq_false_iff.mpr hnot)] at hfail
      cases hfail
    obtain ⟨j, hj, hjselected, hcount⟩ := exists_selected
      (Nat.lt_of_lt_of_le (selectedBefore_lt hi hselected) (selectedBefore_le hdown hacross))
    obtain ⟨tile, htile⟩ := h.2.1 j (Nat.zero_le j) (by omega)
    rw [TileSource.content_congr hjselected hselected hcount, hfail] at htile
    cases htile

theorem Preprocess.dims_le_of_apply {p : Preprocess} {g working : Grid} (h : p.apply g = .ok working) :
    working.rows ≤ g.rows ∧ working.cols ≤ g.cols := by
  cases p with
  | identity => cases h; exact ⟨Nat.le_refl _, Nat.le_refl _⟩
  | cropInner t => cases h; exact Grid.dims_cropInner_le
  | cropOuter t =>
    rw [apply] at h
    split at h <;> cases h
    exact Grid.dims_le_of_cropOuter? ‹_›

namespace Candidate

variable {c : Candidate} {g working ref out : Grid} {a b : Nat}

/-- Of its preprocessing a candidate uses the working grid alone. -/
theorem run_congr {d : Candidate} {canvas : Canvas} (hw : c.preprocess.apply g = d.preprocess.apply g)
    (ht : c.transform = d.transform) (hq : c.query = d.query) : c.run g canvas = d.run g canvas := by
  rw [run, run, hw]
  simp only [fill, ht, hq]

/-- A candidate that fills a reference fills every scaled canvas with no more tiles. -/
theorem exists_run_scaled (hw : c.preprocess.apply g = .ok working)
    (h : c.run g (.reference ref) = .ok out) (ha : 0 < a) (hb : 0 < b)
    (hrows : a ≤ ref.rows / working.rows) (hcols : b ≤ ref.cols / working.cols) :
    ∃ out', c.run g (.scaled a b) = .ok out' ∧ out'.shape = (working.rows * a, working.cols * b) := by
  obtain ⟨working', start, k, hw', hs, hpos, hk⟩ := exists_of_run h
  cases hw.symm.trans hw'
  obtain rfl : start = ref := (Except.ok.inj hs).symm
  obtain ⟨start', hs', hstart⟩ := Canvas.start_scaled working ha hb
  obtain ⟨hdown, hacross⟩ : start'.rows / working.rows = a ∧ start'.cols / working.cols = b := by
    obtain ⟨hr, hc⟩ := Prod.mk.inj hstart
    rw [hr, hc]
    exact ⟨Nat.mul_div_cancel_left a working.rows_pos, Nat.mul_div_cancel_left b working.cols_pos⟩
  -- the criterion depends on the working grid only, so it is the same over both canvases
  have hlaid := laid_run hw hs hpos hk
  have hlaid' := laid_run hw hs' (by omega) hk
  rw [h] at hlaid
  rw [hdown, hacross] at hlaid'
  obtain ⟨out', hout'⟩ := Laid.ok_of_le hrows hcols hlaid hlaid'
  exact ⟨out', hout', shape_of_run hw hout'⟩

/-- A reproduced reference comes out over background just when that has its shape. -/
theorem run_scaled_eq_iff (hw : c.preprocess.apply g = .ok working)
    (h : c.run g (.reference ref) = .ok ref) (ha : 0 < a) (hb : 0 < b) :
    c.run g (.scaled a b) = .ok ref ↔ ref.shape = (working.rows * a, working.cols * b) :=
  ⟨shape_of_run hw, fun hshape => run_reference_eq_scaled hw ha hb hshape ▸ h⟩

/-- If the reference is as large as the factors make the grid itself, the scaled canvas can be filled, and
it is the reference that comes out just when preprocessing keeps the shape of the grid. -/
theorem exists_run_scaled_of_multiple (hw : c.preprocess.apply g = .ok working)
    (h : c.run g (.reference ref) = .ok ref) (ha : 0 < a) (hb : 0 < b)
    (hshape : ref.shape = (g.rows * a, g.cols * b)) :
    ∃ out, c.run g (.scaled a b) = .ok out ∧ out.shape = (working.rows * a, working.cols * b) ∧
      (out = ref ↔ working.shape = g.shape) := by
  obtain ⟨hr, hc⟩ := Prod.mk.inj hshape
  obtain ⟨hrows, hcols⟩ := Preprocess.dims_le_of_apply hw
  have hdown : a ≤ ref.rows / working.rows := by
    rw [Nat.le_div_iff_mul_le working.rows_pos, hr, Nat.mul_comm]
    exact Nat.mul_le_mul_right a hrows
  have hacross : b ≤ ref.cols / working.cols := by
    rw [Nat.le_div_iff_mul_le working.cols_pos, hc, Nat.mul_comm]
    exact Nat.mul_le_mul_right b hcols
  obtain ⟨out, hout, houtShape⟩ := exists_run_scaled hw h ha hb hdown hacross
  refine ⟨out, hout, houtShape, ?_⟩
  have hiff := run_scaled_eq_iff hw h ha hb
  rw [hout, Except.ok.injEq] at hiff
  rw [hiff, hshape, Prod.mk.injEq, Nat.mul_right_cancel_iff ha, Nat.mul_right_cancel_iff hb, eq_comm,
    eq_comm (a := g.cols), ← Prod.mk.injEq]
  rfl

end Candidate

namespace Session

variable {s : Session} {task : Task} {c : Candidate} {events : List Event} {variant : CatalogVariant}

/-! ### Copies of training inputs -/

theorem apply_own {g : Grid} {a b : Nat} (hget : s.verified.get? task.id = some c)
    (hratio : task.outputRatio? = some (a, b)) :
    s.apply task (.own g) = (c.run g (.scaled a b)).mapError .trial := by
  have hsolution : s.solution? task = some c := hget
  have hcanvas : (Subject.own g : Subject task).canvas = .ok (.scaled a b) := by
    simp only [Subject.canvas, Subject.reference?, hratio]
  simp only [apply, hsolution, hcanvas, Subject.grid]
  cases c.run g (.scaled a b) <;> rfl

theorem apply_own_ok_iff {g out : Grid} {a b : Nat} (hget : s.verified.get? task.id = some c)
    (hratio : task.outputRatio? = some (a, b)) :
    s.apply task (.own g) = .ok out ↔ c.run g (.scaled a b) = .ok out := by
  rw [apply_own hget hratio]
  cases c.run g (.scaled a b) <;> simp [Except.mapError]

theorem isMultiple_of_isTiling (h : task.isTiling = true) : ∀ pair ∈ task.train, pair.isMultiple = true := by
  simp only [Task.isTiling, Task.isMultiple, Bool.and_eq_true, List.all_eq_true] at h
  exact h.1.1.2

/-- A solved task answers for a copy of a training input with the training output just when this has the
shape that the factors of the task make of the preprocessed input. If all pairs have one shape ratio, and
factors that are exact, there is always an answer of that shape, which is the training output just when
preprocessing keeps the shape of the input. -/
theorem training_copy_output (later : List Event) (htiling : task.isTiling = true)
    (hids : ∀ t ∈ tasks events, t.id = task.id → t.train = task.train)
    (hsolved : (((new variant).run events).search task).1 = .solved c) :
    ∀ pair ∈ task.train, ∃ working a b,
      c.preprocess.apply pair.input = .ok working ∧ task.outputRatio? = some (a, b) ∧
      let answer := ((((new variant).run events).search task).2.run later).apply task (.own pair.input)
      (answer = .ok pair.output ↔ pair.output.shape = (working.rows * a, working.cols * b)) ∧
      ((∀ p ∈ task.train, ∀ q ∈ task.train, p.shapeRatio = q.shapeRatio) → pair.ExactShapes →
        ∃ out, answer = .ok out ∧ out.shape = (working.rows * a, working.cols * b) ∧
          (out = pair.output ↔ working.shape = pair.input.shape)) := by
  intro pair hpair
  have hget : ((((new variant).run events).search task).2.run later).verified.get? task.id = some c :=
    get?_run_of_some (get?_of_search_solved hsolved)
  have hrun : c.run pair.input (.reference pair.output) = .ok pair.output :=
    solves_of_get? hids (get?_of_search_solved hsolved) pair hpair
  have hmultiple := isMultiple_of_isTiling htiling
  obtain ⟨working, -, -, hw, -⟩ := Candidate.exists_of_run hrun
  obtain ⟨first, rest, htrain⟩ := List.exists_cons_of_ne_nil (List.ne_nil_of_mem hpair)
  have hfirst : first ∈ task.train := htrain ▸ List.mem_cons_self
  have hratio : task.outputRatio? = some first.factors := by rw [Task.outputRatio?_eq, htrain]; rfl
  obtain ⟨ha, hb⟩ := TrainingPair.factors_pos (hmultiple first hfirst)
  refine ⟨working, first.factors.1, first.factors.2, hw, hratio, ?_, fun hratios hexact => ?_⟩
  · rw [apply_own_ok_iff hget hratio]
    exact Candidate.run_scaled_eq_iff hw hrun ha hb
  · have hfactors : first.factors = pair.factors := by
      rw [TrainingPair.factors, TrainingPair.factors, hratios first hfirst pair hpair]
    have hshape : pair.output.shape =
        (pair.input.rows * first.factors.1, pair.input.cols * first.factors.2) := by
      rw [hfactors]
      exact TrainingPair.shape_output (hmultiple pair hpair) hexact
    simp only [apply_own_ok_iff hget hratio]
    exact Candidate.exists_run_scaled_of_multiple hw hrun ha hb hshape

/-- A figure kept on its diagonal, among other tasks; and two outputs of one input, which need not be of one
size for the copy to be answered with the first. -/
theorem training_copy_output_diagonal :
    let pair : TrainingPair := ⟨⟨2, 2, #[1, 0, 0, 1], by decide, by decide, rfl⟩,
      ⟨4, 4, #[1, 0, 0, 0, 0, 1, 0, 0, 0, 0, 1, 0, 0, 0, 0, 1], by decide, by decide, rfl⟩⟩
    let wide : TrainingPair :=
      ⟨⟨1, 2, #[1, 2], by decide, by decide, rfl⟩, ⟨1, 4, #[1, 2, 1, 2], by decide, by decide, rfl⟩⟩
    let wider : TrainingPair := ⟨wide.input, ⟨1, 6, #[1, 2, 1, 2, 1, 2], by decide, by decide, rfl⟩⟩
    let task : Task := { train := [pair], test := [], id := "a" }
    let other : Task := { train := [wide, wider], test := [], id := "b" }
    let s := (new .standard).run [.budget ⟨some 5, none⟩, .search other]
    let answer := ((s.search task).2.run [.solve other]).apply task (.own pair.input)
    let otherAnswer := ((s.search other).2.run []).apply other (.own wide.input)
    task.isTiling = true ∧ (s.search task).1 = .solved ⟨.identity, .identity, .notZero⟩ ∧
      pair.ExactShapes ∧ answer = .ok pair.output ∧
    other.isTiling = true ∧ (s.search other).1 = .solved ⟨.identity, .identity, .always⟩ ∧
      wide.shapeRatio ≠ wider.shapeRatio ∧ otherAnswer = .ok wide.output ∧ otherAnswer ≠ .ok wider.output := by
  intro pair wide wider task other s answer otherAnswer
  have htiling : task.isTiling = true := by decide +kernel
  have htiling' : other.isTiling = true := by decide +kernel
  have hratios : ∀ p ∈ task.train, ∀ q ∈ task.train, p.shapeRatio = q.shapeRatio := by
    intro p hp q hq
    rw [List.mem_singleton.mp hp, List.mem_singleton.mp hq]
  have hother : ∀ t ∈ tasks [.budget ⟨some 5, none⟩, .search other], t = other := fun t ht =>
    List.mem_singleton.mp ht
  have hids : ∀ t ∈ tasks [.budget ⟨some 5, none⟩, .search other], t.id = task.id →
      t.train = task.train := by
    intro t ht hid
    rw [hother t ht] at hid
    exact absurd hid (by decide)
  have hids' : ∀ t ∈ tasks [.budget ⟨some 5, none⟩, .search other], t.id = other.id →
      t.train = other.train := fun t ht _ => by rw [hother t ht]
  have hsolved : (s.search task).1 = .solved ⟨.identity, .identity, .notZero⟩ := by decide +kernel
  have hsolved' : (s.search other).1 = .solved ⟨.identity, .identity, .always⟩ := by decide +kernel
  have hexact : pair.ExactShapes := ⟨by decide, by decide, by decide, by decide⟩
  obtain ⟨working, a, b, hw, -, -, hanswer⟩ := training_copy_output [.solve other] htiling hids hsolved pair
    (List.mem_singleton_self pair)
  obtain ⟨out, hout, -, hiff⟩ := hanswer hratios hexact
  have hshape : working.shape = pair.input.shape := congrArg Grid.shape (Except.ok.inj hw).symm
  obtain ⟨working', a', b', hw', hratio', hiff', -⟩ := training_copy_output [] htiling' hids' hsolved' wide
    List.mem_cons_self
  cases Except.ok.inj hw'
  cases Option.some.inj (hratio'.symm.trans (by decide +kernel : other.outputRatio? = some (1, 2)))
  have hkept : otherAnswer = .ok wide.output := hiff'.mpr rfl
  refine ⟨htiling, hsolved, hexact, hiff.mpr hshape ▸ hout, htiling', hsolved', by decide +kernel, hkept, ?_⟩
  rw [hkept]
  decide

/-- The first candidate that solves a task may crop its input and then answer for the copy with too small
a grid; and under an id that was used the answer is that of the earlier task. -/
theorem training_copy_output_not_training_output :
    let cropped : TrainingPair :=
      ⟨⟨1, 2, #[0, 7], by decide, by decide, rfl⟩, ⟨1, 4, #[7, 7, 7, 7], by decide, by decide, rfl⟩⟩
    let kept : TrainingPair :=
      ⟨⟨1, 2, #[1, 2], by decide, by decide, rfl⟩, ⟨1, 4, #[1, 2, 1, 2], by decide, by decide, rfl⟩⟩
    let flipped : TrainingPair := ⟨kept.input, ⟨1, 4, #[2, 1, 2, 1], by decide, by decide, rfl⟩⟩
    let task (pair : TrainingPair) : Task := { train := [pair], test := [], id := "a" }
    let s := (new .legacy).search (task cropped)
    let s' := ((new .legacy).run [.search (task kept)]).search (task flipped)
    ((task cropped).isTiling = true ∧ ∃ c, s.1 = .solved c ∧
      s.2.apply (task cropped) (.own cropped.input) ≠ .ok cropped.output) ∧
    ((task flipped).isTiling = true ∧ s'.1 = .solved ⟨.identity, .identity, .always⟩ ∧
      s'.2.apply (task flipped) (.own flipped.input) = .ok kept.output) := by
  intro cropped kept flipped task s s'
  refine ⟨⟨by decide +kernel, ?_⟩, by decide +kernel, by decide +kernel, by decide +kernel⟩
  -- the catalog has a solution, so one is found
  have hsearch : s = (new .legacy).enumerate (task cropped) := search_of_no_seed rfl rfl
  have hends := ends_enumerate (new .legacy) (task cropped)
  rw [← hsearch] at hends
  have hnth : (new .legacy).catalog.enumeration.nth? 1188 = some ⟨.cropInner 0, .identity, .always⟩ := by
    rw [Enumeration.nth?_of_lt Catalog.wellPlaced_enumeration Catalog.taken_enumeration (by decide +kernel)]
    rfl
  have hcrop : (⟨.cropInner 0, .identity, .always⟩ : Candidate).Solves (task cropped) := by decide +kernel
  obtain ⟨c, hc⟩ := hends.exists_solved ⟨1188, hnth, ENat.natCast_lt_top 1188⟩ hcrop
  refine ⟨c, hc, fun hout => ?_⟩
  rw [hc] at hends
  obtain ⟨i, hfirst, -⟩ := hends
  have hrun : c.Reproduces cropped := hfirst.solves cropped (List.mem_singleton_self cropped)
  obtain ⟨hp, ht, hq⟩ := Enumeration.mem_of_nth? hfirst.nth
  -- it is none of those that tile with the whole input
  have hwhole : ∀ t ∈ CatalogEntry.values (Catalog.transformEntries .legacy),
      ∀ q ∈ CatalogEntry.values (Catalog.queryEntries .legacy),
      ¬(⟨.identity, t, q⟩ : Candidate).Solves (task cropped) := by decide +kernel
  have hworking : ∀ p ∈ CatalogEntry.values Catalog.preprocessEntries,
      p.apply cropped.input = .ok cropped.input ∨
      p.apply cropped.input = .ok ⟨1, 1, #[7], by decide, by decide, rfl⟩ ∨
      p.apply cropped.input = .error .emptyPreprocess := by decide +kernel
  rcases hworking c.preprocess (List.mem_toArray.mp hp) with hw | hw | hw
  · refine hwhole c.transform (List.mem_toArray.mp ht) c.query (List.mem_toArray.mp hq) ?_
    intro pair hpair
    rw [List.mem_singleton.mp hpair]
    have hsame : (⟨.identity, c.transform, c.query⟩ : Candidate).run cropped.input
        (.reference cropped.output) = c.run cropped.input (.reference cropped.output) :=
      Candidate.run_congr hw.symm rfl rfl
    exact hsame.trans hrun
  · rw [apply_own_ok_iff (get?_of_search_solved hc) rfl] at hout
    exact absurd (Candidate.shape_of_run hw hout) (by decide)
  · exact nomatch (Candidate.run_of_preprocess_error hw).symm.trans hrun

end Session
end Mosaic

import Mosaic.Proofs.Slots

/-!
# What a seed is worth

The first search of an id checks its seed. If the seed solves the task it is the answer, at the cost of the
check and under any budget. If it does not, the search goes on as if there had been no seed
(`Session.search_of_stale_seed_eq`): all that the seed leaves behind are the figures of its check, which stopped
at the first training pair that it did not reproduce (`Candidate.check_of_not_solves`).
-/

namespace Mosaic

namespace Candidate

variable {c : Candidate} {pair : TrainingPair} {pairs : List TrainingPair}

/-! ### What a check counts -/

theorem check_cons_of_reproduces (h : c.Reproduces pair) : c.check (pair :: pairs) =
    { c.check pairs with trials := (c.check pairs).trials + 1 } := by
  have hrun : c.run pair.input (.reference pair.output) = .ok pair.output := h
  rw [check, hrun]
  exact if_pos rfl

/-- A trial ends in a failure or makes some other output. -/
theorem check_cons_of_not_reproduces (h : ¬c.Reproduces pair) : c.check (pair :: pairs) =
    ⟨false, 1, match c.run pair.input (.reference pair.output) with | .ok _ => 0 | .error _ => 1⟩ := by
  rw [check]
  cases hrun : c.run pair.input (.reference pair.output) with
  | error failure => rfl
  | ok output =>
    have hother : output ≠ pair.output := by
      rintro rfl
      exact h hrun
    exact if_neg hother

/-- Every pair takes a trial, and none fails. -/
theorem check_of_solves (h : ∀ pair ∈ pairs, c.Reproduces pair) :
    c.check pairs = ⟨true, pairs.length, 0⟩ := by
  induction pairs with
  | nil => rfl
  | cons pair rest ih =>
    obtain ⟨hpair, hrest⟩ := List.forall_mem_cons.mp h
    rw [check_cons_of_reproduces hpair, ih hrest]
    rfl

/-- The pairs before the first one that is not reproduced take a trial each, and so does this one. -/
theorem check_of_not_solves (h : ¬∀ pair ∈ pairs, c.Reproduces pair) :
    ∃ done pair rest, pairs = done ++ pair :: rest ∧ (∀ p ∈ done, c.Reproduces p) ∧ ¬c.Reproduces pair ∧
      c.check pairs = ⟨false, done.length + 1,
        match c.run pair.input (.reference pair.output) with | .ok _ => 0 | .error _ => 1⟩ := by
  induction pairs with
  | nil => exact absurd (fun pair hpair => absurd hpair List.not_mem_nil) h
  | cons pair rest ih =>
    by_cases hpair : c.Reproduces pair
    · have hrest : ¬∀ p ∈ rest, c.Reproduces p := fun hall => h (List.forall_mem_cons.mpr ⟨hpair, hall⟩)
      obtain ⟨done, stop, after, rfl, hdone, hstop, hcheck⟩ := ih hrest
      refine ⟨pair :: done, stop, after, rfl, List.forall_mem_cons.mpr ⟨hpair, hdone⟩, hstop, ?_⟩
      rw [check_cons_of_reproduces hpair, hcheck]
      rfl
    · exact ⟨[], pair, rest, rfl, by simp, hpair, check_cons_of_not_reproduces hpair⟩

theorem failures_check_le (c : Candidate) (pairs : List TrainingPair) : (c.check pairs).failures ≤ 1 := by
  by_cases h : ∀ pair ∈ pairs, c.Reproduces pair
  · rw [check_of_solves h]
    exact Nat.zero_le 1
  · obtain ⟨done, pair, rest, -, -, -, hcheck⟩ := check_of_not_solves h
    rw [hcheck]
    dsimp only
    split
    · exact Nat.zero_le 1
    · exact le_rfl

end Candidate

namespace Session

variable {s : Session} {task : Task} {c : Candidate}

/-- The session without the seed of an id. -/
def withoutSeed (s : Session) (id : String) : Session := { s with seeds := s.seeds.erase id }

/-- The session with the figures of a check added. -/
def charge (s : Session) (k : Check) : Session := { s with stats := s.stats.addCheck k }

theorem search_withoutSeed (hverified : s.verified.get? task.id = none) :
    (s.withoutSeed task.id).search task = (s.withoutSeed task.id).enumerate task :=
  search_of_no_seed hverified (Register.get?_erase.trans (if_pos rfl))

/-- The search from a stale seed is the search without it, with the check charged on top. -/
theorem search_of_stale_seed_eq (hverified : s.verified.get? task.id = none)
    (hseed : s.seeds.get? task.id = some c) (hstale : ¬c.Solves task) :
    s.search task = (((s.withoutSeed task.id).search task).1,
      ((s.withoutSeed task.id).search task).2.charge (c.check task.train)) := by
  rw [search_of_stale_seed hverified hseed hstale, search_withoutSeed hverified, enumerate_eq, enumerate_eq]
  refine Prod.ext rfl (Session.ext rfl rfl rfl rfl ?_)
  -- the check is charged before the candidates are tried in the one, and after it in the other
  show s.stats.addCheck (c.check task.train) + _ = (s.stats + _).addCheck (c.check task.train)
  rw [Stats.addCheck_eq, add_right_comm, ← Stats.addCheck_eq]
  rfl

/-- A seed that solves the task is the answer whatever the budget, and costs one trial for each training pair;
no candidate is tried for it. Any other seed behaves as none: the search ends as it does without the seed and
leaves the same session, but for the trials up to the first pair that the seed did not reproduce, of which
only the last may have failed. -/
theorem seed_solves_or_is_none (hverified : s.verified.get? task.id = none)
    (hseed : s.seeds.get? task.id = some c) :
    (c.Solves task →
      (s.search task).1 = .solved c ∧ (s.search task).2.verified.get? task.id = some c ∧
      (s.search task).2.stats.candidates = s.stats.candidates ∧
      (s.search task).2.stats.solved = s.stats.solved ∧
      (s.search task).2 = { s.withoutSeed task.id with
        verified := s.verified.insert task.id c
        stats := s.stats.addCheck ⟨true, task.train.length, 0⟩ }) ∧
    (¬c.Solves task →
      let unseeded := (s.withoutSeed task.id).search task
      (s.search task).1 = unseeded.1 ∧ (s.search task).2.verified = unseeded.2.verified ∧
      (s.search task).2.snapshot = unseeded.2.snapshot ∧
      (s.search task).2.stats.candidates = unseeded.2.stats.candidates ∧
      (s.search task).2.stats.solved = unseeded.2.stats.solved ∧
      ∃ done pair rest failures, task.train = done ++ pair :: rest ∧ (∀ p ∈ done, c.Reproduces p) ∧
        ¬c.Reproduces pair ∧ failures ≤ 1 ∧
        (s.search task).2 = unseeded.2.charge ⟨false, done.length + 1, failures⟩) := by
  refine ⟨fun hsolves => ?_, fun hstale => ?_⟩
  · rw [search_of_seed hverified hseed hsolves, checkSeed, Candidate.check_of_solves hsolves]
    exact ⟨rfl, Register.get?_insert_of_none hverified, rfl, rfl, rfl⟩
  · intro unseeded
    obtain ⟨done, pair, rest, hsplit, hdone, hpair, hcheck⟩ := Candidate.check_of_not_solves hstale
    have hfailures := c.failures_check_le task.train
    have hsearch := search_of_stale_seed_eq hverified hseed hstale
    rw [hcheck] at hsearch hfailures
    rw [hsearch]
    exact ⟨rfl, rfl, rfl, rfl, rfl, done, pair, rest, _, hsplit, hdone, hpair, hfailures, rfl⟩

/-- Under a budget of no candidate at all, a seed that solves the task answers for it. A seed that reproduces
the first of two pairs leaves an unsolved search and two trials. -/
theorem seed_solves_or_is_none_unbudgeted :
    let even : TrainingPair :=
      ⟨⟨1, 1, #[1], by decide, by decide, rfl⟩, ⟨1, 2, #[1, 1], by decide, by decide, rfl⟩⟩
    let mirrored : TrainingPair :=
      ⟨⟨1, 2, #[1, 0], by decide, by decide, rfl⟩, ⟨1, 4, #[0, 1, 0, 1], by decide, by decide, rfl⟩⟩
    let task : Task := { train := [even, mirrored], test := [], id := "a" }
    let session (c : Candidate) : Session := { new .standard with
      budget := ⟨some 0, none⟩, seeds := Register.empty.insert "a" c }
    let flipped : Candidate := ⟨.identity, .flip .cols, .always⟩
    let plain : Candidate := ⟨.identity, .identity, .always⟩
    (∀ c, (session c).verified.get? task.id = none ∧ (session c).seeds.get? task.id = some c) ∧
      flipped.Solves task ∧ ((session flipped).search task).1 = .solved flipped ∧
      ¬plain.Solves task ∧ ((session plain).search task).1 = .budgetExceeded 0 ∧
      ((session plain).search task).2.snapshot = .empty := by
  intro even mirrored task session flipped plain
  have hseed : ∀ c, (session c).seeds.get? task.id = some c := fun c => Register.get?_insert_of_none rfl
  have hsolves : flipped.Solves task := by decide +kernel
  have hstale : ¬plain.Solves task := by decide +kernel
  obtain ⟨hsolved, -⟩ := seed_solves_or_is_none (s := session flipped) rfl (hseed flipped)
  obtain ⟨-, hnone⟩ := seed_solves_or_is_none (s := session plain) rfl (hseed plain)
  obtain ⟨houtcome, -, hsnapshot, -⟩ := hnone hstale
  refine ⟨fun c => ⟨rfl, hseed c⟩, hsolves, (hsolved hsolves).1, hstale, ?_, ?_⟩
  · rw [houtcome]
    decide +kernel
  · rw [hsnapshot]
    decide +kernel

end Session
end Mosaic

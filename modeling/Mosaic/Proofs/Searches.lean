import Mathlib.Data.ENat.Basic
import Mosaic.Proofs.Enumerations
import Mosaic.Proofs.Registers
import Mosaic.Session

/-!
# How a search ends

A search that comes to trying candidates ends in one of three ways, decided by the first candidate that
solves the task, the number of candidates and the bound that the budget sets (`Catalog.Ends`). The loop
tests the budget before each candidate, so a bound of `m` leaves `m` candidates to try, none for `m = 0`.
`Session.search_outcome` states this for every session that has no usable entry for the task.
-/

namespace Mosaic

namespace Candidate

variable {c : Candidate} {pairs : List TrainingPair}

/-- The candidate reproduces every training pair of the task. -/
def Solves (c : Candidate) (task : Task) : Prop := ∀ pair ∈ task.train, c.Reproduces pair

theorem valid_check : (c.check pairs).valid = true ↔ ∀ pair ∈ pairs, c.Reproduces pair := by
  induction pairs with
  | nil => simp [check]
  | cons pair rest ih =>
    rw [List.forall_mem_cons, ← ih, check, Reproduces]
    split
    · rename_i failure hrun
      simp [hrun]
    · rename_i output hrun
      rw [hrun, Except.ok.injEq]
      split <;> rename_i hout <;> simp [hout]

instance {task : Task} : Decidable (c.Solves task) := decidable_of_iff _ valid_check

end Candidate

namespace Budget

variable {b : Budget} {n : Nat}

/-- How many candidates may be tried: none when the time limit is zero. -/
def bound (b : Budget) : ℕ∞ :=
  if b.timeLimit.any (·.isZero) then 0 else b.maxCandidates.elim ⊤ fun max => (max : ℕ∞)

theorem spent_iff : b.spent n = true ↔ b.bound ≤ n := by
  rw [spent, bound, Bool.or_eq_true]
  cases b.timeLimit.any (·.isZero) with
  | true => simp
  | false => cases b.maxCandidates <;> simp

/-- A time limit that is found reached after `stop` candidates is a limit on candidates. -/
theorem spent_within (stop : Option Nat) : (b.within stop).spent n = true ↔
    b.spent n = true ∨ b.timeLimit.isSome = true ∧ ∃ m, stop = some m ∧ m ≤ n := by
  obtain ⟨maxCandidates, timeLimit⟩ := b
  cases timeLimit with
  | none => simp [within]
  | some limit => cases maxCandidates <;> cases stop <;> simp [within, spent] <;> tauto

end Budget

namespace Catalog

variable {catalog : Catalog} {task : Task} {c d : Candidate} {i j : Nat} {bound : ℕ∞}

/-- Candidate `c`, at position `i` of the enumeration, is the first one that solves the task. -/
structure FirstSolving (catalog : Catalog) (task : Task) (i : Nat) (c : Candidate) : Prop where
  nth : catalog.enumeration.nth? i = some c
  solves : c.Solves task
  before : ∀ j < i, ∀ d, catalog.enumeration.nth? j = some d → ¬d.Solves task

theorem FirstSolving.index_le (h : catalog.FirstSolving task i c)
    (hd : catalog.enumeration.nth? j = some d) (hsolves : d.Solves task) : i ≤ j :=
  Nat.le_of_not_lt fun hlt => h.before j hlt d hd hsolves

theorem FirstSolving.unique (h : catalog.FirstSolving task i c)
    (h' : catalog.FirstSolving task j d) : c = d := by
  obtain rfl := Nat.le_antisymm (h.index_le h'.nth h'.solves) (h'.index_le h.nth h.solves)
  exact Option.some.inj (h.nth.symm.trans h'.nth)

theorem lt_candidateCount_iff :
    (catalog.enumeration.nth? i).isSome ↔ i < catalog.candidateCount := by
  rw [← size_enumeration]
  exact Enumeration.isSome_nth? wellPlaced_enumeration taken_enumeration

theorem lt_candidateCount_of_nth? (h : catalog.enumeration.nth? i = some c) :
    i < catalog.candidateCount := by
  rw [← lt_candidateCount_iff, h]; rfl

/-- How trying the candidates in order ends when at most `bound` of them may be tried. -/
def Ends (catalog : Catalog) (task : Task) (bound : ℕ∞) : Outcome → Prop
  | .solved c => ∃ i, catalog.FirstSolving task i c ∧ (i : ℕ∞) < bound
  | .exhausted n => n = catalog.candidateCount ∧ (n : ℕ∞) ≤ bound ∧
    ∀ i c, catalog.enumeration.nth? i = some c → ¬c.Solves task
  | .budgetExceeded n => (n : ℕ∞) = bound ∧ n < catalog.candidateCount ∧
    ∀ i < n, ∀ c, catalog.enumeration.nth? i = some c → ¬c.Solves task

theorem Ends.unique {o o' : Outcome} (h : catalog.Ends task bound o)
    (h' : catalog.Ends task bound o') : o = o' := by
  cases o with
  | solved c =>
    obtain ⟨i, hi, hlt⟩ := h
    cases o' with
    | solved d => obtain ⟨j, hj, -⟩ := h'; rw [hi.unique hj]
    | exhausted n => exact absurd hi.solves (h'.2.2 i c hi.nth)
    | budgetExceeded n =>
      have hin : i < n := by rwa [← h'.1, Nat.cast_lt] at hlt
      exact absurd hi.solves (h'.2.2 i hin c hi.nth)
  | exhausted n =>
    cases o' with
    | solved d => obtain ⟨j, hj, -⟩ := h'; exact absurd hj.solves (h.2.2 j d hj.nth)
    | exhausted m => rw [h.1, h'.1]
    | budgetExceeded m =>
      have hle := h.2.1
      rw [← h'.1, Nat.cast_le, h.1] at hle
      exact absurd h'.2.1 (Nat.not_lt.mpr hle)
  | budgetExceeded n =>
    cases o' with
    | solved d =>
      obtain ⟨j, hj, hlt⟩ := h'
      have hjn : j < n := by rwa [← h.1, Nat.cast_lt] at hlt
      exact absurd hj.solves (h.2.2 j hjn d hj.nth)
    | exhausted m =>
      have hle := h'.2.1
      rw [← h.1, Nat.cast_le, h'.1] at hle
      exact absurd h.2.1 (Nat.not_lt.mpr hle)
    | budgetExceeded m => rw [Nat.cast_inj.mp (h.1.trans h'.1.symm)]

end Catalog

namespace Session

variable {s : Session} {task : Task} {c : Candidate}

/-! ### The loop over the candidates -/

/-- The invariant of the loop: `evaluated` candidates have been tried, not more than the bound allows,
and none of them solves the task. -/
theorem ends_tryFrom {catalog : Catalog} {budget : Budget} {stats : Stats} {todo evaluated : Nat}
    (htodo : evaluated + todo = catalog.candidateCount)
    (hbound : (evaluated : ℕ∞) ≤ budget.bound)
    (hbefore : ∀ j < evaluated, ∀ d, catalog.enumeration.nth? j = some d → ¬d.Solves task) :
    catalog.Ends task budget.bound
      (tryFrom budget task.train todo (catalog.enumeration.drop evaluated) evaluated stats).1 := by
  induction todo generalizing evaluated stats with
  | zero =>
    refine ⟨htodo, hbound, fun i d hd => ?_⟩
    exact hbefore i (by have := Catalog.lt_candidateCount_of_nth? hd; omega) d hd
  | succ todo ih =>
    -- the enumeration has a next candidate, since not all of them have been tried
    have hlt : evaluated < catalog.candidateCount := by omega
    obtain ⟨c, hc⟩ := Option.isSome_iff_exists.mp (Catalog.lt_candidateCount_iff.mpr hlt)
    have hplaced : (catalog.enumeration.drop evaluated).WellPlaced :=
      (Enumeration.drop_spec Catalog.wellPlaced_enumeration Catalog.taken_enumeration).1
    have hnext := Enumeration.next?_eq_some hplaced hc
    rw [tryFrom, hnext, ← Enumeration.drop_succ_of_some hnext]
    dsimp only
    split
    · rename_i hspent
      exact ⟨le_antisymm hbound (Budget.spent_iff.mp hspent), hlt, hbefore⟩
    · rename_i hspent
      have hleft : (evaluated : ℕ∞) < budget.bound := not_le.mp (mt Budget.spent_iff.mpr hspent)
      split
      · rename_i hvalid
        exact ⟨evaluated, ⟨hc, Candidate.valid_check.mp hvalid, hbefore⟩, hleft⟩
      · rename_i hvalid
        refine ih (by omega) ?_ fun j hj d hd => ?_
        · exact_mod_cast Order.add_one_le_of_lt hleft
        · rcases Nat.lt_succ_iff_lt_or_eq.mp hj with hj | rfl
          · exact hbefore j hj d hd
          · obtain rfl := Option.some.inj (hc.symm.trans hd)
            exact fun hsolves => hvalid (Candidate.valid_check.mpr hsolves)

theorem ends_enumerate (s : Session) (task : Task) :
    s.catalog.Ends task s.budget.bound (s.enumerate task).1 := by
  have key : s.catalog.Ends task s.budget.bound (tryFrom s.budget task.train
      s.catalog.enumeration.remaining s.catalog.enumeration 0 s.stats).1 :=
    ends_tryFrom ((Nat.zero_add _).trans Catalog.remaining_enumeration) (by simp) fun j hj => by omega
  rw [enumerate]
  split <;> rename_i h <;> rw [h] at key <;> exact key

/-- Trying candidates changes the verified solutions only by the one it finds. -/
theorem verified_enumerate (s : Session) (task : Task) : (s.enumerate task).2.verified =
    match (s.enumerate task).1 with
    | .solved c => s.verified.insert task.id c
    | .exhausted _ | .budgetExceeded _ => s.verified := by
  rw [enumerate]
  split
  · rfl
  · rename_i outcome stats hnot h
    cases outcome with
    | solved c => exact absurd rfl (hnot c)
    | exhausted n => rfl
    | budgetExceeded n => rfl

/-! ### The search -/

/-- The session once the seed of the task has been checked, which is then a seed no more. -/
def checkSeed (s : Session) (task : Task) (c : Candidate) : Session :=
  { s with seeds := s.seeds.erase task.id, stats := s.stats.addCheck (c.check task.train) }

theorem search_of_verified (h : s.verified.get? task.id = some c) :
    s.search task = (.solved c, s) := by
  rw [search, h]

theorem search_of_no_seed (h : s.verified.get? task.id = none)
    (hseed : s.seeds.get? task.id = none) : s.search task = s.enumerate task := by
  rw [search, h, hseed]

theorem search_of_seed (h : s.verified.get? task.id = none)
    (hseed : s.seeds.get? task.id = some c) (hc : c.Solves task) :
    s.search task = (.solved c,
      { s.checkSeed task c with verified := s.verified.insert task.id c }) := by
  rw [search, h, hseed]
  exact if_pos (Candidate.valid_check.mpr hc)

theorem search_of_stale_seed (h : s.verified.get? task.id = none)
    (hseed : s.seeds.get? task.id = some c) (hc : ¬c.Solves task) :
    s.search task = (s.checkSeed task c).enumerate task := by
  rw [search, h, hseed]
  exact if_neg (mt Candidate.valid_check.mp hc)

/-- Without a usable entry, a search is left to the candidates. -/
theorem exists_search_eq_enumerate (h : s.verified.get? task.id = none)
    (hseed : ∀ c, s.seeds.get? task.id = some c → ¬c.Solves task) :
    ∃ s' : Session, s'.catalog = s.catalog ∧ s'.budget = s.budget ∧ s'.verified = s.verified ∧
      s.search task = s'.enumerate task := by
  cases hget : s.seeds.get? task.id with
  | none => exact ⟨s, rfl, rfl, rfl, search_of_no_seed h hget⟩
  | some c => exact ⟨s.checkSeed task c, rfl, rfl, rfl, search_of_stale_seed h hget (hseed c hget)⟩

/-- A search is answered by a verified solution, by a seed that solves the task, or by the candidates. -/
theorem search_cases (s : Session) (task : Task) :
    (∃ c, s.verified.get? task.id = some c ∧ s.search task = (.solved c, s)) ∨
    (∃ c, s.verified.get? task.id = none ∧ c.Solves task ∧ s.search task =
      (.solved c, { s.checkSeed task c with verified := s.verified.insert task.id c })) ∨
    ∃ s' : Session, s.verified.get? task.id = none ∧ s'.verified = s.verified ∧
      s.search task = s'.enumerate task := by
  cases h : s.verified.get? task.id with
  | some c => exact .inl ⟨c, rfl, search_of_verified h⟩
  | none =>
    by_cases hseed : ∃ c, s.seeds.get? task.id = some c ∧ c.Solves task
    · obtain ⟨c, hget, hsolves⟩ := hseed
      exact .inr (.inl ⟨c, rfl, hsolves, search_of_seed h hget hsolves⟩)
    · obtain ⟨s', -, -, hver, hsearch⟩ :=
        exists_search_eq_enumerate h fun c hc hsolves => hseed ⟨c, hc, hsolves⟩
      exact .inr (.inr ⟨s', rfl, hver, hsearch⟩)

/-- How a search ends when neither a verified solution nor a seed answers for the task. -/
theorem search_outcome (hverified : s.verified.get? task.id = none)
    (hseed : ∀ c, s.seeds.get? task.id = some c → ¬c.Solves task) :
    (∀ c, (s.search task).1 = .solved c ↔
      ∃ i, s.catalog.FirstSolving task i c ∧ (i : ℕ∞) < s.budget.bound) ∧
    (∀ n, (s.search task).1 = .budgetExceeded n ↔
      (n : ℕ∞) = s.budget.bound ∧ n < s.catalog.candidateCount ∧
        ∀ i < n, ∀ c, s.catalog.enumeration.nth? i = some c → ¬c.Solves task) ∧
    (∀ n, (s.search task).1 = .exhausted n ↔
      n = s.catalog.candidateCount ∧ (n : ℕ∞) ≤ s.budget.bound ∧
        ∀ i c, s.catalog.enumeration.nth? i = some c → ¬c.Solves task) ∧
    (∀ c, (s.search task).1 = .solved c →
      (s.search task).2.verified = s.verified.insert task.id c ∧
        (s.search task).2.verified.get? task.id = some c) ∧
    ((s.search task).1.isSolved = false → (s.search task).2.verified = s.verified) := by
  obtain ⟨s', hcatalog, hbudget, hver, hsearch⟩ := exists_search_eq_enumerate hverified hseed
  rw [hsearch, ← hcatalog, ← hbudget, ← hver]
  have hends := ends_enumerate s' task
  have hiff : ∀ o, (s'.enumerate task).1 = o ↔ s'.catalog.Ends task s'.budget.bound o :=
    fun o => ⟨fun h => h ▸ hends, hends.unique⟩
  have hstate := verified_enumerate s' task
  refine ⟨fun c => hiff _, fun n => hiff _, fun n => hiff _, fun c hc => ?_, fun hnot => ?_⟩
  · rw [hc] at hstate
    exact ⟨hstate, hstate ▸ Register.get?_insert_of_none (hver ▸ hverified)⟩
  · cases ho : (s'.enumerate task).1 with
    | solved c => rw [ho] at hnot; cases hnot
    | exhausted n => rwa [ho] at hstate
    | budgetExceeded n => rwa [ho] at hstate

/-- A stale seed is dropped, and a budget of two candidates is used up. -/
theorem search_outcome_two_tries :
    let c : Candidate := ⟨.identity, .identity, .always⟩
    let pair : TrainingPair :=
      ⟨⟨1, 1, #[1], by decide, by decide, rfl⟩, ⟨1, 2, #[2, 2], by decide, by decide, rfl⟩⟩
    let task : Task := { train := [pair], test := [], id := "a" }
    let s : Session := { Session.new .standard with
      budget := ⟨some 2, none⟩, seeds := Register.empty.insert "a" c }
    s.verified.get? task.id = none ∧ (∀ c, s.seeds.get? task.id = some c → ¬c.Solves task) ∧
      (s.search task).1 = .budgetExceeded 2 ∧ (s.search task).2.verified = s.verified := by
  intro c pair task s
  have hverified : s.verified.get? task.id = none := rfl
  have hstale : ¬c.Solves task := by decide
  have hseed : ∀ d, s.seeds.get? task.id = some d → ¬d.Solves task := by
    intro d hd
    have hget : s.seeds.get? task.id = some c := Register.get?_insert_of_none rfl
    exact Option.some.inj (hget.symm.trans hd) ▸ hstale
  obtain ⟨-, hbudget, -, -, hkept⟩ := search_outcome hverified hseed
  have hends : (s.search task).1 = .budgetExceeded 2 := by
    refine (hbudget 2).mpr ⟨rfl, by decide, fun i hi d hd => ?_⟩
    have first : s.catalog.enumeration.nth? 0 = some c := rfl
    have second : s.catalog.enumeration.nth? 1 = some ⟨.identity, .identity, .never⟩ := rfl
    have hcases : i = 0 ∨ i = 1 := by omega
    rcases hcases with rfl | rfl
    · exact Option.some.inj (first.symm.trans hd) ▸ hstale
    · exact Option.some.inj (second.symm.trans hd) ▸ by decide
  exact ⟨hverified, hseed, hends, hkept (by rw [hends]; rfl)⟩

end Session
end Mosaic

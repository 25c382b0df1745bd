import Mathlib.Algebra.Group.Defs
import Mosaic.Proofs.Searches

/-!
# What a session holds for one id

Of all that a session holds, a search looks at the catalog, the budget and the slot of its task's id, and
it changes that slot and the figures alone. `Slot.search` is a search seen from its slot, told by its
outcome and by what it adds to the figures; `Session.search_spec` says that every search of a session is
one.
-/

namespace Mosaic

/-! ### Figures add up -/

namespace Stats

variable {s d : Stats} {k : Check}

attribute [ext] Stats

instance : Add Stats :=
  ⟨fun a b => ⟨a.candidates + b.candidates, a.trials + b.trials, a.failures + b.failures,
    a.solved + b.solved⟩⟩

instance : Zero Stats := ⟨zero⟩

@[simp] theorem candidates_add : (s + d).candidates = s.candidates + d.candidates := rfl

@[simp] theorem trials_add : (s + d).trials = s.trials + d.trials := rfl

@[simp] theorem failures_add : (s + d).failures = s.failures + d.failures := rfl

@[simp] theorem solved_add : (s + d).solved = s.solved + d.solved := rfl

instance : AddCommMonoid Stats where
  add_assoc a b c := by ext <;> simp [Nat.add_assoc]
  zero_add a := by ext <;> exact Nat.zero_add _
  add_zero a := rfl
  add_comm a b := by ext <;> simp [Nat.add_comm]
  nsmul := nsmulRec

theorem add_addCheck : (s + d).addCheck k = s + d.addCheck k := by
  ext <;> simp [addCheck, Nat.add_assoc]

theorem addCheck_eq : s.addCheck k = s + zero.addCheck k := add_addCheck (d := zero)

/-- What was added to the figures since they stood at `earlier`. -/
def since (later earlier : Stats) : Stats :=
  ⟨later.candidates - earlier.candidates, later.trials - earlier.trials,
    later.failures - earlier.failures, later.solved - earlier.solved⟩

theorem add_since : (s + d).since s = d := by
  ext <;> simp [since]

end Stats

/-! ### Searches seen from their slot -/

def Outcome.candidate? : Outcome → Option Candidate
  | solved c => some c
  | exhausted _ | budgetExceeded _ => none

theorem Outcome.eq_solved_of_candidate? {o : Outcome} {c : Candidate} (h : o.candidate? = some c) :
    o = .solved c := by
  cases o with
  | solved d => exact congrArg solved (Option.some.inj h)
  | exhausted n | budgetExceeded n => cases h

/-- How a search ended, and what it added to the figures. -/
structure Answer where
  outcome : Outcome
  gain : Stats

/-- The answer of trying the candidates in order. -/
def Catalog.tryAll (catalog : Catalog) (budget : Budget) (task : Task) : Answer :=
  let e := catalog.enumeration
  let (outcome, gain) := Session.tryFrom budget task.train e.remaining e 0 0
  ⟨outcome, gain⟩

/-- The verified solution and the seed of one id. -/
structure Slot where
  verified : Option Candidate
  seed : Option Candidate
deriving DecidableEq

namespace Slot

variable {catalog : Catalog} {budget : Budget} {task : Task} {c : Candidate} {seed : Option Candidate}

def search (slot : Slot) (catalog : Catalog) (budget : Budget) (task : Task) : Answer × Slot :=
  match slot.verified, slot.seed with
  | some c, _ => (⟨.solved c, 0⟩, slot)
  | none, none =>
    let answer := catalog.tryAll budget task
    (answer, ⟨answer.outcome.candidate?, none⟩)
  | none, some c =>
    let checked := Stats.zero.addCheck (c.check task.train)
    if c.Solves task then (⟨.solved c, checked⟩, ⟨some c, none⟩)
    else
      let answer := catalog.tryAll budget task
      (⟨answer.outcome, checked + answer.gain⟩, ⟨answer.outcome.candidate?, none⟩)

theorem search_of_verified :
    search ⟨some c, seed⟩ catalog budget task = (⟨.solved c, 0⟩, ⟨some c, seed⟩) := rfl

theorem search_of_no_seed : search ⟨none, none⟩ catalog budget task =
    (catalog.tryAll budget task, ⟨(catalog.tryAll budget task).outcome.candidate?, none⟩) := rfl

theorem search_of_seed (h : c.Solves task) : search ⟨none, some c⟩ catalog budget task =
    (⟨.solved c, Stats.zero.addCheck (c.check task.train)⟩, ⟨some c, none⟩) := if_pos h

theorem search_of_stale_seed (h : ¬c.Solves task) : search ⟨none, some c⟩ catalog budget task =
    (⟨(catalog.tryAll budget task).outcome,
        Stats.zero.addCheck (c.check task.train) + (catalog.tryAll budget task).gain⟩,
      ⟨(catalog.tryAll budget task).outcome.candidate?, none⟩) := if_neg h

end Slot

namespace Session

variable {s s' : Session} {task t u : Task} {id : String} {c : Candidate} {answer : Answer}

attribute [ext] Session

def slot (s : Session) (id : String) : Slot := ⟨s.verified.get? id, s.seeds.get? id⟩

theorem get?_snapshot : s.snapshot.get? id = (s.slot id).verified.or (s.slot id).seed :=
  Register.get?_merge

/-- Sessions that agree in every slot differ by their catalog, their budget and their figures. -/
theorem ext_slot (hcatalog : s.catalog = s'.catalog) (hbudget : s.budget = s'.budget)
    (hstats : s.stats = s'.stats) (hslot : ∀ id, s.slot id = s'.slot id) : s = s' := by
  have hverified : ∀ id, s.verified.get? id = s'.verified.get? id :=
    fun id => congrArg Slot.verified (hslot id)
  have hseeds : ∀ id, s.seeds.get? id = s'.seeds.get? id := fun id => congrArg Slot.seed (hslot id)
  exact Session.ext hcatalog hbudget (Register.ext_get? hverified) (Register.ext_get? hseeds) hstats

/-! ### Trying the candidates -/

/-- The loop adds to the figures without looking at them. -/
theorem tryFrom_add {budget : Budget} {pairs : List TrainingPair} {todo evaluated : Nat}
    {e : Enumeration} {before gain : Stats} :
    tryFrom budget pairs todo e evaluated (before + gain) =
      ((tryFrom budget pairs todo e evaluated gain).1,
        before + (tryFrom budget pairs todo e evaluated gain).2) := by
  induction todo generalizing e evaluated gain with
  | zero => rfl
  | succ todo ih =>
    rw [tryFrom, tryFrom]
    cases e.next? with
    | none => rfl
    | some p =>
      obtain ⟨c, rest⟩ := p
      -- one round adds to the figures what it adds to the gain
      have hround : { (before + gain).addCheck (c.check pairs) with
            candidates := (before + gain).candidates + 1 } =
          before + { gain.addCheck (c.check pairs) with candidates := gain.candidates + 1 } := by
        rw [Stats.add_addCheck]
        ext <;> simp [Nat.add_assoc]
      dsimp only
      rw [hround]
      split
      · rfl
      · split
        · rw [Stats.add_addCheck]
          refine Prod.ext rfl ?_
          ext <;> simp [Nat.add_assoc]
        · exact ih

/-- The session with the answer of trying the candidates put in. -/
def record (s : Session) (task : Task) (answer : Answer) : Session :=
  { s with
    stats := s.stats + answer.gain
    verified := match answer.outcome.candidate? with
      | some c => s.verified.insert task.id c
      | none => s.verified }

theorem enumerate_eq : s.enumerate task =
    ((s.catalog.tryAll s.budget task).outcome, s.record task (s.catalog.tryAll s.budget task)) := by
  have hfrom : tryFrom s.budget task.train s.catalog.enumeration.remaining s.catalog.enumeration 0
      (s.stats + 0) = _ := tryFrom_add
  rw [add_zero] at hfrom
  rw [enumerate, Catalog.tryAll, hfrom]
  rcases tryFrom s.budget task.train s.catalog.enumeration.remaining s.catalog.enumeration 0 0 with
    ⟨outcome, gain⟩
  cases outcome <;> rfl

theorem ends_tryAll (catalog : Catalog) (budget : Budget) (task : Task) :
    catalog.Ends task budget.bound (catalog.tryAll budget task).outcome := by
  have hends := ends_enumerate { new .standard with catalog, budget } task
  rw [enumerate_eq] at hends
  exact hends

theorem slot_record (hverified : s.verified.get? task.id = none) : (s.record task answer).slot id =
    if id = task.id then ⟨answer.outcome.candidate?, s.seeds.get? id⟩ else s.slot id := by
  rw [slot, record]
  cases answer.outcome.candidate? with
  | none =>
    by_cases hid : id = task.id
    · rw [if_pos hid, hid, hverified]
    · rw [if_neg hid, slot]
  | some c =>
    dsimp only
    rw [Register.get?_insert]
    by_cases hid : id = task.id
    · rw [if_pos hid, if_pos hid, hverified]
      rfl
    · rw [if_neg hid, if_neg hid, slot]

/-- A seed that was checked is gone, whatever is recorded then. -/
theorem slot_record_checkSeed (hverified : s.verified.get? task.id = none) :
    ((s.checkSeed task c).record task answer).slot id =
      if id = task.id then ⟨answer.outcome.candidate?, none⟩ else s.slot id := by
  rw [slot_record (s := s.checkSeed task c) hverified]
  have hseeds : (s.checkSeed task c).seeds.get? id =
      if id = task.id then none else s.seeds.get? id := Register.get?_erase
  split <;> rename_i hid
  · rw [hseeds, if_pos hid]
  · rw [slot, hseeds, if_neg hid]
    rfl

/-! ### Searching -/

/-- The search of a task in the slot of its id. -/
def searchSlot (s : Session) (task : Task) : Answer × Slot :=
  (s.slot task.id).search s.catalog s.budget task

/-- A search ends as it does in the slot of its task, and leaves what it leaves there. -/
theorem search_spec (s : Session) (task : Task) :
    (s.search task).1 = (s.searchSlot task).1.outcome ∧
    (s.search task).2.stats = s.stats + (s.searchSlot task).1.gain ∧
    (∀ id, (s.search task).2.slot id = if id = task.id then (s.searchSlot task).2 else s.slot id) ∧
    (s.search task).2.catalog = s.catalog ∧ (s.search task).2.budget = s.budget := by
  rw [searchSlot]
  cases hverified : s.verified.get? task.id with
  | some c =>
    have hslot : s.slot task.id = ⟨some c, s.seeds.get? task.id⟩ := by rw [slot, hverified]
    rw [search_of_verified hverified, hslot, Slot.search_of_verified]
    refine ⟨rfl, (add_zero _).symm, fun id => ?_, rfl, rfl⟩
    split <;> rename_i hid
    · rw [hid, hslot]
    · rfl
  | none =>
    cases hseed : s.seeds.get? task.id with
    | none =>
      have hslot : s.slot task.id = ⟨none, none⟩ := by rw [slot, hverified, hseed]
      rw [search_of_no_seed hverified hseed, enumerate_eq, hslot, Slot.search_of_no_seed]
      refine ⟨rfl, rfl, fun id => ?_, rfl, rfl⟩
      rw [slot_record hverified]
      split <;> rename_i hid
      · rw [hid, hseed]
      · rfl
    | some c =>
      have hslot : s.slot task.id = ⟨none, some c⟩ := by rw [slot, hverified, hseed]
      by_cases hsolves : c.Solves task
      · rw [search_of_seed hverified hseed hsolves, hslot, Slot.search_of_seed hsolves]
        refine ⟨rfl, Stats.addCheck_eq, fun id => ?_, rfl, rfl⟩
        have hrecord : ((s.checkSeed task c).record task ⟨.solved c, 0⟩).slot id = _ :=
          slot_record_checkSeed hverified
        exact hrecord
      · rw [search_of_stale_seed hverified hseed hsolves, enumerate_eq, hslot,
          Slot.search_of_stale_seed hsolves]
        refine ⟨rfl, ?_, fun id => slot_record_checkSeed hverified, rfl, rfl⟩
        show s.stats.addCheck (c.check task.train) + _ = _
        rw [Stats.addCheck_eq, add_assoc]
        rfl

theorem outcome_search : (s.search task).1 = (s.searchSlot task).1.outcome := (search_spec s task).1

theorem stats_search : (s.search task).2.stats = s.stats + (s.searchSlot task).1.gain :=
  (search_spec s task).2.1

theorem slot_search : (s.search task).2.slot id =
    if id = task.id then (s.searchSlot task).2 else s.slot id := (search_spec s task).2.2.1 id

@[simp] theorem catalog_search : (s.search task).2.catalog = s.catalog := (search_spec s task).2.2.2.1

@[simp] theorem budget_search : (s.search task).2.budget = s.budget := (search_spec s task).2.2.2.2

theorem slot_search_self : (s.search task).2.slot task.id = (s.searchSlot task).2 :=
  slot_search.trans (if_pos rfl)

theorem slot_search_of_ne (h : id ≠ task.id) : (s.search task).2.slot id = s.slot id :=
  slot_search.trans (if_neg h)

theorem searchSlot_congr (hcatalog : s'.catalog = s.catalog) (hbudget : s'.budget = s.budget)
    (hslot : s'.slot task.id = s.slot task.id) : s'.searchSlot task = s.searchSlot task := by
  rw [searchSlot, searchSlot, hcatalog, hbudget, hslot]

end Session
end Mosaic

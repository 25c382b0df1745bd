import Mosaic.Proofs.Independence

/-!
# Resuming from a snapshot

A session that is seeded with what an earlier one saved searches the same tasks to the same ends, and saves
the same again. The two do not take the same way: where the first tried candidates, the second finds the
winner among its seeds. `Slot.Resumes` relates what they hold for one id on the way. The difficult case is an
id under which a task went unsolved and a later one was solved: the saved winner is then offered for the
unsolved task. It does not solve it, since it came up within the budget (`Catalog.Reaches`), and so it was
tried for the unsolved task as well.
-/

namespace Mosaic

namespace Catalog

variable {catalog : Catalog} {budget : Budget} {task : Task} {outcome : Outcome} {c : Candidate}

/-- The budget is large enough to try the candidate. -/
def Reaches (catalog : Catalog) (budget : Budget) (c : Candidate) : Prop :=
  ∃ i, catalog.enumeration.nth? i = some c ∧ (i : ℕ∞) < budget.bound

theorem Ends.reaches (h : catalog.Ends task budget.bound outcome) (hc : outcome.candidate? = some c) :
    catalog.Reaches budget c := by
  obtain rfl := Outcome.eq_solved_of_candidate? hc
  obtain ⟨i, hfirst, hlt⟩ := h
  exact ⟨i, hfirst.nth, hlt⟩

/-- Where no candidate was found, all that are in reach were tried. -/
theorem Ends.not_solves (h : catalog.Ends task budget.bound outcome) (hnone : outcome.candidate? = none)
    (hreach : catalog.Reaches budget c) : ¬c.Solves task := by
  obtain ⟨i, hi, hlt⟩ := hreach
  cases outcome with
  | solved d => cases hnone
  | exhausted n => exact h.2.2 i c hi
  | budgetExceeded n =>
    have hin : i < n := by rwa [← h.1, Nat.cast_lt] at hlt
    exact h.2.2 i hin c hi

theorem Ends.exists_solved (h : catalog.Ends task budget.bound outcome) (hreach : catalog.Reaches budget c)
    (hsolves : c.Solves task) : ∃ d, outcome = .solved d := by
  cases hd : outcome.candidate? with
  | none => exact absurd hsolves (h.not_solves hd hreach)
  | some d => exact ⟨d, Outcome.eq_solved_of_candidate? hd⟩

end Catalog

namespace Slot

variable {catalog : Catalog} {budget : Budget} {task : Task} {saved : Option Candidate} {slot slot' : Slot}

/-- A search that finds nothing has used up the seed. -/
theorem search_unsolved (h : (slot.search catalog budget task).2.verified = none) :
    (slot.search catalog budget task).2 = ⟨none, none⟩ := by
  obtain ⟨verified, seed⟩ := slot
  cases verified with
  | some c => cases h
  | none =>
    cases seed with
    | none =>
      rw [search_of_no_seed] at h ⊢
      exact congrArg (Slot.mk · none) h
    | some c =>
      by_cases hsolves : c.Solves task
      · rw [search_of_seed hsolves] at h
        cases h
      · rw [search_of_stale_seed hsolves] at h ⊢
        exact congrArg (Slot.mk · none) h

/-- Two slots for one id, the left one of a session that will have saved `saved` in the end, the right one
of a session that was seeded with that. -/
inductive Resumes (saved : Option Candidate) : Slot → Slot → Prop
  | verified {c : Candidate} {seed seed' : Option Candidate} : Resumes saved ⟨some c, seed⟩ ⟨some c, seed'⟩
  | unsearched {seed : Option Candidate} : Resumes saved ⟨none, seed⟩ ⟨none, saved⟩
  | unsolved : Resumes saved ⟨none, none⟩ ⟨none, none⟩

theorem Resumes.of_seedless {verified : Option Candidate} :
    Resumes saved ⟨verified, none⟩ ⟨verified, none⟩ := by
  cases verified with
  | none => exact .unsolved
  | some c => exact .verified

/-- Where the left slot holds what is saved, so does the right one. -/
theorem Resumes.kept (h : Resumes saved slot slot') (hsaved : saved = slot.verified.or slot.seed) :
    slot'.verified.or slot'.seed = saved := by
  cases h with
  | verified => exact hsaved.symm
  | unsearched => rfl
  | unsolved => exact hsaved.symm

theorem candidates_check {c : Candidate} :
    (Stats.zero.addCheck (c.check task.train)).candidates = 0 := rfl

/-- A saved seed does not change how trying the candidates ends, if it is what they come to where they come
to something, and was among those tried where they do not. -/
theorem search_saved
    (hkeep : ∀ c, (catalog.tryAll budget task).outcome.candidate? = some c → saved = some c)
    (hlater : (catalog.tryAll budget task).outcome.candidate? = none →
      ∀ c, saved = some c → catalog.Reaches budget c) :
    (search ⟨none, saved⟩ catalog budget task).1.outcome = (catalog.tryAll budget task).outcome ∧
    (search ⟨none, saved⟩ catalog budget task).1.gain.candidates ≤
      (catalog.tryAll budget task).gain.candidates ∧
    Resumes saved ⟨(catalog.tryAll budget task).outcome.candidate?, none⟩
      (search ⟨none, saved⟩ catalog budget task).2 := by
  have hends := Session.ends_tryAll catalog budget task
  cases saved with
  | none =>
    rw [search_of_no_seed]
    exact ⟨rfl, le_rfl, .of_seedless⟩
  | some c =>
    by_cases hsolves : c.Solves task
    · -- a solving seed is the winner itself, as the candidates did not end without one
      cases hwinner : (catalog.tryAll budget task).outcome.candidate? with
      | none => exact absurd hsolves (hends.not_solves hwinner (hlater hwinner c rfl))
      | some d =>
        obtain rfl : c = d := Option.some.inj (hkeep d hwinner)
        rw [search_of_seed hsolves, Outcome.eq_solved_of_candidate? hwinner, candidates_check]
        exact ⟨rfl, Nat.zero_le _, .verified⟩
    · rw [search_of_stale_seed hsolves, Stats.candidates_add, candidates_check, Nat.zero_add]
      exact ⟨rfl, le_rfl, .of_seedless⟩

theorem Resumes.search (h : Resumes saved slot slot')
    (hkeep : ∀ c, (slot.search catalog budget task).2.verified = some c → saved = some c)
    (hlater : (slot.search catalog budget task).2.verified = none →
      ∀ c, saved = some c → catalog.Reaches budget c) :
    (slot'.search catalog budget task).1.outcome = (slot.search catalog budget task).1.outcome ∧
    (slot'.search catalog budget task).1.gain.candidates ≤
      (slot.search catalog budget task).1.gain.candidates ∧
    Resumes saved (slot.search catalog budget task).2 (slot'.search catalog budget task).2 := by
  cases h with
  | verified => exact ⟨rfl, le_rfl, .verified⟩
  | unsolved => exact ⟨rfl, le_rfl, .of_seedless⟩
  | @unsearched seed =>
    cases seed with
    | none =>
      rw [search_of_no_seed] at hkeep hlater ⊢
      exact search_saved hkeep hlater
    | some d =>
      by_cases hsolves : d.Solves task
      · -- the first session's own seed becomes the winner, and is what it saves
        rw [search_of_seed hsolves] at hkeep ⊢
        obtain rfl : saved = some d := hkeep d rfl
        rw [search_of_seed hsolves]
        exact ⟨rfl, le_rfl, .verified⟩
      · rw [search_of_stale_seed hsolves] at hkeep hlater ⊢
        rw [Stats.candidates_add, candidates_check, Nat.zero_add]
        exact search_saved hkeep hlater

end Slot

namespace Session

variable {s s' : Session} {id : String} {c : Candidate} {task : Task} {todo : List Task}

theorem get?_snapshot_run (h : (s.slot id).verified = some c) :
    (s.run (todo.map .search)).snapshot.get? id = some c := by
  have hrun : (s.run (todo.map .search)).verified.get? id = some c := get?_run_of_some h
  rw [get?_snapshot, slot, hrun]
  rfl

/-- What is saved for an id that has neither a solution nor a seed was found by trying the candidates. -/
theorem reaches_of_snapshot (hslot : s.slot id = ⟨none, none⟩)
    (h : (s.run (todo.map .search)).snapshot.get? id = some c) : s.catalog.Reaches s.budget c := by
  induction todo generalizing s with
  | nil =>
    rw [List.map_nil, run, List.foldl_nil, get?_snapshot, hslot] at h
    cases h
  | cons task rest ih =>
    rw [run_map_search_cons] at h
    have hrest := ih (s := (s.search task).2)
    rw [catalog_search, budget_search] at hrest
    by_cases hid : id = task.id
    · subst hid
      have hnext : (s.search task).2.slot task.id =
          ⟨(s.catalog.tryAll s.budget task).outcome.candidate?, none⟩ := by
        rw [slot_search_self, searchSlot, hslot, Slot.search_of_no_seed]
      cases hwinner : (s.catalog.tryAll s.budget task).outcome.candidate? with
      | none => exact hrest (by rw [hnext, hwinner]) h
      | some d =>
        have hsaved : ((s.search task).2.run (rest.map .search)).snapshot.get? task.id = some d :=
          get?_snapshot_run (by rw [hnext, hwinner])
        obtain rfl : d = c := Option.some.inj (hsaved.symm.trans h)
        exact (ends_tryAll ..).reaches hwinner
    · exact hrest ((slot_search_of_ne hid).trans hslot) h

/-- Before the tasks `todo`, session `s'` stands where `s` does, but for what comes of its seeds. -/
structure ResumedBy (todo : List Task) (s s' : Session) : Prop where
  catalog : s'.catalog = s.catalog
  budget : s'.budget = s.budget
  slots : ∀ id, Slot.Resumes ((s.run (todo.map .search)).snapshot.get? id) (s.slot id) (s'.slot id)
  candidates : s'.stats.candidates ≤ s.stats.candidates

namespace ResumedBy

theorem search (h : ResumedBy (task :: todo) s s') :
    (s'.search task).1 = (s.search task).1 ∧ ResumedBy todo (s.search task).2 (s'.search task).2 := by
  have hkeep : ∀ c, (s.searchSlot task).2.verified = some c →
      ((s.search task).2.run (todo.map .search)).snapshot.get? task.id = some c := by
    intro c hc
    refine get?_snapshot_run ?_
    rw [slot_search_self, hc]
  have hlater : (s.searchSlot task).2.verified = none → ∀ c,
      ((s.search task).2.run (todo.map .search)).snapshot.get? task.id = some c →
        s.catalog.Reaches s.budget c := by
    intro hnone c hc
    have hreach := reaches_of_snapshot (s := (s.search task).2)
      (slot_search_self.trans (Slot.search_unsolved hnone)) hc
    rwa [catalog_search, budget_search] at hreach
  obtain ⟨houtcome, hgain, hslot⟩ := (h.slots task.id).search hkeep hlater
  have hsearchSlot : s'.searchSlot task = (s'.slot task.id).search s.catalog s.budget task := by
    rw [searchSlot, h.catalog, h.budget]
  rw [← hsearchSlot] at houtcome hgain hslot
  refine ⟨?_, ?_, ?_, fun id => ?_, ?_⟩
  · rw [outcome_search, outcome_search]
    exact houtcome
  · rw [catalog_search, catalog_search]
    exact h.catalog
  · rw [budget_search, budget_search]
    exact h.budget
  · by_cases hid : id = task.id
    · subst hid
      rw [slot_search_self, slot_search_self]
      exact hslot
    · rw [slot_search_of_ne hid, slot_search_of_ne hid]
      exact h.slots id
  · rw [stats_search, stats_search]
    exact Nat.add_le_add h.candidates hgain

theorem outcomes (h : ResumedBy todo s s') :
    (s'.replies (todo.map .search)).map (·.2.outcome) =
      (s.replies (todo.map .search)).map (·.2.outcome) := by
  induction todo generalizing s s' with
  | nil => rfl
  | cons task rest ih =>
    obtain ⟨houtcome, hnext⟩ := h.search
    rw [replies_map_search_cons, replies_map_search_cons, List.map_cons, List.map_cons, ih hnext]
    exact congrArg (· :: _) houtcome

theorem run (h : ResumedBy todo s s') :
    ResumedBy [] (s.run (todo.map .search)) (s'.run (todo.map .search)) := by
  induction todo generalizing s s' with
  | nil => exact h
  | cons task rest ih => exact ih h.search.2

/-- With no task left to search, what is saved is the same. -/
theorem snapshot (h : ResumedBy [] s s') : s'.snapshot = s.snapshot := by
  refine Register.ext_get? fun id => ?_
  rw [get?_snapshot]
  exact (h.slots id).kept get?_snapshot

end ResumedBy

/-- A session seeded with what an earlier one saved, under the same budget, searches the same tasks to the
same outcomes, saves the same, and tries no more candidates. -/
theorem resume_idempotent (variant : CatalogVariant) (budget : Budget) (seeds : Solutions)
    (tasks : List Task) :
    let fresh := (new variant).withBudget budget
    let searches := tasks.map Event.search
    let first := fresh.withSeeds seeds
    let saved := (first.run searches).snapshot
    let second := fresh.withSeeds saved
    (second.replies searches).map (·.2.outcome) = (first.replies searches).map (·.2.outcome) ∧
      (second.run searches).snapshot = saved ∧
      (second.run searches).stats.candidates ≤ (first.run searches).stats.candidates := by
  intro fresh searches first saved second
  have hresumed : ResumedBy tasks first second := by
    refine ⟨rfl, rfl, fun id => ?_, le_rfl⟩
    rw [slot_withSeeds, slot_withSeeds]
    exact .unsearched
  exact ⟨hresumed.outcomes, hresumed.run.snapshot, hresumed.run.candidates⟩

end Session
end Mosaic

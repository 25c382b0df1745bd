import Mosaic.Proofs.Independence

/-!
# What a session keeps and saves

A solution that was found stays: from then on every search of its id gives it and changes nothing
(`Session.solved_permanent`). What is saved for an id follows from the outcomes of its searches alone
(`Session.snapshot_of_outcomes`): its seed as long as there was none, and then the first solution found. A seed
that was looked up is either that solution or gone.
-/

namespace Mosaic

namespace Slot

variable {catalog : Catalog} {slot : Slot} {budget : Budget} {task : Task} {verified seed : Option Candidate}
  {rest todo : List Concern}

/-- What is saved for the id. -/
def kept (slot : Slot) : Option Candidate := slot.verified.or slot.seed

def outcomes (catalog : Catalog) (slot : Slot) (todo : List Concern) : List Outcome :=
  (slot.replies catalog todo).map (·.2.outcome)

theorem run_searched : slot.run catalog (.searched budget task :: rest) =
    (slot.search catalog budget task).2.run catalog rest := rfl

theorem outcomes_searched : slot.outcomes catalog (.searched budget task :: rest) =
    (slot.search catalog budget task).1.outcome :: (slot.search catalog budget task).2.outcomes catalog rest := rfl

/-- The first search of an id leaves what it has found, and no seed. -/
theorem search_unverified : (search ⟨none, seed⟩ catalog budget task).2 =
    ⟨(search ⟨none, seed⟩ catalog budget task).1.outcome.candidate?, none⟩ := by
  cases seed with
  | none => rw [search_of_no_seed]
  | some c =>
    by_cases hsolves : c.Solves task
    · rw [search_of_seed hsolves]; rfl
    · rw [search_of_stale_seed hsolves]

/-- Once there is no seed and none is offered, the first solution found is kept. -/
theorem kept_run (h : ∀ c, Concern.offered c ∉ todo) :
    (run catalog ⟨verified, none⟩ todo).kept =
      verified.or ((outcomes catalog ⟨verified, none⟩ todo).findSome? Outcome.candidate?) := by
  induction todo generalizing verified with
  | nil => rfl
  | cons concern rest ih =>
    have hrest : ∀ c, Concern.offered c ∉ rest := fun c hc => h c (List.mem_cons_of_mem _ hc)
    cases concern with
    | offered c => exact absurd (List.mem_cons_self ..) (h c)
    | searched budget task =>
      rw [run_searched, outcomes_searched]
      cases verified with
      | some c => exact ih hrest
      | none =>
        rw [search_unverified, ih hrest, Option.none_or, List.findSome?_cons]
        cases (search ⟨none, none⟩ catalog budget task).1.outcome.candidate? <;> rfl

theorem kept_run_of_seed (h : ∀ c, Concern.offered c ∉ todo) :
    (run catalog ⟨none, seed⟩ todo).kept =
      match outcomes catalog ⟨none, seed⟩ todo with
      | [] => seed
      | o :: os => (o :: os).findSome? Outcome.candidate? := by
  cases todo with
  | nil => rfl
  | cons concern rest =>
    have hrest : ∀ c, Concern.offered c ∉ rest := fun c hc => h c (List.mem_cons_of_mem _ hc)
    cases concern with
    | offered c => exact absurd (List.mem_cons_self ..) (h c)
    | searched budget task =>
      rw [run_searched, outcomes_searched, search_unverified, kept_run hrest]
      dsimp only
      rw [List.findSome?_cons]
      cases (search ⟨none, seed⟩ catalog budget task).1.outcome.candidate? <;> rfl

end Slot

theorem Outcome.candidate?_eq_none_iff {o : Outcome} : o.candidate? = none ↔ o.isSolved = false := by
  cases o <;> simp [candidate?, isSolved]

/-- Without a solution among them, outcomes have no first one. -/
theorem findSome?_candidate?_eq_none {os : List Outcome} (h : ∀ o ∈ os, o.isSolved = false) :
    os.findSome? Outcome.candidate? = none :=
  List.findSome?_eq_none_iff.mpr fun o ho => Outcome.candidate?_eq_none_iff.mpr (h o ho)

namespace Session

variable {s : Session} {task : Task} {c : Candidate} {id : String} {budget : Budget} {events later : List Event}

/-! ### Permanence -/

/-- Once a search has ended with a solution, the session holds this solution and saves it, whatever happens
later: seeds, budgets, other searches. Any search of a task with the id gives it and leaves the session as it
is. -/
theorem solved_permanent (h : (s.search task).1 = .solved c) (later : List Event) :
    let after := (s.search task).2.run later
    after.solution? task = some c ∧ after.snapshot.get? task.id = some c ∧
      ∀ t : Task, t.id = task.id → after.search t = (.solved c, after) := by
  intro after
  have hget : after.verified.get? task.id = some c := get?_run_of_some (get?_of_search_solved h)
  refine ⟨hget, ?_, fun t hid => search_of_verified (hid ▸ hget)⟩
  rw [get?_snapshot, slot, hget]
  rfl

/-- Another candidate is offered for the id, the budget is cut to nothing and a task with other pairs is
searched under the id: the answer stays. -/
theorem solved_permanent_reseeded :
    let pair : TrainingPair :=
      ⟨⟨1, 2, #[1, 0], by decide, by decide, rfl⟩, ⟨1, 4, #[1, 0, 1, 0], by decide, by decide, rfl⟩⟩
    let task : Task := { train := [pair], test := [], id := "a" }
    let other : Task := { train := [⟨pair.input, pair.input⟩, pair], test := [], id := "a" }
    let c : Candidate := ⟨.identity, .identity, .always⟩
    let offered : Solutions := Register.empty.insert "a" ⟨.identity, .swapAxes, .never⟩
    let after := ((new .legacy).search task).2.run [.seed offered, .budget ⟨some 0, none⟩, .search other]
    ((new .legacy).search task).1 = .solved c ∧ after.snapshot.get? "a" = some c ∧
      after.search other = (.solved c, after) := by
  intro pair task other c offered after
  have hsearch : ((new .legacy).search task).1 = .solved c := by decide +kernel
  obtain ⟨-, hsaved, hlater⟩ :=
    solved_permanent hsearch [.seed offered, .budget ⟨some 0, none⟩, .search other]
  exact ⟨hsearch, hsaved, hlater other rfl⟩

/-! ### Snapshots -/

/-- The outcomes of the searches of an id, in order. -/
def outcomes (s : Session) (events : List Event) (id : String) : List Outcome :=
  ((s.replies events).filter (·.1.id = id)).map (·.2.outcome)

theorem outcomes_eq : s.outcomes events id =
    (s.slot id).outcomes s.catalog (concerns id s.budget events) := by
  rw [outcomes, filter_replies, Slot.outcomes]

theorem get?_snapshot_eq_kept : (s.run events).snapshot.get? id =
    ((s.slot id).run s.catalog (concerns id s.budget events)).kept := by
  rw [get?_snapshot, slot_run, Slot.kept]

/-- Seeds concern an id only where they are set. -/
theorem offered_not_mem_concerns (h : ∀ seeds, Event.seed seeds ∉ events) :
    ∀ c, Concern.offered c ∉ concerns id budget events := by
  induction events generalizing budget with
  | nil => simp [concerns]
  | cons event rest ih =>
    intro c hc
    rw [concerns, List.mem_append] at hc
    rcases hc with hc | hc
    · cases event with
      | seed seeds => exact h seeds (List.mem_cons_self ..)
      | search task | solve task =>
        rw [Event.concern?] at hc
        split at hc <;> simp at hc
      | budget b | apply task subject | predict task => cases hc
    · exact ih (fun seeds hmem => h seeds (List.mem_cons_of_mem _ hmem)) c hc

/-- What a session that was given seeds saves for an id after any history without further seeds: the seed, if no
task with the id was searched; the first solution found for it, if there is one; nothing, if there were
searches and none found any. So all that is saved was among the seeds or was found. -/
theorem snapshot_of_outcomes (variant : CatalogVariant) (seeds : Solutions) (events : List Event)
    (hevents : ∀ more, Event.seed more ∉ events) (id : String) :
    let first := (new variant).withSeeds seeds
    let saved := (first.run events).snapshot
    (first.outcomes events id = [] → saved.get? id = seeds.get? id) ∧
    (∀ before c after, first.outcomes events id = before ++ .solved c :: after →
      (∀ o ∈ before, o.isSolved = false) → saved.get? id = some c) ∧
    (first.outcomes events id ≠ [] → (∀ o ∈ first.outcomes events id, o.isSolved = false) →
      saved.get? id = none) ∧
    ∀ c, (id, c) ∈ saved.entries → (id, c) ∈ seeds.entries ∨ .solved c ∈ first.outcomes events id := by
  intro first saved
  have hslot : first.slot id = ⟨none, seeds.get? id⟩ := by
    rw [slot_withSeeds]; rfl
  have hsaved : saved.get? id = match first.outcomes events id with
      | [] => seeds.get? id
      | o :: os => (o :: os).findSome? Outcome.candidate? := by
    rw [get?_snapshot_eq_kept, outcomes_eq, hslot]
    exact Slot.kept_run_of_seed (offered_not_mem_concerns hevents)
  refine ⟨fun hnone => ?_, fun before c after hsplit hbefore => ?_, fun hsome hunsolved => ?_, fun c hc => ?_⟩
  · rw [hsaved, hnone]
  · have hfirst : (first.outcomes events id).findSome? Outcome.candidate? = some c := by
      rw [hsplit, List.findSome?_append, findSome?_candidate?_eq_none hbefore]
      rfl
    rw [hsaved]
    cases hos : first.outcomes events id with
    | nil => simp [hos] at hsplit
    | cons o os => rwa [hos] at hfirst
  · have hnone := findSome?_candidate?_eq_none hunsolved
    rw [hsaved]
    cases hos : first.outcomes events id with
    | nil => exact absurd hos hsome
    | cons o os => rwa [hos] at hnone
  · rw [Register.mem_entries_iff, hsaved] at hc
    cases hos : first.outcomes events id with
    | nil => rw [hos] at hc; exact .inl (Register.mem_entries_iff.mpr hc)
    | cons o os =>
      rw [hos] at hc
      obtain ⟨found, hmem, hfound⟩ := List.exists_of_findSome?_eq_some hc
      exact .inr (Outcome.eq_solved_of_candidate? hfound ▸ hmem)

/-- Of three seeds one was never looked up, one was refuted and replaced by a solution found once the budget
allowed it, and one was refuted and has no successor. -/
theorem snapshot_of_outcomes_refuted :
    let pair : TrainingPair :=
      ⟨⟨1, 2, #[1, 0], by decide, by decide, rfl⟩, ⟨1, 4, #[1, 0, 1, 0], by decide, by decide, rfl⟩⟩
    let a : Task := { train := [pair], test := [], id := "a" }
    let b : Task := { train := [pair], test := [], id := "b" }
    let wrong : Candidate := ⟨.identity, .swapAxes, .never⟩
    let seeds : Solutions := ((Register.empty.insert "a" wrong).insert "b" wrong).insert "c" wrong
    let events : List Event :=
      [.budget ⟨some 0, none⟩, .search a, .search b, .budget .unlimited, .solve a]
    let first := (new .standard).withSeeds seeds
    let saved := (first.run events).snapshot
    (∀ more, Event.seed more ∉ events) ∧
      first.outcomes events "a" = [.budgetExceeded 0, .solved ⟨.identity, .identity, .always⟩] ∧
      saved.get? "a" = some ⟨.identity, .identity, .always⟩ ∧ saved.get? "b" = none ∧
      saved.get? "c" = seeds.get? "c" := by
  intro pair a b wrong seeds events first saved
  have hevents : ∀ more, Event.seed more ∉ events := by simp [events]
  have ha : first.outcomes events "a" = [.budgetExceeded 0, .solved ⟨.identity, .identity, .always⟩] := by
    decide +kernel
  have hb : first.outcomes events "b" = [.budgetExceeded 0] := by decide +kernel
  have hc : first.outcomes events "c" = [] := by decide +kernel
  have hsearched : first.outcomes events "b" ≠ [] := by rw [hb]; simp
  have hunsolved : ∀ o ∈ first.outcomes events "b", o.isSolved = false := by rw [hb]; simp [Outcome.isSolved]
  obtain ⟨-, hfound, -⟩ := snapshot_of_outcomes .standard seeds events hevents "a"
  obtain ⟨-, -, hnone, -⟩ := snapshot_of_outcomes .standard seeds events hevents "b"
  obtain ⟨hkept, -⟩ := snapshot_of_outcomes .standard seeds events hevents "c"
  exact ⟨hevents, ha, hfound [.budgetExceeded 0] _ [] ha (by simp [Outcome.isSolved]), hnone hsearched hunsolved,
    hkept hc⟩

end Session
end Mosaic

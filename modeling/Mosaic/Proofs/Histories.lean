import Mathlib.Data.List.Induction
import Mosaic.Proofs.Searches
import Mosaic.Strategy

/-!
# Histories of a session

A history is the list of events of a session's life: seeds and budgets that are set, tasks that are
searched or solved, solutions that are applied. `Session.Sound` is the invariant on the verified
solutions: each was found for a task of the history and solves it. Only a search records a solution, and
what is recorded stays (`Session.get?_run_of_some`).
-/

namespace Mosaic

inductive Event
  | seed (seeds : Solutions)
  | budget (budget : Budget)
  | search (task : Task)
  | solve (task : Task)
  | apply (task : Task) (subject : Subject task)
  | predict (task : Task)

namespace Event

def task? : Event → Option Task
  | seed _ | budget _ => none
  | search task | solve task | apply task _ | predict task => some task

end Event

def tasks (events : List Event) : List Task := events.filterMap Event.task?

/-- Tasks of the history with the same id have the same training pairs. -/
def Consistent (events : List Event) : Prop :=
  ∀ t ∈ tasks events, ∀ u ∈ tasks events, t.id = u.id → t.train = u.train

namespace Session

variable {s : Session} {task : Task} {c : Candidate} {id : String} {event : Event}
  {events later : List Event}

/-- The session after an event. To apply a solution changes nothing. -/
def after (s : Session) : Event → Session
  | .seed seeds => s.withSeeds seeds
  | .budget budget => s.withBudget budget
  | .search task => (s.search task).2
  | .solve task => (s.solve task).2
  | .apply _ _ | .predict _ => s

def run (s : Session) (events : List Event) : Session := events.foldl after s

theorem run_append : s.run (events ++ later) = (s.run events).run later := List.foldl_append

theorem run_concat : s.run (events ++ [event]) = (s.run events).after event := run_append

/-! ### What a search records -/

theorem solves_of_enumerate (h : (s.enumerate task).1 = .solved c) : c.Solves task := by
  have hends := ends_enumerate s task
  rw [h] at hends
  obtain ⟨i, hi, -⟩ := hends
  exact hi.solves

/-- A search leaves the verified solutions alone, or it solves its task and records what it found. -/
theorem verified_search (s : Session) (task : Task) :
    (s.search task).2.verified = s.verified ∨
    ∃ c, c.Solves task ∧ (s.search task).2.verified = s.verified.insert task.id c := by
  rcases search_cases s task with ⟨c, -, hsearch⟩ | ⟨c, -, hsolves, hsearch⟩ | ⟨s', -, hver, hsearch⟩
  · rw [hsearch]; exact .inl rfl
  · rw [hsearch]; exact .inr ⟨c, hsolves, rfl⟩
  · rw [hsearch, ← hver, verified_enumerate]
    cases ho : (s'.enumerate task).1 with
    | solved c => exact .inr ⟨c, solves_of_enumerate ho, rfl⟩
    | exhausted n => exact .inl rfl
    | budgetExceeded n => exact .inl rfl

theorem get?_of_search_solved (h : (s.search task).1 = .solved c) :
    (s.search task).2.verified.get? task.id = some c := by
  rcases search_cases s task with ⟨d, hget, hsearch⟩ | ⟨d, hget, -, hsearch⟩ | ⟨s', hget, hver, hsearch⟩
  · rw [hsearch] at h ⊢
    cases h
    exact hget
  · rw [hsearch] at h ⊢
    cases h
    exact Register.get?_insert_of_none hget
  · rw [hsearch] at h ⊢
    rw [verified_enumerate, h]
    exact Register.get?_insert_of_none (hver ▸ hget)

/-! ### One event -/

/-- What an event does to the verified solutions: nothing, unless it searches a task that has none. -/
theorem verified_after (s : Session) (event : Event) :
    (s.after event).verified = s.verified ∨
    ∃ task c, event.task? = some task ∧ c.Solves task ∧
      (s.after event).verified = s.verified.insert task.id c := by
  cases event with
  | seed seeds => exact .inl rfl
  | budget budget => exact .inl rfl
  | apply task subject => exact .inl rfl
  | predict task => exact .inl rfl
  | search task | solve task =>
    rcases verified_search s task with h | ⟨c, hsolves, h⟩
    · exact .inl h
    · exact .inr ⟨task, c, rfl, hsolves, h⟩

theorem get?_after_of_some (h : s.verified.get? id = some c) :
    (s.after event).verified.get? id = some c := by
  rcases verified_after s event with hver | ⟨task, d, -, -, hver⟩
  · rw [hver, h]
  · rw [hver]
    exact Register.get?_insert_of_some h

theorem get?_run_of_some (h : s.verified.get? id = some c) :
    (s.run events).verified.get? id = some c := by
  induction events generalizing s with
  | nil => exact h
  | cons event rest ih => exact ih (get?_after_of_some h)

/-! ### Soundness -/

/-- Every verified solution solves a task of the history that has its id. -/
def Sound (events : List Event) (s : Session) : Prop :=
  ∀ id c, s.verified.get? id = some c → ∃ task ∈ tasks events, task.id = id ∧ c.Solves task

theorem mem_tasks_append (h : task ∈ tasks events) : task ∈ tasks (events ++ later) := by
  rw [tasks, List.filterMap_append]
  exact List.mem_append_left _ h

theorem Sound.after (h : s.Sound events) : (s.after event).Sound (events ++ [event]) := by
  intro id c hget
  rcases verified_after s event with hver | ⟨task, d, htask, hsolves, hver⟩
  · rw [hver] at hget
    obtain ⟨task, htask, hid, hc⟩ := h id c hget
    exact ⟨task, mem_tasks_append htask, hid, hc⟩
  · -- the solution looked up is the one just recorded, or it was there before
    rw [hver, Register.get?_insert] at hget
    by_cases hid : id = task.id
    · cases hold : s.verified.get? task.id with
      | none =>
        rw [if_pos hid, hold] at hget
        cases hget
        refine ⟨task, ?_, hid.symm, hsolves⟩
        simp [tasks, htask]
      | some e =>
        rw [if_pos hid, hold] at hget
        cases hget
        obtain ⟨task', htask', hid', hc⟩ := h _ _ hold
        exact ⟨task', mem_tasks_append htask', hid'.trans hid.symm, hc⟩
    · rw [if_neg hid] at hget
      obtain ⟨task', htask', hid', hc⟩ := h id c hget
      exact ⟨task', mem_tasks_append htask', hid', hc⟩

theorem sound_run {variant : CatalogVariant} : ((new variant).run events).Sound events := by
  induction events using List.reverseRecOn with
  | nil => intro id c hget; cases hget
  | append_singleton events event ih => rw [run_concat]; exact ih.after

/-- What a session holds for a task after searching it solves the task, if all tasks with its id that came
before have its pairs. -/
theorem solves_of_get? {variant : CatalogVariant}
    (hids : ∀ t ∈ tasks events, t.id = task.id → t.train = task.train)
    (h : (((new variant).run events).search task).2.verified.get? task.id = some c) : c.Solves task := by
  have hsound : ((new variant).run (events ++ [.search task])).Sound (events ++ [.search task]) := sound_run
  rw [run_concat] at hsound
  obtain ⟨found, hfound, hid, hsolves⟩ := hsound _ _ h
  have htrain : found.train = task.train := by
    rw [tasks, List.filterMap_append, List.mem_append] at hfound
    rcases hfound with hfound | hfound
    · exact hids found hfound hid
    · have heq : found = task := by simpa [Event.task?] using hfound
      rw [heq]
  exact fun pair hpair => hsolves pair (htrain ▸ hpair)

/-! ### Round trip -/

/-- A training input is run on a canvas that holds its output. -/
theorem apply_training (hget : s.verified.get? task.id = some c) (hsolves : c.Solves task)
    (i : Fin task.train.length) : s.apply task (.training i) = .ok (task.train.get i).output := by
  have hrun : c.run (task.train.get i).input (.reference (task.train.get i).output) =
      .ok (task.train.get i).output := hsolves _ (List.get_mem ..)
  have hsolution : s.solution? task = some c := hget
  simp only [apply, hsolution, Subject.canvas, Subject.reference?, Subject.grid, hrun]

theorem exists_of_solve (h : (s.solve task).1 = true) :
    ∃ c, (s.solve task).2.verified.get? task.id = some c := by
  cases ho : (s.search task).1 with
  | solved c => exact ⟨c, get?_of_search_solved ho⟩
  | exhausted n | budgetExceeded n =>
    have hsolve : (s.solve task).1 = (s.search task).1.isSolved := rfl
    rw [hsolve, ho] at h
    cases h

/-- At every point of a history whose tasks do not contradict each other, each verified solution solves
all tasks with its id, and a task that `solve` has answered for gives back its training outputs. -/
theorem training_round_trip {variant : CatalogVariant} {history done todo : List Event}
    (hconsistent : Consistent history) (hsplit : history = done ++ todo) :
    (∀ id c, (id, c) ∈ ((new variant).run done).verified.entries →
      ∀ task ∈ tasks history, task.id = id → c.Solves task) ∧
    ∀ before between task, done = before ++ .solve task :: between →
      (((new variant).run before).solve task).1 = true →
      ∀ i : Fin task.train.length,
        ((new variant).run done).apply task (.training i) = .ok (task.train.get i).output := by
  have hentries : ∀ id c, ((new variant).run done).verified.get? id = some c →
      ∀ task ∈ tasks history, task.id = id → c.Solves task := by
    intro id c hget task htask hid
    obtain ⟨found, hfound, hfid, hsolves⟩ := sound_run id c hget
    have htrain : task.train = found.train :=
      hconsistent task htask found (hsplit ▸ mem_tasks_append hfound) (hid.trans hfid.symm)
    exact fun pair hpair => hsolves pair (htrain ▸ hpair)
  refine ⟨fun id c hmem => hentries id c (Register.mem_entries_iff.mp hmem), ?_⟩
  intro before between task hdone hsolve i
  obtain ⟨c, hc⟩ := exists_of_solve hsolve
  have hget : ((new variant).run done).verified.get? task.id = some c := by
    rw [hdone, run_append]
    exact get?_run_of_some (s := ((new variant).run before).after (.solve task)) hc
  have hmem : task ∈ tasks done := by simp [hdone, tasks, Event.task?]
  have htask : task ∈ tasks history := hsplit ▸ mem_tasks_append hmem
  exact apply_training hget (hentries _ _ hget task htask rfl) i

/-- A wrong seed, a budget that has run out and a second task with the same id change nothing for a task
that was solved. -/
theorem training_round_trip_reseeded :
    let pair : TrainingPair :=
      ⟨⟨1, 2, #[1, 0], by decide, by decide, rfl⟩, ⟨1, 4, #[1, 0, 1, 0], by decide, by decide, rfl⟩⟩
    let task : Task := { train := [pair], test := [], id := "a" }
    let other : Task := { train := [pair], test := [⟨pair.input, none⟩], id := "a" }
    let wrong : Solutions := Register.empty.insert "a" ⟨.identity, .identity, .never⟩
    let before : List Event := [.seed wrong]
    let between : List Event := [.budget ⟨some 0, none⟩, .seed wrong, .search other]
    let history := before ++ .solve task :: between ++ [.predict other]
    Consistent history ∧ (((new .standard).run before).solve task).1 = true ∧
      ((new .standard).run (before ++ .solve task :: between)).apply task (.training ⟨0, by decide⟩) =
        .ok pair.output := by
  intro pair task other wrong before between history
  have hconsistent : Consistent history := by
    intro t ht u hu _
    have htasks : tasks history = [task, other, other] := rfl
    rw [htasks] at ht hu
    simp only [List.mem_cons, List.not_mem_nil, or_false, or_self] at ht hu
    rcases ht with rfl | rfl <;> rcases hu with rfl | rfl <;> rfl
  have hsolve : (((new .standard).run before).solve task).1 = true := by decide +kernel
  exact ⟨hconsistent, hsolve,
    (training_round_trip hconsistent rfl).2 before between task rfl hsolve ⟨0, by decide⟩⟩

end Session
end Mosaic

import Mosaic.Proofs.Histories
import Mosaic.Proofs.Slots

/-!
# Ids do not interfere

Of a history, one id is concerned by the seeds offered for it and by the searches of its tasks, each under
the budget of its moment (`concerns`). What a session holds for the id, and how those searches end, is a
matter of these alone (`slot_run`, `filter_replies`), whatever else the history does. Searches of different
ids therefore change places freely (`search_comm`).
-/

namespace Mosaic

/-! ### What concerns one id -/

inductive Concern
  | offered (seed : Candidate)
  | searched (budget : Budget) (task : Task)

namespace Event

/-- The task that the event searches. -/
def searched? : Event → Option Task
  | search task | solve task => some task
  | seed _ | budget _ | apply _ _ | predict _ => none

def budgetAfter (current : Budget) : Event → Budget
  | budget b => b
  | seed _ | search _ | solve _ | apply _ _ | predict _ => current

def concern? (id : String) (current : Budget) : Event → Option Concern
  | seed seeds => (seeds.get? id).map .offered
  | search task | solve task => if task.id = id then some (.searched current task) else none
  | budget _ | apply _ _ | predict _ => none

end Event

/-- What concerns `id` in a history that starts with the given budget. -/
def concerns (id : String) (current : Budget) : List Event → List Concern
  | [] => []
  | event :: rest => (event.concern? id current).toList ++ concerns id (event.budgetAfter current) rest

namespace Slot

variable {catalog : Catalog} {slot : Slot}

def after (catalog : Catalog) (slot : Slot) : Concern → Slot
  | .offered c => { slot with seed := slot.seed.or (some c) }
  | .searched budget task => (slot.search catalog budget task).2

def run (catalog : Catalog) (slot : Slot) (todo : List Concern) : Slot := todo.foldl (after catalog) slot

/-- The answers to the searches, each with its task. -/
def replies (catalog : Catalog) (slot : Slot) : List Concern → List (Task × Answer)
  | [] => []
  | .offered c :: rest => (slot.after catalog (.offered c)).replies catalog rest
  | .searched budget task :: rest =>
    (task, (slot.search catalog budget task).1) ::
      (slot.after catalog (.searched budget task)).replies catalog rest

theorem replies_append {first rest : List Concern} : slot.replies catalog (first ++ rest) =
    slot.replies catalog first ++ (slot.run catalog first).replies catalog rest := by
  induction first generalizing slot with
  | nil => rfl
  | cons concern first ih =>
    cases concern with
    | offered c => exact ih
    | searched budget task => exact congrArg (List.cons _) ih

end Slot

namespace Session

variable {s s' : Session} {id : String} {task t u : Task} {event : Event} {events events' : List Event}
  {ts us : List Task}

/-- How the search of a task would end, and what it would add to the figures. -/
def answer (s : Session) (task : Task) : Answer :=
  ⟨(s.search task).1, (s.search task).2.stats.since s.stats⟩

/-- The answers to all searches of a history, each with its task. -/
def replies (s : Session) : List Event → List (Task × Answer)
  | [] => []
  | event :: rest =>
    (event.searched?.map fun task => (task, s.answer task)).toList ++ (s.after event).replies rest

theorem answer_eq : s.answer task = (s.searchSlot task).1 := by
  rw [answer, outcome_search, stats_search, Stats.add_since]

/-! ### One event -/

@[simp] theorem catalog_after : (s.after event).catalog = s.catalog := by
  cases event with
  | search task | solve task => exact catalog_search
  | seed seeds | budget budget | apply task subject | predict task => rfl

theorem budget_after : (s.after event).budget = event.budgetAfter s.budget := by
  cases event with
  | search task | solve task => exact budget_search
  | seed seeds | budget budget | apply task subject | predict task => rfl

theorem slot_withSeeds {seeds : Solutions} :
    (s.withSeeds seeds).slot id = { s.slot id with seed := (s.slot id).seed.or (seeds.get? id) } :=
  congrArg (Slot.mk _) Register.get?_merge

/-- Only what concerns an id changes its slot. -/
theorem slot_after : (s.after event).slot id =
    (s.slot id).run s.catalog (event.concern? id s.budget).toList := by
  have hsearch : ∀ task, (s.search task).2.slot id = (s.slot id).run s.catalog
      (if task.id = id then some (Concern.searched s.budget task) else none).toList := by
    intro task
    by_cases hid : task.id = id
    · subst hid
      rw [if_pos rfl, slot_search_self]
      rfl
    · rw [if_neg hid, slot_search_of_ne (Ne.symm hid)]
      rfl
  cases event with
  | search task => exact hsearch task
  | solve task => exact hsearch task
  | seed seeds =>
    rw [after, slot_withSeeds, Event.concern?]
    cases seeds.get? id with
    | none => rw [Option.or_none]; rfl
    | some c => rfl
  | budget budget | apply task subject | predict task => rfl

/-! ### Histories -/

theorem catalog_run : (s.run events).catalog = s.catalog := by
  induction events generalizing s with
  | nil => rfl
  | cons event rest ih => exact ih.trans catalog_after

theorem slot_run : (s.run events).slot id = (s.slot id).run s.catalog (concerns id s.budget events) := by
  induction events generalizing s with
  | nil => rfl
  | cons event rest ih =>
    have hrest := ih (s := s.after event)
    rw [catalog_after, budget_after, slot_after] at hrest
    rw [concerns, Slot.run, List.foldl_append]
    exact hrest

theorem filter_reply : ((event.searched?.map fun task => (task, s.answer task)).toList.filter
      (·.1.id = id)) =
    (s.slot id).replies s.catalog (event.concern? id s.budget).toList := by
  have hsearch : ∀ task, ([(task, s.answer task)].filter (·.1.id = id)) =
      (s.slot id).replies s.catalog
        (if task.id = id then some (Concern.searched s.budget task) else none).toList := by
    intro task
    by_cases hid : task.id = id
    · subst hid
      simp only [if_true, Option.toList_some, Slot.replies, List.filter_cons, List.filter_nil, decide_true,
        answer_eq, searchSlot]
    · simp [hid, Slot.replies]
  cases event with
  | search task => exact hsearch task
  | solve task => exact hsearch task
  | seed seeds =>
    rw [Event.concern?]
    cases seeds.get? id <;> rfl
  | budget budget | apply task subject | predict task => rfl

/-- The answers to an id's searches are those of its slot. -/
theorem filter_replies : ((s.replies events).filter (·.1.id = id)) =
    (s.slot id).replies s.catalog (concerns id s.budget events) := by
  induction events generalizing s with
  | nil => rfl
  | cons event rest ih =>
    have hrest := ih (s := s.after event)
    rw [catalog_after, budget_after, slot_after] at hrest
    rw [replies, List.filter_append, concerns, Slot.replies_append, filter_reply, hrest]

theorem apply_congr {subject : Subject task} (h : s.solution? task = s'.solution? task) :
    s.apply task subject = s'.apply task subject := by
  rw [apply, apply, h]

/-! ### Changing places -/

theorem searchSlot_search_of_ne (h : u.id ≠ t.id) :
    (s.search t).2.searchSlot u = s.searchSlot u :=
  searchSlot_congr catalog_search budget_search (slot_search_of_ne h)

theorem answer_search_of_ne (h : u.id ≠ t.id) : (s.search t).2.answer u = s.answer u := by
  rw [answer_eq, answer_eq, searchSlot_search_of_ne h]

/-- Searches of two ids lead to the same session in either order. -/
theorem search_comm (h : t.id ≠ u.id) : ((s.search t).2.search u).2 = ((s.search u).2.search t).2 := by
  refine ext_slot (by simp) (by simp) ?_ fun id => ?_
  · rw [stats_search, stats_search, stats_search, stats_search, searchSlot_search_of_ne h.symm,
      searchSlot_search_of_ne h, add_right_comm]
  · simp only [slot_search, searchSlot_search_of_ne h.symm, searchSlot_search_of_ne h]
    by_cases ht : id = t.id
    · subst ht
      rw [if_neg h, if_pos rfl, if_pos rfl]
    · rw [if_neg ht, if_neg ht]

theorem run_map_search_cons :
    s.run ((t :: ts).map .search) = (s.search t).2.run (ts.map .search) := rfl

theorem replies_map_search_cons : s.replies ((t :: ts).map .search) =
    (t, s.answer t) :: (s.search t).2.replies (ts.map .search) := rfl

theorem run_perm (hperm : ts.Perm us) (hids : (ts.map (·.id)).Nodup) :
    s.run (ts.map .search) = s.run (us.map .search) := by
  induction hperm generalizing s with
  | nil => rfl
  | cons t _ ih =>
    rw [run_map_search_cons, run_map_search_cons]
    exact ih (List.nodup_cons.mp hids).2
  | swap t u rest =>
    have hne : u.id ≠ t.id := fun h => (List.nodup_cons.mp hids).1 (by simp [h])
    simp only [run_map_search_cons]
    rw [search_comm hne]
  | trans hperm _ ih₁ ih₂ => rw [ih₁ hids, ih₂ ((hperm.map _).nodup_iff.mp hids)]

theorem replies_perm (hperm : ts.Perm us) (hids : (ts.map (·.id)).Nodup) :
    (s.replies (ts.map .search)).Perm (s.replies (us.map .search)) := by
  induction hperm generalizing s with
  | nil => exact .nil
  | cons t _ ih =>
    rw [replies_map_search_cons, replies_map_search_cons]
    exact .cons _ (ih (List.nodup_cons.mp hids).2)
  | swap t u rest =>
    have hne : u.id ≠ t.id := fun h => (List.nodup_cons.mp hids).1 (by simp [h])
    simp only [replies_map_search_cons]
    rw [answer_search_of_ne hne.symm, answer_search_of_ne hne, search_comm hne]
    exact .swap ..
  | trans hperm _ ih₁ ih₂ => exact (ih₁ hids).trans (ih₂ ((hperm.map _).nodup_iff.mp hids))

/-! ### Independence -/

/-- Two new sessions whose histories agree in what concerns an id answer its searches alike and come to hold
the same for it; and the order in which tasks of different ids are searched matters to nothing. -/
theorem searches_independent (variant : CatalogVariant) :
    (∀ id events events', concerns id .unlimited events = concerns id .unlimited events' →
      (((new variant).replies events).filter (·.1.id = id)) =
        ((new variant).replies events').filter ((·.1.id = id)) ∧
      ((new variant).run events).snapshot.get? id = ((new variant).run events').snapshot.get? id ∧
      ∀ task, task.id = id →
        ((new variant).run events).solution? task = ((new variant).run events').solution? task ∧
        ∀ subject, ((new variant).run events).apply task subject =
          ((new variant).run events').apply task subject) ∧
    ∀ (s : Session) (ts us : List Task), ts.Perm us → (ts.map (·.id)).Nodup →
      (s.replies (ts.map .search)).Perm (s.replies (us.map .search)) ∧
      s.run (ts.map .search) = s.run (us.map .search) := by
  refine ⟨fun id events events' h => ?_, fun s ts us hperm hids =>
    ⟨replies_perm hperm hids, run_perm hperm hids⟩⟩
  have hslot : ((new variant).run events).slot id = ((new variant).run events').slot id := by
    rw [slot_run, slot_run]
    exact congrArg _ h
  refine ⟨?_, ?_, ?_⟩
  · rw [filter_replies, filter_replies]
    exact congrArg _ h
  · rw [get?_snapshot, get?_snapshot, hslot]
  · rintro task rfl
    have hsolution : ((new variant).run events).solution? task =
        ((new variant).run events').solution? task := congrArg Slot.verified hslot
    exact ⟨hsolution, fun subject => apply_congr hsolution⟩

/-- What a stale seed, a short budget and two searches do to another id is nothing to the search of a
task. -/
theorem searches_independent_of_other :
    let pair : TrainingPair :=
      ⟨⟨1, 2, #[1, 0], by decide, by decide, rfl⟩, ⟨1, 4, #[1, 0, 1, 0], by decide, by decide, rfl⟩⟩
    let a : Task := { train := [pair], test := [], id := "a" }
    let b : Task := { train := [⟨pair.output, pair.input⟩], test := [], id := "b" }
    let stale : Solutions := Register.empty.insert "b" ⟨.identity, .swapAxes, .never⟩
    let alone : List Event := [.search a]
    let mixed : List Event :=
      [.seed stale, .budget ⟨some 2, none⟩, .search b, .budget .unlimited, .solve a,
        .budget ⟨some 1, none⟩, .search b]
    concerns "a" .unlimited alone = concerns "a" .unlimited mixed ∧
      (((new .standard).replies mixed).filter (·.1.id = "a")).map (·.2.outcome) =
        [.solved ⟨.identity, .identity, .always⟩] ∧
      ((new .standard).run mixed).solution? a = some ⟨.identity, .identity, .always⟩ ∧
      ((new .standard).withBudget ⟨some 1, none⟩).run [.search a, .search b] =
        ((new .standard).withBudget ⟨some 1, none⟩).run [.search b, .search a] := by
  intro pair a b stale alone mixed
  have hseed : stale.get? "a" = none := by decide +kernel
  have hconcerns : concerns "a" .unlimited alone = concerns "a" .unlimited mixed := by
    simp [alone, mixed, concerns, Event.concern?, Event.budgetAfter, hseed, a, b]
  have halone : (((new .standard).replies alone).filter (·.1.id = "a")).map (·.2.outcome) =
      [.solved ⟨.identity, .identity, .always⟩] := by decide +kernel
  have hsolution : ((new .standard).run alone).solution? a = some ⟨.identity, .identity, .always⟩ := by
    decide +kernel
  have hids : ([a, b].map (·.id)).Nodup := by decide
  obtain ⟨hfilter, -, hsame⟩ := (searches_independent .standard).1 "a" alone mixed hconcerns
  refine ⟨hconcerns, ?_, ?_, ((searches_independent .standard).2 _ [a, b] [b, a] (.swap ..) hids).2⟩
  · rw [← hfilter]
    exact halone
  · rw [← (hsame a rfl).1]
    exact hsolution

end Session
end Mosaic

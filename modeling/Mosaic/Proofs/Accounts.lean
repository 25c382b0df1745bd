import Mosaic.Proofs.Independence
import Mosaic.Proofs.Products
import Mosaic.Proofs.Seeds

/-!
# The figures of a session

Every search of a history is answered by what is known, by a seed, or by trying candidates (`Session.course`), and
so it is settled which candidates it checks (`Session.checked`). The figures of a session are those of its
searches put together (`Session.stats_run`), and they account for the verified solutions
(`Session.stats_accounting`). A time limit that runs out between two candidates ends a search as a bound on their
number does, set just before it.
-/

namespace Mosaic

namespace Candidate

variable {c : Candidate} {pair : TrainingPair} {pairs : List TrainingPair}

/-! ### What a check reaches -/

instance : Decidable (c.Reproduces pair) := inferInstanceAs (Decidable (_ = _))

/-- The place, counted from one, of the first pair that is not reproduced, or the number of pairs. -/
def pairsReached (c : Candidate) (pairs : List TrainingPair) : Nat :=
  match pairs.findIdx? fun pair => ¬c.Reproduces pair with
  | some i => i + 1
  | none => pairs.length

/-- There is a pair that is not reproduced, and the trial of the first one fails. -/
def failsOn (c : Candidate) (pairs : List TrainingPair) : Bool :=
  match pairs.find? fun pair => ¬c.Reproduces pair with
  | some pair => !(c.run pair.input (.reference pair.output)).isOk
  | none => false

theorem pairsReached_cons_of_reproduces (h : c.Reproduces pair) :
    c.pairsReached (pair :: pairs) = c.pairsReached pairs + 1 := by
  unfold pairsReached
  rw [List.findIdx?_cons, if_neg (by simpa using h)]
  cases pairs.findIdx? fun pair => ¬c.Reproduces pair <;> rfl

theorem pairsReached_cons_of_not_reproduces (h : ¬c.Reproduces pair) : c.pairsReached (pair :: pairs) = 1 := by
  unfold pairsReached
  rw [List.findIdx?_cons, if_pos (by simpa using h)]

theorem failsOn_cons_of_reproduces (h : c.Reproduces pair) : c.failsOn (pair :: pairs) = c.failsOn pairs := by
  unfold failsOn
  rw [List.find?_cons_of_neg (by simpa using h)]

theorem failsOn_cons_of_not_reproduces (h : ¬c.Reproduces pair) :
    c.failsOn (pair :: pairs) = !(c.run pair.input (.reference pair.output)).isOk := by
  unfold failsOn
  rw [List.find?_cons_of_pos (by simpa using h)]

theorem check_eq (c : Candidate) (pairs : List TrainingPair) : (c.check pairs).trials = c.pairsReached pairs ∧
    (c.check pairs).failures = (c.failsOn pairs).toNat := by
  induction pairs with
  | nil => exact ⟨rfl, rfl⟩
  | cons pair rest ih =>
    by_cases h : c.Reproduces pair
    · rw [check_cons_of_reproduces h, pairsReached_cons_of_reproduces h, failsOn_cons_of_reproduces h, ih.1]
      exact ⟨rfl, ih.2⟩
    · rw [check_cons_of_not_reproduces h, pairsReached_cons_of_not_reproduces h, failsOn_cons_of_not_reproduces h]
      refine ⟨rfl, ?_⟩
      cases c.run pair.input (.reference pair.output) <;> rfl

theorem failsOn_le_pairsReached : (c.failsOn pairs).toNat ≤ c.pairsReached pairs := by
  cases pairs with
  | nil => exact Nat.zero_le _
  | cons pair rest =>
    have hle : (c.failsOn (pair :: rest)).toNat ≤ 1 := Bool.toNat_le _
    by_cases h : c.Reproduces pair
    · rw [pairsReached_cons_of_reproduces h]
      omega
    · rwa [pairsReached_cons_of_not_reproduces h]

end Candidate

namespace Stats

variable {s d : Stats} {c : Candidate} {cs : List Candidate} {pairs : List TrainingPair}

def ofChecks (pairs : List TrainingPair) (cs : List Candidate) : Stats :=
  ⟨0, (cs.map (·.pairsReached pairs)).sum, cs.countP (·.failsOn pairs), 0⟩

theorem ofChecks_append {cs' : List Candidate} :
    ofChecks pairs (cs ++ cs') = ofChecks pairs cs + ofChecks pairs cs' := by
  ext <;> simp [ofChecks]

theorem ofChecks_cons : ofChecks pairs (c :: cs) = ofChecks pairs [c] + ofChecks pairs cs := by
  rw [← ofChecks_append, List.singleton_append]

theorem ofChecks_singleton : ofChecks pairs [c] = ⟨0, c.pairsReached pairs, (c.failsOn pairs).toNat, 0⟩ := by
  ext <;> simp [ofChecks, List.countP_cons, Bool.toNat, Bool.cond_eq_ite]

theorem addCheck_check : s.addCheck (c.check pairs) = s + ofChecks pairs [c] := by
  obtain ⟨htrials, hfailures⟩ := c.check_eq pairs
  rw [ofChecks_singleton]
  ext <;> simp [addCheck, htrials, hfailures]

/-- The figures of a search that checks `cs`, `tried` of them in the order of the catalog, and finds a solution
among those or not. -/
def ofSearch (pairs : List TrainingPair) (cs : List Candidate) (tried : Nat) (found : Bool) : Stats :=
  ofChecks pairs cs + ⟨tried, 0, 0, found.toNat⟩

/-- No more failures than trials, and no more solutions found than candidates tried. -/
structure Bounded (s : Stats) : Prop where
  failures_le : s.failures ≤ s.trials
  solved_le : s.solved ≤ s.candidates

theorem Bounded.add (hs : s.Bounded) (hd : d.Bounded) : (s + d).Bounded :=
  ⟨Nat.add_le_add hs.failures_le hd.failures_le, Nat.add_le_add hs.solved_le hd.solved_le⟩

theorem bounded_ofChecks : (ofChecks pairs cs).Bounded := by
  induction cs with
  | nil => exact ⟨le_rfl, le_rfl⟩
  | cons c rest ih =>
    have hc : (ofChecks pairs [c]).Bounded := by
      rw [ofChecks_singleton]
      exact ⟨Candidate.failsOn_le_pairsReached, le_rfl⟩
    rw [ofChecks_cons]
    exact hc.add ih

theorem bounded_ofSearch {tried : Nat} {found : Bool} (h : found.toNat ≤ tried) :
    (ofSearch pairs cs tried found).Bounded :=
  bounded_ofChecks.add ⟨le_rfl, h⟩

end Stats

/-! ### What trying the candidates adds -/

/-- How many candidates were tried before the end: with the one found, all up to its place. -/
def Catalog.tried (catalog : Catalog) : Outcome → Nat
  | .solved c => catalog.candidates.idxOf c + 1
  | .exhausted n | .budgetExceeded n => n

theorem Catalog.isSolved_le_tried {catalog : Catalog} {outcome : Outcome} :
    outcome.isSolved.toNat ≤ catalog.tried outcome := by
  cases outcome with
  | solved c => exact Nat.le_add_left 1 _
  | exhausted n | budgetExceeded n => exact Nat.zero_le _

namespace Session

variable {task : Task} {c : Candidate}

/-- Ends of the loop that has tried the candidates `cs`, `evaluated` others being tried before. -/
def Tried (pairs : List TrainingPair) (evaluated : Nat) (cs : List Candidate) : Outcome → Prop
  | .solved c => (c.check pairs).valid = true ∧
      ∃ before, cs = before ++ [c] ∧ ∀ b ∈ before, (b.check pairs).valid = false
  | .exhausted n | .budgetExceeded n => n = evaluated + cs.length

theorem Tried.cons {pairs : List TrainingPair} {evaluated : Nat} {cs : List Candidate} {outcome : Outcome}
    (hc : (c.check pairs).valid = false) (h : Tried pairs (evaluated + 1) cs outcome) :
    Tried pairs evaluated (c :: cs) outcome := by
  cases outcome with
  | solved d =>
    obtain ⟨hd, before, rfl, hbefore⟩ := h
    exact ⟨hd, c :: before, rfl, List.forall_mem_cons.mpr ⟨hc, hbefore⟩⟩
  | exhausted n | budgetExceeded n =>
    have hn : n = evaluated + 1 + cs.length := h
    show n = evaluated + (cs.length + 1)
    omega

/-- The loop tries the candidates left, from the first on. -/
theorem tryFrom_spec {budget : Budget} {pairs : List TrainingPair} {todo evaluated : Nat} {e : Enumeration}
    {stats : Stats} (h : e.WellPlaced) :
    ∃ cs, cs <+: e.left ∧ Tried pairs evaluated cs (tryFrom budget pairs todo e evaluated stats).1 ∧
      (tryFrom budget pairs todo e evaluated stats).2 = stats + Stats.ofSearch pairs cs cs.length
        (tryFrom budget pairs todo e evaluated stats).1.isSolved := by
  induction todo generalizing e evaluated stats with
  | zero => exact ⟨[], List.nil_prefix, rfl, rfl⟩
  | succ todo ih =>
    rw [tryFrom]
    cases hnext : e.next? with
    | none => exact ⟨[], List.nil_prefix, rfl, rfl⟩
    | some next =>
      obtain ⟨c, rest⟩ := next
      obtain ⟨hrest, hleft⟩ := Enumeration.left_of_next? h hnext
      dsimp only
      rw [Stats.addCheck_check, hleft]
      split
      · exact ⟨[], List.nil_prefix, rfl, rfl⟩
      · split
        · rename_i hvalid
          refine ⟨[c], List.cons_prefix_cons.mpr ⟨rfl, List.nil_prefix⟩, ⟨hvalid, [], rfl, by simp⟩, ?_⟩
          ext <;> simp [Outcome.isSolved, Stats.ofSearch, Stats.ofChecks]
        · rename_i hvalid
          obtain ⟨cs, hcs, htried, hstats⟩ := @ih (evaluated + 1) rest _ hrest
          refine ⟨c :: cs, List.cons_prefix_cons.mpr ⟨rfl, hcs⟩, htried.cons (Bool.eq_false_of_not_eq_true hvalid), ?_⟩
          rw [hstats, Stats.ofSearch, Stats.ofSearch, Stats.ofChecks_cons]
          ext <;> simp [Stats.ofChecks, List.countP_cons, Nat.add_comm, Nat.add_left_comm, Nat.add_assoc]

def triedStats (catalog : Catalog) (pairs : List TrainingPair) (outcome : Outcome) : Stats :=
  Stats.ofSearch pairs (catalog.candidates.take (catalog.tried outcome)) (catalog.tried outcome) outcome.isSolved

theorem length_eq_tried {catalog : Catalog} {pairs : List TrainingPair} {cs : List Candidate} {outcome : Outcome}
    (hcs : cs <+: catalog.candidates) (h : Tried pairs 0 cs outcome) : catalog.tried outcome = cs.length := by
  cases outcome with
  | solved c =>
    obtain ⟨hc, before, rfl, hbefore⟩ := h
    obtain ⟨rest, hrest⟩ := hcs
    -- the candidate found is not among those before it, of which none is valid
    have hnot : c ∉ before := fun hmem => by
      rw [hbefore c hmem] at hc
      contradiction
    rw [Catalog.tried, ← hrest, List.append_assoc, List.idxOf_append_of_notMem hnot, List.singleton_append,
      List.idxOf_cons_self, List.length_append]
    rfl
  | exhausted n | budgetExceeded n => exact h.trans (Nat.zero_add _)

theorem gain_tryAll {catalog : Catalog} {budget : Budget} : (catalog.tryAll budget task).gain =
    triedStats catalog task.train (catalog.tryAll budget task).outcome := by
  have hspec : ∃ cs, cs <+: catalog.enumeration.left ∧
      Tried task.train 0 cs (catalog.tryAll budget task).outcome ∧
      (catalog.tryAll budget task).gain =
        0 + Stats.ofSearch task.train cs cs.length (catalog.tryAll budget task).outcome.isSolved :=
    tryFrom_spec Catalog.wellPlaced_enumeration
  obtain ⟨cs, hcs, htried, hgain⟩ := hspec
  rw [Catalog.left_enumeration, ← Catalog.candidates_eq_product] at hcs
  rw [triedStats, length_eq_tried hcs htried, ← List.prefix_iff_eq_take.mp hcs, hgain, zero_add]

end Session

/-! ### How a search is answered

The course of a search settles how many candidates it tries, which ones it checks and what it adds to the figures.
-/

inductive Course
  | known
  | seeded (seed : Candidate)
  /-- The candidates are tried, once a stale seed has been checked if there was one. -/
  | enumerated (stale : Option Candidate)

namespace Session

variable {s : Session} {task : Task}

def course (s : Session) (task : Task) : Course :=
  match s.verified.get? task.id, s.seeds.get? task.id with
  | some _, _ => .known
  | none, none => .enumerated none
  | none, some c => if c.Solves task then .seeded c else .enumerated (some c)

def tried (s : Session) (task : Task) : Nat :=
  match s.course task with
  | .known | .seeded _ => 0
  | .enumerated _ => s.catalog.tried (s.search task).1

def checked (s : Session) (task : Task) : List Candidate :=
  match s.course task with
  | .known => []
  | .seeded c => [c]
  | .enumerated stale => stale.toList ++ s.catalog.candidates.take (s.tried task)

def answersBySeed (s : Session) (task : Task) : Bool :=
  match s.course task with
  | .seeded _ => true
  | .known | .enumerated _ => false

/-- The search of a task finds a candidate by trying. -/
def finds (s : Session) (task : Task) : Bool :=
  match s.course task with
  | .known | .seeded _ => false
  | .enumerated _ => (s.search task).1.isSolved

def searchStats (s : Session) (task : Task) : Stats :=
  Stats.ofSearch task.train (s.checked task) (s.tried task) (s.finds task)

theorem bounded_searchStats : (s.searchStats task).Bounded := by
  refine Stats.bounded_ofSearch ?_
  unfold finds tried
  cases s.course task with
  | known | seeded c => exact Nat.zero_le _
  | enumerated stale => exact Catalog.isSolved_le_tried

theorem stats_enumerate : (s.enumerate task).2.stats =
    s.stats + triedStats s.catalog task.train (s.enumerate task).1 := by
  rw [enumerate_eq, ← gain_tryAll]
  rfl

theorem size_enumerate (hverified : s.verified.get? task.id = none) : (s.enumerate task).2.verified.size =
    s.verified.size + (s.enumerate task).1.isSolved.toNat := by
  rw [verified_enumerate]
  cases (s.enumerate task).1 with
  | solved c => exact Register.size_insert_of_none hverified
  | exhausted n | budgetExceeded n => rfl

/-- A search adds to the figures what its course says, and one verified solution if a seed or the trying gave it. -/
theorem search_accounts (s : Session) (task : Task) :
    (s.search task).2.stats = s.stats + s.searchStats task ∧
    (s.search task).2.verified.size =
      s.verified.size + (s.finds task).toNat + (s.answersBySeed task).toNat := by
  unfold searchStats checked finds answersBySeed
  cases hverified : s.verified.get? task.id with
  | some c =>
    have hcourse : s.course task = .known := by rw [course, hverified]
    rw [tried, hcourse, search_of_verified hverified]
    exact ⟨rfl, rfl⟩
  | none =>
    cases hseed : s.seeds.get? task.id with
    | none =>
      have hcourse : s.course task = .enumerated none := by rw [course, hverified, hseed]
      rw [tried, hcourse, search_of_no_seed hverified hseed]
      exact ⟨stats_enumerate, size_enumerate hverified⟩
    | some c =>
      by_cases hsolves : c.Solves task
      · have hcourse : s.course task = .seeded c := by rw [course, hverified, hseed]; exact if_pos hsolves
        rw [tried, hcourse, search_of_seed hverified hseed hsolves]
        exact ⟨Stats.addCheck_check, Register.size_insert_of_none hverified⟩
      · have hcourse : s.course task = .enumerated (some c) := by rw [course, hverified, hseed]; exact if_neg hsolves
        rw [tried, hcourse, search_of_stale_seed hverified hseed hsolves]
        refine ⟨?_, size_enumerate (s := s.checkSeed task c) hverified⟩
        have hcheck : (s.checkSeed task c).stats = s.stats + Stats.ofChecks task.train [c] := Stats.addCheck_check
        rw [stats_enumerate, hcheck, add_assoc, triedStats, Stats.ofSearch, ← add_assoc (Stats.ofChecks _ [c]),
          ← Stats.ofChecks_append]
        rfl

/-! ### The searches of a history -/

/-- The searches of a history, each by the session before it and its task. -/
def searched (s : Session) : List Event → List (Session × Task)
  | [] => []
  | event :: rest => (event.searched?.map fun task => (s, task)).toList ++ (s.after event).searched rest

end Session

/-- The checks of some searches, each by its candidate and its task. -/
def checks (searches : List (Session × Task)) : List (Candidate × Task) :=
  searches.flatMap fun (s, task) => (s.checked task).map fun c => (c, task)

/-- The figures of some searches. -/
def accounts (searches : List (Session × Task)) : Stats where
  candidates := (searches.map fun (s, task) => s.tried task).sum
  trials := ((checks searches).map fun (c, task) => c.pairsReached task.train).sum
  failures := (checks searches).countP fun (c, task) => c.failsOn task.train
  solved := searches.countP fun (s, task) => s.finds task

theorem accounts_append {first rest : List (Session × Task)} :
    accounts (first ++ rest) = accounts first + accounts rest := by
  ext <;> simp [accounts, checks]

namespace Session

variable {s : Session} {task : Task}

theorem accounts_singleton : accounts [(s, task)] = s.searchStats task := by
  ext <;>
    simp [accounts, checks, searchStats, Stats.ofSearch, Stats.ofChecks, Function.comp_def, Bool.toNat,
      Bool.cond_eq_ite]

theorem after_accounts (s : Session) (event : Event) :
    let searches := (event.searched?.map fun task => (s, task)).toList
    (s.after event).stats = s.stats + accounts searches ∧
    (s.after event).verified.size = s.verified.size + (accounts searches).solved +
      searches.countP fun (s, task) => s.answersBySeed task := by
  have hsearch : ∀ task, (s.search task).2.stats = s.stats + accounts [(s, task)] ∧
      (s.search task).2.verified.size = s.verified.size + (accounts [(s, task)]).solved +
        [(s, task)].countP fun (s, task) => s.answersBySeed task := by
    intro task
    obtain ⟨hstats, hsize⟩ := search_accounts s task
    rw [accounts_singleton]
    refine ⟨hstats, hsize.trans ?_⟩
    simp [searchStats, Stats.ofSearch, Stats.ofChecks, Bool.toNat, Bool.cond_eq_ite]
  cases event with
  | search task => exact hsearch task
  | solve task => exact hsearch task
  | seed seeds | budget budget | apply task subject | predict task => exact ⟨rfl, rfl⟩

/-- The figures of a run are those of its searches, and every search that found a solution left one more. -/
theorem run_accounts (s : Session) (events : List Event) :
    (s.run events).stats = s.stats + accounts (s.searched events) ∧
    (s.run events).verified.size = s.verified.size + (accounts (s.searched events)).solved +
      (s.searched events).countP fun (s, task) => s.answersBySeed task := by
  induction events generalizing s with
  | nil => exact ⟨rfl, rfl⟩
  | cons event rest ih =>
    obtain ⟨hstats, hsize⟩ := after_accounts s event
    obtain ⟨hrest, hrestSize⟩ := ih (s.after event)
    rw [searched, accounts_append, List.countP_append]
    constructor
    · rw [← add_assoc, ← hstats]
      exact hrest
    · rw [Stats.solved_add]
      have hrun : (s.run (event :: rest)).verified.size = _ := hrestSize
      omega

theorem bounded_accounts (searches : List (Session × Task)) : (accounts searches).Bounded := by
  induction searches with
  | nil => exact ⟨le_rfl, le_rfl⟩
  | cons search rest ih =>
    rw [← List.singleton_append, accounts_append]
    exact Stats.Bounded.add (accounts_singleton ▸ bounded_searchStats) ih

/-- The figures of any run, read off its searches: the candidates tried, the trials that checks took, the trials
that failed; and the verified solutions are those found by trying and those that seeds gave. -/
theorem stats_accounting (variant : CatalogVariant) (events : List Event) :
    let searches := (new variant).searched events
    let after := (new variant).run events
    after.stats.candidates = (searches.map fun (s, task) => s.tried task).sum ∧
    after.stats.trials = ((checks searches).map fun (c, task) => c.pairsReached task.train).sum ∧
    after.stats.failures = ((checks searches).countP fun (c, task) => c.failsOn task.train) ∧
    after.stats.failures ≤ after.stats.trials ∧
    after.stats.solved + (searches.countP fun (s, task) => s.answersBySeed task) = after.verified.size ∧
    after.stats.solved ≤ after.stats.candidates := by
  intro searches after
  obtain ⟨hstats, hsize⟩ := run_accounts (new variant) events
  have hzero : after.stats = accounts searches := hstats.trans (zero_add _)
  have hbounded := bounded_accounts searches
  rw [hzero]
  refine ⟨rfl, rfl, rfl, hbounded.failures_le, ?_, hbounded.solved_le⟩
  exact (hsize.trans (by rw [Nat.add_assoc]; exact Nat.zero_add _)).symm

/-- A stale seed and a bounded search of `a`, a search of `b` and a later lookup, and a seed that fails on `c`. -/
example :
    let even : TrainingPair :=
      ⟨⟨1, 1, #[1], by decide, by decide, rfl⟩, ⟨1, 2, #[1, 1], by decide, by decide, rfl⟩⟩
    let mirrored : TrainingPair :=
      ⟨⟨1, 2, #[1, 0], by decide, by decide, rfl⟩, ⟨1, 4, #[0, 1, 0, 1], by decide, by decide, rfl⟩⟩
    let a : Task := { train := [even, mirrored], test := [], id := "a" }
    let b : Task := { train := [even], test := [], id := "b" }
    let c : Task := { train := [even], test := [], id := "c" }
    let seeds : Solutions := (Register.empty.insert "a" ⟨.identity, .identity, .always⟩).insert "c"
      ⟨.cropOuter 1, .identity, .always⟩
    ((new .standard).run [.seed seeds, .budget ⟨some 3, none⟩, .search a, .search b, .search c, .search b]).stats =
      ⟨3 + 1 + 1, (2 + 2 + 1 + 2) + 1 + (1 + 1), 1, 2⟩ := by
  decide +kernel

end Session
end Mosaic

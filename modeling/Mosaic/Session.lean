import Mosaic.Enumeration
import Mosaic.Grid.Tally
import Mosaic.Scaling
import Mosaic.Search.Budget
import Mosaic.Search.Check
import Mosaic.Solutions

/-!
# Sessions

A session solves tasks one after the other and keeps what it found. A task is looked up by its id:
among the verified solutions, which are final; then among the seeds, entries of an earlier session,
which become verified if they reproduce every training pair and are dropped if not; then by trying
the candidates of the catalog in order, as far as the budget allows.
-/

namespace Mosaic

namespace TrainingPair

/-- Input and output have equally many colors besides the background. -/
def sameFigureCount (pair : TrainingPair) : Bool :=
  match pair.input.tally, pair.output.tally with
  | .ok a, .ok b => a.figureCount == b.figureCount
  | _, _ => false

end TrainingPair

namespace Task

/-- The task is worth a search: some shape changes, every output is a whole multiple of its input, no
pair changes the number of colors, and scaling alone does not solve it. -/
def isTiling (t : Task) : Bool :=
  !t.train.isEmpty && !t.keepsShape && t.isMultiple && t.train.all (·.sameFigureCount) &&
    !Scaling.solves t

end Task

structure Session where
  catalog : Catalog
  budget : Budget
  /-- Solutions that reproduce every training pair of their task. -/
  verified : Solutions
  /-- Solutions of an earlier session that have not been looked up. -/
  seeds : Solutions
  stats : Stats

namespace Session

/-- A session without a budget that knows nothing yet. -/
def new (variant : CatalogVariant) : Session where
  catalog := .ofVariant variant
  budget := .unlimited
  verified := .empty
  seeds := .empty
  stats := .zero

def withBudget (s : Session) (budget : Budget) : Session := { s with budget }

/-- The session with more seeds; an id that is seeded keeps its seed. -/
def withSeeds (s : Session) (seeds : Solutions) : Session := { s with seeds := s.seeds.merge seeds }

/-- What is worth saving: the verified solutions, and the seeds of other ids. -/
def snapshot (s : Session) : Solutions := s.verified.merge s.seeds

def solution? (s : Session) (task : Task) : Option Candidate := s.verified.get? task.id

/-- Candidates from `e` on are tried against `pairs`, at most `todo` of them; `evaluated` were tried
before. -/
def tryFrom (budget : Budget) (pairs : List TrainingPair) :
    (todo : Nat) → (e : Enumeration) → (evaluated : Nat) → Stats → Outcome × Stats
  | 0, _, evaluated, stats => (.exhausted evaluated, stats)
  | todo + 1, e, evaluated, stats =>
    match e.next? with
    | none => (.exhausted evaluated, stats)
    | some (c, rest) =>
      if budget.spent evaluated then (.budgetExceeded evaluated, stats)
      else
        let check := c.check pairs
        let stats := { stats.addCheck check with candidates := stats.candidates + 1 }
        if check.valid then (.solved c, { stats with solved := stats.solved + 1 })
        else tryFrom budget pairs todo rest (evaluated + 1) stats

/-- The candidates of the catalog are tried in order, up to the first valid one. -/
def enumerate (s : Session) (task : Task) : Outcome × Session :=
  let e := s.catalog.enumeration
  match tryFrom s.budget task.train e.remaining e 0 s.stats with
  | (.solved c, stats) => (.solved c, { s with stats, verified := s.verified.insert task.id c })
  | (outcome, stats) => (outcome, { s with stats })

/-- The first candidate found that reproduces every training pair of the task. -/
def search (s : Session) (task : Task) : Outcome × Session :=
  match s.verified.get? task.id with
  | some c => (.solved c, s)
  | none =>
    match s.seeds.get? task.id with
    | none => s.enumerate task
    | some c =>
      let check := c.check task.train
      let s := { s with seeds := s.seeds.erase task.id, stats := s.stats.addCheck check }
      if check.valid then (.solved c, { s with verified := s.verified.insert task.id c })
      else s.enumerate task

/-- A search, told only by whether the task is solved. -/
def solve (s : Session) (task : Task) : Bool × Session :=
  let (outcome, s) := s.search task
  (outcome.isSolved, s)

end Session

namespace Subject

/-- The canvas for a subject: the known output of a training input, otherwise background sized by the
ratio of the task. -/
def canvas {task : Task} (subject : Subject task) : Except TrialFailure Canvas :=
  match subject.reference? with
  | some g => .ok (.reference g)
  | none =>
    match task.outputRatio? with
    | some (a, b) => .ok (.scaled a b)
    | none => .error .missingShapeRatio

end Subject

namespace Session

/-- The output that the task's solution makes of a subject. -/
def apply (s : Session) (task : Task) (subject : Subject task) : Except ApplyError Grid :=
  match s.solution? task with
  | none => .error (.notSolved task.id)
  | some c =>
    match subject.canvas with
    | .error failure => .error (.trial failure)
    | .ok canvas =>
      match c.run subject.grid canvas with
      | .error failure => .error (.trial failure)
      | .ok output => .ok output

end Session
end Mosaic

import Mosaic.Json.Search
import Mosaic.Json.Task
import Mosaic.Strategy

/-!
# Reports

What the solve command says of a task: how it ended, the solution if there is one, and an output for
each test input of a solved task. The reports of a run are listed by the ids of the tasks; a task that
comes again replaces the report before.
-/

namespace Mosaic

structure TaskReport where
  outcome : String
  candidate : Option Candidate
  /-- `none` where the solution fails on the test input. -/
  predictions : List (Option Grid)
deriving DecidableEq

namespace TaskReport

/-- The report on a task that is not searched. -/
def rejected : TaskReport := ⟨"rejected", none, []⟩

def toJson (r : TaskReport) : Json :=
  let candidate := match r.candidate with
    | none => []
    | some c => [("candidate", JsonForm.toJson c)]
  .obj ([("outcome", .str r.outcome)] ++ candidate ++
    [("predictions", JsonForm.toJson r.predictions)])

end TaskReport

abbrev Reports := Register TaskReport

namespace Reports

def toJson (r : Reports) : Json := .obj (r.entries.map fun e => (e.1, e.2.toJson))

end Reports

namespace Session

/-- The report on a task, which is searched if it is worth it. -/
def report (s : Session) (task : Task) : TaskReport × Session :=
  if task.isTiling then
    let (outcome, s) := s.search task
    let predictions := match outcome with
      | .solved _ => (Strategy.tiling.predict s task).map Except.toOption
      | .exhausted _ | .budgetExceeded _ => []
    (⟨outcome.text, s.solution? task, predictions⟩, s)
  else (.rejected, s)

end Session
end Mosaic

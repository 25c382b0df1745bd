import Mosaic.Command.Report
import Mosaic.Command.Settings

/-!
# Commands

The commands as programs over a workspace. A command stops at its first failure; what it printed and
wrote before stays. When the searches of a command find their time limit reached is told from outside.
-/

namespace Mosaic

inductive CommandFailure
  | readTask (path : Path)
  | parseTask (path : Path)
  | create (path : Path)
  | write (path : Path)
deriving DecidableEq, Repr

namespace CommandFailure

def message : CommandFailure → String
  | readTask path => s!"failed to read task file {path.text}"
  | parseTask path => s!"failed to parse task file {path.text}"
  | create path => s!"failed to create {path.text}"
  | write path => s!"failed to write {path.text}"

end CommandFailure

namespace Command

variable {m : Type → Type} [Monad m] [Workspace m]

/-- The task of a file. Its id is the file's name without extension. -/
def loadTask (path : Path) : ExceptT CommandFailure m Task := do
  match ← Workspace.readText? (m := m) path with
  | none => throw (.readTask path)
  | some text =>
    match Json.decode Examples text with
    | .error _ => throw (.parseTask path)
    | .ok examples => return { examples with id := path.stem?.getD path.text }

/-- The solutions of a file; none if it cannot be read or does not hold any. -/
def loadSolutions (path : Path) : m Solutions := do
  match ← Workspace.readText? path with
  | none => return .empty
  | some text => return (Json.decode Solutions text).toOption.getD .empty

/-- Writes a file, in a directory that is made if need be. -/
def save (path : Path) (text : String) : ExceptT CommandFailure m Unit := do
  if let some parent := path.parent? then
    unless ← Workspace.makeDirectories (m := m) parent do throw (.create parent)
  unless ← Workspace.writeText (m := m) path text do throw (.write path)

/-- Prints for each task whether it is worth a search. -/
def detectTasks (settings : Settings) (tasks : List Path) : ExceptT CommandFailure m Unit := do
  for path in tasks do
    let task ← loadTask (← settings.layout.resolve (m := m) path)
    let verdict := if task.isTiling then "accepted" else "rejected"
    Workspace.print (m := m) s!"{task.id}\t{verdict}\n"

/-- The reports on tasks, one session solving them in order. -/
def reportAll (settings : Settings) :
    Stops → List Path → Session → Reports → ExceptT CommandFailure m (Session × Reports)
  | _, [], session, reports => return (session, reports)
  | stops, path :: rest, session, reports => do
    let task ← loadTask (← settings.layout.resolve (m := m) path)
    let (report, session) := (session.withBudget (settings.budget.within (stops 0))).report task
    reportAll settings stops.tail rest session (reports.replace task.id report)

/-- Saves the solutions, and writes or prints the reports. -/
def publish (settings : Settings) (output : Option Path) (session : Session) (reports : Reports) :
    ExceptT CommandFailure m Unit := do
  if let some path := settings.cacheFile then
    save path (toJson session.snapshot).indentedText
  let text := reports.toJson.indentedText
  match output with
  | some path => save path text
  | none => Workspace.print (m := m) (text ++ "\n")

/-- Solves tasks, knowing the solutions of the file for them, and publishes what comes of it. -/
def solveTasks (settings : Settings) (stops : Stops) (tasks : List Path) (output : Option Path) :
    ExceptT CommandFailure m Unit := do
  let seeds ← match settings.cacheFile with
    | some path => loadSolutions (m := m) path
    | none => pure .empty
  let session := ((Session.new settings.catalog).withBudget settings.budget).withSeeds seeds
  let (session, reports) ← reportAll settings stops tasks session .empty
  publish settings output session reports

/-- One line on the size of a catalog. -/
def catalogLine (catalog : Catalog) : String :=
  s!"{catalog.variant.text}: {catalog.preprocess.length} preprocess, " ++
    s!"{catalog.transform.length} transform, {catalog.query.length} query entries; " ++
    s!"{catalog.candidateCount} candidates\n"

def run (settings : Settings) (stops : Stops) : Command → ExceptT CommandFailure m Unit
  | .detect tasks => detectTasks settings tasks
  | .solve tasks output submit =>
    solveTasks settings stops tasks
      (if submit then some (settings.layout.outputDir.join ⟨"predictions.json"⟩) else output)
  | .catalog => do
    Workspace.print (m := m) (catalogLine (.ofVariant .standard))
    Workspace.print (m := m) (catalogLine (.ofVariant .legacy))

end Command
end Mosaic

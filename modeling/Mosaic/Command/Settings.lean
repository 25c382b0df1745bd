import Mosaic.Command.Arguments
import Mosaic.Workspace.Basic

/-!
# Settings

What a command runs with: the surroundings, told by two environment variables, and over them what the
command line gives.
-/

namespace Mosaic

inductive Environment
  | development
  | production
deriving DecidableEq, Repr

namespace Environment

def ofVariable? : Option String → Environment
  | some "production" => production
  | some "prod" => production
  | _ => development

/-- The least weight of a message that is logged. -/
def logLevel : Environment → String
  | development => "warn"
  | production => "error"

end Environment

/-- Where task files are looked for and where reports go. -/
structure Layout where
  dataDir : Path
  outputDir : Path
deriving DecidableEq, Repr

namespace Layout

/-- The directories of the competition, or local ones. -/
def ofKernel (inKernel : Bool) : Layout :=
  if inKernel then ⟨⟨"../input/abstraction-and-reasoning-challenge/"⟩, ⟨"./"⟩⟩
  else ⟨⟨"./input"⟩, ⟨"./submission"⟩⟩

/-- A path that leads somewhere, or an absolute one, is taken as it is; any other is looked up in the
data directory. -/
def resolve {m : Type → Type} [Monad m] [Workspace m] (layout : Layout) (p : Path) : m Path := do
  if (← Workspace.present p) || p.isAbsolute then return p else return layout.dataDir.join p

end Layout

structure Settings where
  environment : Environment
  layout : Layout
  catalog : CatalogVariant
  budget : Budget
  /-- Where solutions are kept between runs, if they are. -/
  cacheFile : Option Path
deriving DecidableEq, Repr

namespace Settings

/-- The file of solutions in a directory for caches. -/
def cacheFileIn (dir : Path) : Path := (dir.join ⟨"tessellate"⟩).join ⟨"solutions.json"⟩

/-- The names of the environment variables that count. -/
def variableNames : List String := ["TESSELLATE_ENV", "KAGGLE_KERNEL_RUN_TYPE"]

/-- The settings that the environment variables make. -/
def detect (env : String → Option String) (cacheFile : Option Path) : Settings where
  environment := .ofVariable? (env "TESSELLATE_ENV")
  layout := .ofKernel (env "KAGGLE_KERNEL_RUN_TYPE").isSome
  catalog := .standard
  budget := .unlimited
  cacheFile

/-- The settings with what the command line gives. -/
def withArguments (s : Settings) (args : Arguments) : Settings :=
  { s with
    catalog := args.catalog.getD s.catalog
    budget := {
      maxCandidates := args.maxCandidates.or s.budget.maxCandidates
      timeLimit := args.timeLimit.or s.budget.timeLimit }
    cacheFile := if args.noPersist then none else args.cacheFile.or s.cacheFile }

end Settings
end Mosaic

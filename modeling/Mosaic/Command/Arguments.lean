import Mosaic.Catalog
import Mosaic.Seconds
import Mosaic.Workspace.Path

/-!
# Command-line arguments

The words of a command line are read in two scopes: those before the command, and those after it.
Options may stand in either scope and take their value from the next word, after an equals sign, or
right after their letter. Within a scope an option with a value, or a switch, may be given once; what
both scopes give counts as the command's scope has it. The value of an option is examined only when
the next option or the end of its scope is reached.
-/

namespace Mosaic

/-- Why a command line is not carried out. -/
inductive UsageError
  | missingRequiredArgument
  | unknownArgument
  | invalidSubcommand
  | missingSubcommand
  | invalidValue
  /-- The value is no number of the kind wanted. -/
  | valueValidation
  | argumentConflict
  | tooManyValues
  | displayHelp
  | displayVersion
  /-- There is nothing on the line. -/
  | displayHelpOnMissing
deriving DecidableEq, Repr

inductive Command
  | detect (tasks : List Path)
  /-- With `submit` the report goes to the output directory. -/
  | solve (tasks : List Path) (output : Option Path) (submit : Bool)
  | catalog
deriving DecidableEq, Repr

structure Arguments where
  verbose : Nat
  catalog : Option CatalogVariant
  maxCandidates : Option Nat
  timeLimit : Option Duration
  cacheFile : Option Path
  noPersist : Bool
  command : Command
deriving DecidableEq, Repr

namespace Arguments

inductive Flag
  | verbose
  | catalog
  | maxCandidates
  | timeLimit
  | cacheFile
  | noPersist
  | output
  | submit
  | help
  | version
deriving DecidableEq, Repr

/-- The part of the line before the command, or that of a command. -/
inductive Scope
  | line
  | detect
  | solve
  | catalog
deriving DecidableEq, Repr

namespace Flag

def takesValue : Flag → Bool
  | catalog | maxCandidates | timeLimit | cacheFile | output => true
  | verbose | noPersist | submit | help | version => false

def ofLetter? : Char → Option Flag
  | 'v' => some verbose
  | 'o' => some output
  | 'h' => some help
  | 'V' => some version
  | _ => none

def ofWord? : String → Option Flag
  | "verbose" => some verbose
  | "catalog" => some catalog
  | "max-candidates" => some maxCandidates
  | "time-limit" => some timeLimit
  | "cache-file" => some cacheFile
  | "no-persist" => some noPersist
  | "output" => some output
  | "submit" => some submit
  | "help" => some help
  | "version" => some version
  | _ => none

def allowedIn : Flag → Scope → Bool
  | output, scope | submit, scope => scope = .solve
  | version, scope => scope = .line
  | _, _ => true

end Flag

namespace Scope

def ofCommand? : String → Option Scope
  | "detect" => some detect
  | "solve" => some solve
  | "catalog" => some catalog
  | _ => none

def takesTasks : Scope → Bool
  | detect | solve => true
  | line | catalog => false

end Scope

/-- What one scope has given. -/
structure Given where
  verbose : Nat
  catalog : Option CatalogVariant
  maxCandidates : Option Nat
  timeLimit : Option Duration
  cacheFile : Option Path
  noPersist : Bool
  output : Option Path
  submit : Bool
  tasks : List Path
deriving DecidableEq

/-- Words that have been read but not examined. -/
inductive Pending
  | nothing
  /-- The next word is the value of the option. -/
  | awaited (flag : Flag)
  | value (flag : Flag) (word : String)
  | tasks (words : List String)

structure State where
  given : Given
  pending : Pending
  /-- Two dashes stood alone; all that follows are tasks. -/
  trailing : Bool

namespace State

def start : State := ⟨⟨0, none, none, none, none, false, none, false, []⟩, .nothing, false⟩

end State

/-! ### Values -/

def pathValue (word : String) : Except UsageError Path :=
  if word.isEmpty then .error .invalidValue else .ok ⟨word⟩

def catalogValue : String → Except UsageError CatalogVariant
  | "standard" => .ok .standard
  | "legacy" => .ok .legacy
  | _ => .error .invalidValue

/-- Decimal digits, perhaps after a plus, of a number with at most 64 bits. -/
def countValue (word : String) : Except UsageError Nat :=
  let digits := match word.toList with
    | '+' :: cs => cs
    | cs => cs
  let n := Nat.ofDigitChars 10 digits 0
  if !digits.isEmpty && digits.all Char.isDigit && n < wordLimit then .ok n
  else .error .valueValidation

def secondsValue (word : String) : Except UsageError Duration :=
  match Seconds.parse word with
  | .ok d => .ok d
  | .error _ => .error .valueValidation

/-- A value for an option that has none yet. -/
def onlyOnce {α : Type} (before : Option α) (value : Except UsageError α) :
    Except UsageError (Option α) :=
  if before.isSome then .error .argumentConflict else some <$> value

namespace Given

def assign (g : Given) (flag : Flag) (word : String) : Except UsageError Given := do
  match flag with
  | .catalog => return { g with catalog := ← onlyOnce g.catalog (catalogValue word) }
  | .maxCandidates => return { g with maxCandidates := ← onlyOnce g.maxCandidates (countValue word) }
  | .timeLimit => return { g with timeLimit := ← onlyOnce g.timeLimit (secondsValue word) }
  | .cacheFile => return { g with cacheFile := ← onlyOnce g.cacheFile (pathValue word) }
  | .output => return { g with output := ← onlyOnce g.output (pathValue word) }
  | .verbose | .noPersist | .submit | .help | .version => return g

/-- A switch, which has no value. The count of `verbose` stops at the greatest byte. -/
def switch (g : Given) : Flag → Except UsageError Given
  | .verbose => .ok { g with verbose := min (g.verbose + 1) 255 }
  | .noPersist =>
    if g.noPersist then .error .argumentConflict else .ok { g with noPersist := true }
  | .submit => if g.submit then .error .argumentConflict else .ok { g with submit := true }
  | .help => .error .displayHelp
  | .version => .error .displayVersion
  | .catalog | .maxCandidates | .timeLimit | .cacheFile | .output => .ok g

end Given

/-! ### Words -/

namespace State

/-- The pending words examined. -/
def settle (s : State) : Except UsageError State := do
  match s.pending with
  | .nothing => return s
  | .awaited _ => throw .invalidValue
  | .value flag word => return { s with given := ← s.given.assign flag word, pending := .nothing }
  | .tasks words =>
    let paths ← words.mapM pathValue
    return { s with given := { s.given with tasks := s.given.tasks ++ paths }, pending := .nothing }

/-- An option with the value that is written with it, or with its value to come. -/
def option (s : State) (flag : Flag) (value : Option String) : Except UsageError State := do
  let s ← s.settle
  match value with
  | none => return { s with pending := .awaited flag }
  | some word => return { s with given := ← s.given.assign flag word }

def switch (s : State) (flag : Flag) : Except UsageError State := do
  let s ← s.settle
  return { s with given := ← s.given.switch flag }

/-- The letters after a single dash. -/
def letters (scope : Scope) (s : State) : List Char → Except UsageError State
  | [] => .ok s
  | c :: rest =>
    match (Flag.ofLetter? c).filter (·.allowedIn scope) with
    | none => .error .unknownArgument
    | some flag =>
      if flag.takesValue then
        match rest with
        | [] => s.option flag none
        | '=' :: value => s.option flag (some (String.ofList value))
        | value => s.option flag (some (String.ofList value))
      else do letters scope (← s.switch flag) rest

/-- The word after two dashes, up to an equals sign, and the value after it. -/
def splitValue (cs : List Char) : String × Option String :=
  let name := String.ofList (cs.takeWhile (· ≠ '='))
  match cs.dropWhile (· ≠ '=') with
  | [] => (name, none)
  | _ :: value => (name, some (String.ofList value))

def word (scope : Scope) (s : State) (cs : List Char) : Except UsageError State :=
  let (name, value) := splitValue cs
  match (Flag.ofWord? name).filter (·.allowedIn scope) with
  | none => .error .unknownArgument
  | some flag =>
    if flag.takesValue then s.option flag value
    else if value.isSome then .error .tooManyValues
    else s.switch flag

/-- A word that is no option. -/
def task (scope : Scope) (s : State) (word : String) : Except UsageError State :=
  if scope.takesTasks then
    match s.pending with
    | .tasks words => .ok { s with pending := .tasks (words ++ [word]) }
    | _ => do return { ← s.settle with pending := .tasks [word] }
  else if scope = .line && !(s.trailing && ((Scope.ofCommand? word).isSome || word = "help")) then
    .error .invalidSubcommand
  else .error .unknownArgument

/-- The next word of a scope. -/
def read (scope : Scope) (s : State) (text : String) : Except UsageError State :=
  if s.trailing then s.task scope text
  else
    match text.toList, s.pending with
    | ['-', '-'], _ => .ok { s with trailing := true }
    | '-' :: '-' :: cs, _ => s.word scope cs
    | '-' :: c :: cs, _ => s.letters scope (c :: cs)
    | _, .awaited flag => .ok { s with pending := .value flag text }
    | _, _ => s.task scope text

/-- All words of a command. -/
def readAll (scope : Scope) : State → List String → Except UsageError State
  | s, [] => s.settle
  | s, text :: rest => do readAll scope (← s.read scope text) rest

/-- The state is ready for the name of a command. -/
def expectsCommand (s : State) : Bool :=
  !s.trailing &&
    match s.pending with
    | .awaited _ => false
    | _ => true

end State

/-! ### Lines -/

/-- The help for a command is asked for by its name. -/
def helpFor : List String → UsageError
  | [] => .displayHelp
  | [topic] =>
    if (Scope.ofCommand? topic).isSome || topic = "help" then .displayHelp else .invalidSubcommand
  | _ => .invalidSubcommand

/-- The command that its scope gives. -/
def commandOf (scope : Scope) (g : Given) : Except UsageError Command :=
  match scope with
  | .detect => if g.tasks.isEmpty then .error .missingRequiredArgument else .ok (.detect g.tasks)
  | .solve =>
    if g.submit && g.output.isSome then .error .argumentConflict
    else if g.tasks.isEmpty then .error .missingRequiredArgument
    else .ok (.solve g.tasks g.output g.submit)
  | .line | .catalog => .ok .catalog

/-- What the scope of the command gives, completed by what stands before it. -/
def merge (outer inner : Given) (command : Command) : Arguments where
  verbose := if inner.verbose = 0 then outer.verbose else inner.verbose
  catalog := inner.catalog.or outer.catalog
  maxCandidates := inner.maxCandidates.or outer.maxCandidates
  timeLimit := inner.timeLimit.or outer.timeLimit
  cacheFile := inner.cacheFile.or outer.cacheFile
  noPersist := inner.noPersist || outer.noPersist
  command

/-- The words before the command and the command after them. What stands before is examined last. -/
def readLine : State → List String → Except UsageError Arguments
  | s, [] => do
    let s ← s.settle
    if s.given = State.start.given then throw .displayHelpOnMissing else throw .missingSubcommand
  | s, text :: rest =>
    if s.expectsCommand && text = "help" then .error (helpFor rest)
    else
      match (Scope.ofCommand? text).filter fun _ => s.expectsCommand with
      | some scope => do
        let inner ← State.readAll scope State.start rest
        let command ← commandOf scope inner.given
        let outer ← s.settle
        return merge outer.given inner.given command
      | none => do readLine (← s.read .line text) rest

def parse (words : List String) : Except UsageError Arguments := readLine State.start words

end Arguments
end Mosaic

import Mosaic.Json.Candidate
import Mosaic.Search.Budget
import Mosaic.Search.Outcome
import Mosaic.Solutions

/-!
# Solutions, budgets and figures as JSON

Solutions are an object from ids to candidates; of an id that is repeated the last entry counts. Counts
and seconds have 64 bits. A duration has no fields but its two, and nanoseconds beyond a billion carry
into the seconds.
-/

namespace Mosaic

namespace Register

variable {α : Type} [JsonForm α]

/-- The entries of an object, in order of appearance. -/
def readEntries : List (Option String × Scan) → Decoded (List (String × α))
  | [] => .ok []
  | (none, _) :: _ => .error .malformed
  | (some id, value) :: rest => do
    let a ← JsonForm.ofScan value
    let entries ← readEntries rest
    return (id, a) :: entries

instance : JsonForm (Register α) where
  toJson r := .obj (r.entries.map fun e => (e.1, toJson e.2))
  ofScan
    | .obj members => ofList <$> readEntries members
    | _ => .error .malformed

end Register

namespace Duration

/-- The parts of a duration while it is read. -/
structure Draft where
  seconds : Option Nat
  nanos : Option Nat

def fields : Scan.Fields Draft
  | "secs" =>
    some (Scan.once (·.seconds) (Scan.natBelow wordLimit) fun a d => { d with seconds := some a })
  | "nanos" =>
    some (Scan.once (·.nanos) (Scan.natBelow nanosLimit) fun a d => { d with nanos := some a })
  | _ => some fun _ _ => .error .malformed

/-- The duration, if its seconds with the carry stay below the bound. -/
def ofParts (seconds nanos : Nat) : Decoded Duration :=
  let d := ofNanos seconds nanos
  if d.seconds < wordLimit then .ok d else .error .malformed

instance : JsonForm Duration where
  toJson d := .obj [("secs", .int d.seconds), ("nanos", .int d.nanos)]
  ofScan
    | .obj members => do
      let draft ← Scan.readMembers fields members ⟨none, none⟩
      ofParts (← Scan.required draft.seconds) (← Scan.required draft.nanos)
    | .arr items => do
      let (seconds, rest) ← Scan.element (Scan.natBelow wordLimit) items
      let (nanos, rest) ← Scan.element (Scan.natBelow nanosLimit) rest
      Scan.complete (← ofParts seconds nanos) rest
    | _ => .error .malformed

end Duration

namespace Budget

/-- The limits of a budget while it is read. -/
structure Draft where
  maxCandidates : Option (Option Nat)
  timeLimit : Option (Option Duration)

/-- A count, or none. -/
def limitOfScan : Scan → Decoded (Option Nat) := Scan.asOption (Scan.natBelow wordLimit)

def fields : Scan.Fields Draft
  | "max_candidates" =>
    some (Scan.once (·.maxCandidates) limitOfScan fun a d => { d with maxCandidates := some a })
  | "time_limit" =>
    some (Scan.once (·.timeLimit) JsonForm.ofScan fun a d => { d with timeLimit := some a })
  | _ => none

instance : JsonForm Budget where
  toJson b := .obj [
    ("max_candidates", match b.maxCandidates with | none => .null | some n => .int n),
    ("time_limit", toJson b.timeLimit)]
  ofScan
    | .obj members => do
      let draft ← Scan.readMembers fields members ⟨none, none⟩
      return {
        maxCandidates := draft.maxCandidates.getD none
        timeLimit := draft.timeLimit.getD none }
    | .arr items => do
      let (maxCandidates, rest) ← Scan.element limitOfScan items
      let (timeLimit, rest) ← Scan.element JsonForm.ofScan rest
      Scan.complete { maxCandidates, timeLimit } rest
    | _ => .error .malformed

end Budget

namespace Stats

/-- The figures while they are read. -/
structure Draft where
  candidates : Option Nat
  trials : Option Nat
  failures : Option Nat
  solved : Option Nat

def countOfScan : Scan → Decoded Nat := Scan.natBelow wordLimit

def fields : Scan.Fields Draft
  | "candidates" =>
    some (Scan.once (·.candidates) countOfScan fun a d => { d with candidates := some a })
  | "trials" => some (Scan.once (·.trials) countOfScan fun a d => { d with trials := some a })
  | "failures" => some (Scan.once (·.failures) countOfScan fun a d => { d with failures := some a })
  | "solved" => some (Scan.once (·.solved) countOfScan fun a d => { d with solved := some a })
  | _ => none

instance : JsonForm Stats where
  toJson s := .obj [("candidates", .int s.candidates), ("trials", .int s.trials),
    ("failures", .int s.failures), ("solved", .int s.solved)]
  ofScan
    | .obj members => do
      let draft ← Scan.readMembers fields members ⟨none, none, none, none⟩
      return {
        candidates := ← Scan.required draft.candidates
        trials := ← Scan.required draft.trials
        failures := ← Scan.required draft.failures
        solved := ← Scan.required draft.solved }
    | .arr items => do
      let (candidates, rest) ← Scan.element countOfScan items
      let (trials, rest) ← Scan.element countOfScan rest
      let (failures, rest) ← Scan.element countOfScan rest
      let (solved, rest) ← Scan.element countOfScan rest
      Scan.complete { candidates, trials, failures, solved } rest
    | _ => .error .malformed

end Stats
end Mosaic

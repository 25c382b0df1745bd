import Mosaic.Search.Outcome
import Mosaic.Task
import Mosaic.Trial

/-!
# Checks

A candidate is checked against training pairs in order, up to the first one that it does not
reproduce. A trial that fails counts as a wrong answer.
-/

namespace Mosaic

/-- The result of checking one candidate. -/
structure Check where
  /-- Every pair was reproduced. -/
  valid : Bool
  trials : Nat
  failures : Nat
deriving DecidableEq, Repr

namespace Candidate

/-- The candidate makes the output of the input, from a canvas that holds it. -/
def Reproduces (c : Candidate) (pair : TrainingPair) : Prop :=
  c.run pair.input (.reference pair.output) = .ok pair.output

def check (c : Candidate) : List TrainingPair → Check
  | [] => ⟨true, 0, 0⟩
  | pair :: rest =>
    match c.run pair.input (.reference pair.output) with
    | .error _ => ⟨false, 1, 1⟩
    | .ok output =>
      if output = pair.output then
        let later := c.check rest
        { later with trials := later.trials + 1 }
      else ⟨false, 1, 0⟩

end Candidate

namespace Stats

/-- The figures with the trials of a check added. -/
def addCheck (s : Stats) (k : Check) : Stats :=
  { s with trials := s.trials + k.trials, failures := s.failures + k.failures }

end Stats
end Mosaic

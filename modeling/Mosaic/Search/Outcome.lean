import Mosaic.Candidate

/-!
# Outcomes and figures of searches
-/

namespace Mosaic

/-- How a search ended. -/
inductive Outcome
  /-- The candidate reproduces every training pair. -/
  | solved (candidate : Candidate)
  /-- No candidate does; so many were tried. -/
  | exhausted (evaluated : Nat)
  /-- The budget ran out after so many candidates. -/
  | budgetExceeded (evaluated : Nat)
deriving DecidableEq, Repr

namespace Outcome

def isSolved : Outcome → Bool
  | solved _ => true
  | exhausted _ | budgetExceeded _ => false

def text : Outcome → String
  | solved c => s!"solved by {c.text}"
  | exhausted n => s!"unsolved after {n} candidates"
  | budgetExceeded n => s!"budget exceeded after {n} candidates"

end Outcome

/-- What the searches of a session have done so far. -/
structure Stats where
  /-- Candidates tried by enumeration. -/
  candidates : Nat
  /-- Trials run, one for every candidate and training pair reached. -/
  trials : Nat
  /-- Trials that ended in a failure. -/
  failures : Nat
  /-- Tasks solved by enumeration. -/
  solved : Nat
deriving DecidableEq, Repr

namespace Stats

def zero : Stats := ⟨0, 0, 0, 0⟩

end Stats
end Mosaic

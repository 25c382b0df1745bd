import Mosaic.Words

/-!
# Budgets

The limits of one search. Time is not measured here: a limit of zero has run out at once, and any other is
reached where a search is said to find it so (`Budget.within`).
-/

namespace Mosaic

/-- The bound of nanoseconds as they are written, two to the power 32. -/
def nanosLimit : Nat := 4294967296

/-- A length of time, in whole seconds and nanoseconds. -/
structure Duration where
  seconds : Nat
  nanos : Nat
  nanos_lt : nanos < 1000000000
deriving DecidableEq, Repr

namespace Duration

/-- So many seconds and nanoseconds, a billion of which carry. -/
def ofNanos (seconds nanos : Nat) : Duration :=
  ⟨seconds + nanos / 1000000000, nanos % 1000000000, Nat.mod_lt _ (by decide)⟩

def isZero (d : Duration) : Bool := d.seconds == 0 && d.nanos == 0

end Duration

/-- The limits that are given; without any the search is unlimited. -/
structure Budget where
  maxCandidates : Option Nat
  timeLimit : Option Duration
deriving DecidableEq, Repr

namespace Budget

def unlimited : Budget := ⟨none, none⟩

/-- No further candidate may be tried after `evaluated` of them. -/
def spent (b : Budget) (evaluated : Nat) : Bool :=
  b.maxCandidates.any (· ≤ evaluated) || b.timeLimit.any (·.isZero)

/-- The budget of a search that finds its time limit reached after `stop` candidates, if it has one and finds it
reached at all. -/
def within (b : Budget) (stop : Option Nat) : Budget :=
  if b.timeLimit.isSome then { b with maxCandidates := b.maxCandidates.merge min stop } else b

end Budget

/-- For each search of a run, after how many candidates it finds its time limit reached, if it does. -/
abbrev Stops := Nat → Option Nat

namespace Stops

/-- No time limit is reached. -/
def never : Stops := fun _ => none

def tail (stops : Stops) : Stops := fun n => stops (n + 1)

end Stops
end Mosaic

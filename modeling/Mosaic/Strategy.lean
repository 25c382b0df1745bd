import Mosaic.Session

/-!
# Strategies

A strategy decides whether a task is its own, looks for a rule, and applies the rule to new grids,
carrying a state of some type from task to task.
-/

namespace Mosaic

structure Strategy (σ : Type) where
  name : String
  detect : σ → Task → Bool
  solve : σ → Task → Bool × σ
  apply : σ → (task : Task) → Subject task → Except ApplyError Grid

namespace Strategy

variable {σ : Type}

/-- The outputs for the test inputs of a task, in order. -/
def predict (strategy : Strategy σ) (state : σ) (task : Task) : List (Except ApplyError Grid) :=
  task.test.map fun case => strategy.apply state task (.own case.input)

/-- Scaling, which keeps nothing between tasks. -/
def scaling : Strategy Unit where
  name := "zoom"
  detect _ := Scaling.detects
  solve state task := (Scaling.solves task, state)
  apply _ := Scaling.apply

/-- Tiling by the candidates of a session. -/
def tiling : Strategy Session where
  name := "tessellation"
  detect _ := Task.isTiling
  solve := Session.solve
  apply := Session.apply

end Strategy
end Mosaic

import Mosaic.Task

/-!
# Scaling

The tasks whose outputs are their inputs, scaled pair by pair. A solution scales by the ratio of the
first pair.
-/

namespace Mosaic
namespace Scaling

/-- There are pairs, and each output is its input scaled. -/
def solves (t : Task) : Bool := !t.train.isEmpty && t.train.all (·.isScaled)

/-- The task grows by whole factors. -/
def detects (t : Task) : Bool := !t.train.isEmpty && t.isMultiple && !t.keepsShape

def apply (t : Task) (subject : Subject t) : Except ApplyError Grid :=
  if solves t then
    match t.outputRatio? with
    | none => .error (.trial .missingShapeRatio)
    | some (a, b) =>
      match subject.grid.upscale? a b with
      | none => .error (.trial (.degenerateTileRatio a b))
      | some g => .ok g
  else .error (.notSolved t.id)

end Scaling
end Mosaic

import Mosaic.Color

/-!
# Failures

Why a grid cannot be built, why a trial of a candidate ends without an output, and why a solution
cannot be applied, each with the sentence that reports it.
-/

namespace Mosaic

/-- The first fault met when a grid is built. -/
inductive GridError
  /-- There is no row, or no column. -/
  | emptyShape (rows cols : Nat)
  | raggedRow (row expected found : Nat)
  | colorOutOfRange (row col : Nat) (color : Color)
deriving DecidableEq, Repr

namespace GridError

def message : GridError → String
  | emptyShape rows cols => s!"grid shape {rows}x{cols} is empty"
  | raggedRow row expected found => s!"row {row} has {found} cells, expected {expected}"
  | colorOutOfRange row col color => s!"color {color} at ({row}, {col}) is outside the palette"

end GridError

/-- A shape is a number of rows and a number of columns. -/
abbrev Shape := Nat × Nat

namespace Shape

def text (s : Shape) : String := s!"({s.1}, {s.2})"

end Shape

/-- A fault met while one candidate runs on one grid. -/
inductive TrialFailure
  | grid (error : GridError)
  /-- Preprocessing left no row and no column. -/
  | emptyPreprocess
  /-- The canvas has no room for a tile. -/
  | degenerateTileRatio (rows cols : Nat)
  | tileShapeMismatch (expected found : Shape)
  | blockOutOfBounds (row col : Nat) (shape canvas : Shape)
  /-- A query was asked about a position that the working grid does not have. -/
  | cellOutOfRange (row col : Nat)
  /-- The task has no training pair to size a canvas by. -/
  | missingShapeRatio
  /-- A color figure was asked of a grid that holds a color outside the palette. -/
  | uncountedColor (color : Color)
deriving DecidableEq, Repr

namespace TrialFailure

def message : TrialFailure → String
  | grid error => error.message
  | emptyPreprocess => "preprocessing produced an empty grid"
  | degenerateTileRatio rows cols => s!"tile ratio {rows}x{cols} is degenerate"
  | tileShapeMismatch expected found =>
    s!"tile shape {found.text} does not match block shape {expected.text}"
  | blockOutOfBounds row col shape canvas =>
    s!"block at ({row}, {col}) of shape {shape.text} exceeds canvas {canvas.text}"
  | cellOutOfRange row col => s!"cell ({row}, {col}) is outside the working grid"
  | missingShapeRatio => "task has no training pair to derive an output shape ratio"
  | uncountedColor color => s!"color {color} has no counter"

end TrialFailure

/-- Why a solution gives no output grid. -/
inductive ApplyError
  | notSolved (id : String)
  | trial (failure : TrialFailure)
deriving DecidableEq, Repr

namespace ApplyError

def message : ApplyError → String
  | notSolved id => s!"no solution cached for task '{id}'"
  | trial failure => s!"cached candidate failed: {failure.message}"

end ApplyError
end Mosaic

import Mosaic.Binary64
import Mosaic.Grid.Upscale

/-!
# Tasks

A task shows by training pairs how an output follows from an input, and asks for the outputs of its
test inputs. The ratio of the two shapes of a pair is taken in binary64, axis by axis. What a solution
is applied to is a `Subject`: a training input, known by its position, or a grid of its own. Only a
training input has an output to refer to, however equal a grid may be to it.
-/

namespace Mosaic

structure TrainingPair where
  input : Grid
  output : Grid
deriving DecidableEq, Repr

/-- A test input, with the output where it is known. -/
structure TestCase where
  input : Grid
  output : Option Grid
deriving DecidableEq, Repr

/-- The examples of a task, as a task file holds them. -/
structure Examples where
  train : List TrainingPair
  test : List TestCase
deriving DecidableEq, Repr

/-- The id names the task's solution. -/
structure Task extends Examples where
  id : String
deriving DecidableEq, Repr

namespace TrainingPair

/-- Rows and columns of the output, each divided by the input's. -/
def shapeRatio (pair : TrainingPair) : Binary64 × Binary64 :=
  (.ofRatio pair.output.rows pair.input.rows, .ofRatio pair.output.cols pair.input.cols)

/-- Input and output have one shape. -/
def keepsShape (pair : TrainingPair) : Bool :=
  pair.shapeRatio.1.isOne && pair.shapeRatio.2.isOne

/-- A ratio that is whole and at least one. -/
def isWholeFactor (ratio : Binary64) : Bool := ratio.atLeastOne && ratio.isWhole

/-- The output's rows and columns are whole multiples of the input's. -/
def isMultiple (pair : TrainingPair) : Bool :=
  isWholeFactor pair.shapeRatio.1 && isWholeFactor pair.shapeRatio.2

/-- The output is the input scaled by the ratio of their shapes. -/
def isScaled (pair : TrainingPair) : Bool :=
  let (a, b) := pair.shapeRatio
  a.isWhole && b.isWhole && pair.input.upscale? a.wholePart b.wholePart == some pair.output

end TrainingPair

namespace Task

def shapeRatios (t : Task) : List (Binary64 × Binary64) := t.train.map (·.shapeRatio)

/-- There are pairs, and each keeps its shape. -/
def keepsShape (t : Task) : Bool := !t.train.isEmpty && t.train.all (·.keepsShape)

/-- Every output is a whole multiple of its input along both axes. -/
def isMultiple (t : Task) : Bool := t.train.all (·.isMultiple)

/-- The whole parts of the first pair's ratios, by which outputs that are not known are sized. -/
def outputRatio? (t : Task) : Option (Nat × Nat) :=
  t.train.head?.map fun pair => (pair.shapeRatio.1.wholePart, pair.shapeRatio.2.wholePart)

end Task

/-- What a solution of `task` is applied to. -/
inductive Subject (task : Task)
  | training (index : Fin task.train.length)
  | own (grid : Grid)

namespace Subject

variable {task : Task}

def grid : Subject task → Grid
  | training i => (task.train.get i).input
  | own g => g

/-- The output of a training input. -/
def reference? : Subject task → Option Grid
  | training i => some (task.train.get i).output
  | own _ => none

end Subject
end Mosaic

import Mosaic.Json.Grid
import Mosaic.Task

/-!
# Tasks as JSON

The examples of a task file. The output of a test case may be missing or `null`, and is left out when
it is not known; the test cases of a file may be missing.
-/

namespace Mosaic

namespace TrainingPair

/-- The grids of a pair while it is read. -/
structure Draft where
  input : Option Grid
  output : Option Grid

def fields : Scan.Fields Draft
  | "input" => some (Scan.once (·.input) JsonForm.ofScan fun a d => { d with input := some a })
  | "output" => some (Scan.once (·.output) JsonForm.ofScan fun a d => { d with output := some a })
  | _ => none

instance : JsonForm TrainingPair where
  toJson pair := .obj [("input", toJson pair.input), ("output", toJson pair.output)]
  ofScan
    | .obj members => do
      let draft ← Scan.readMembers fields members ⟨none, none⟩
      return { input := ← Scan.required draft.input, output := ← Scan.required draft.output }
    | .arr items => do
      let (input, rest) ← Scan.element JsonForm.ofScan items
      let (output, rest) ← Scan.element JsonForm.ofScan rest
      Scan.complete { input, output } rest
    | _ => .error .malformed

end TrainingPair

namespace TestCase

/-- The grids of a test case while it is read. -/
structure Draft where
  input : Option Grid
  output : Option (Option Grid)

def fields : Scan.Fields Draft
  | "input" => some (Scan.once (·.input) JsonForm.ofScan fun a d => { d with input := some a })
  | "output" => some (Scan.once (·.output) JsonForm.ofScan fun a d => { d with output := some a })
  | _ => none

instance : JsonForm TestCase where
  toJson case :=
    match case.output with
    | none => .obj [("input", toJson case.input)]
    | some output => .obj [("input", toJson case.input), ("output", toJson output)]
  ofScan
    | .obj members => do
      let draft ← Scan.readMembers fields members ⟨none, none⟩
      return { input := ← Scan.required draft.input, output := draft.output.getD none }
    | .arr items => do
      let (input, rest) ← Scan.element JsonForm.ofScan items
      let (output, rest) ← Scan.elementOr none JsonForm.ofScan rest
      Scan.complete { input, output } rest
    | _ => .error .malformed

end TestCase

namespace Examples

/-- The lists of a task file while it is read. -/
structure Draft where
  train : Option (List TrainingPair)
  test : Option (List TestCase)

def fields : Scan.Fields Draft
  | "train" => some (Scan.once (·.train) JsonForm.ofScan fun a d => { d with train := some a })
  | "test" => some (Scan.once (·.test) JsonForm.ofScan fun a d => { d with test := some a })
  | _ => none

instance : JsonForm Examples where
  toJson e := .obj [("train", toJson e.train), ("test", toJson e.test)]
  ofScan
    | .obj members => do
      let draft ← Scan.readMembers fields members ⟨none, none⟩
      return { train := ← Scan.required draft.train, test := draft.test.getD [] }
    | .arr items => do
      let (train, rest) ← Scan.element JsonForm.ofScan items
      let (test, rest) ← Scan.elementOr [] JsonForm.ofScan rest
      Scan.complete { train, test } rest
    | _ => .error .malformed

end Examples
end Mosaic

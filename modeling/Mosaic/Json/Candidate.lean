import Mosaic.Catalog
import Mosaic.Json.Grid

/-!
# Candidates as JSON

An operation without data is its name, one with data an object with the name as its one member. A
candidate is an object of its three stages.
-/

namespace Mosaic

/-- An alternative with data. -/
def Json.tagged {α : Type} [JsonForm α] (name : String) (data : α) : Json :=
  .obj [(name, toJson data)]

namespace Axis

instance : JsonForm Axis where
  toJson
    | rows => .str "Rows"
    | cols => .str "Cols"
  ofScan value := do
    match ← value.alternative with
    | ("Rows", d) => Scan.noData d; return rows
    | ("Cols", d) => Scan.noData d; return cols
    | _ => throw .malformed

end Axis

namespace CatalogVariant

instance : JsonForm CatalogVariant where
  toJson
    | standard => .str "Standard"
    | legacy => .str "Legacy"
  ofScan value := do
    match ← value.alternative with
    | ("Standard", d) => Scan.noData d; return standard
    | ("Legacy", d) => Scan.noData d; return legacy
    | _ => throw .malformed

end CatalogVariant

namespace Preprocess

instance : JsonForm Preprocess where
  toJson
    | identity => .str "Identity"
    | cropInner t => .tagged "CropInner" t
    | cropOuter t => .tagged "CropOuter" t
  ofScan value := do
    match ← value.alternative with
    | ("Identity", d) => Scan.noData d; return identity
    | ("CropInner", d) => cropInner <$> Scan.data JsonForm.ofScan d
    | ("CropOuter", d) => cropOuter <$> Scan.data JsonForm.ofScan d
    | _ => throw .malformed

end Preprocess

namespace ColorSource

instance : JsonForm ColorSource where
  toJson
    | maxColor => .str "MaxColor"
    | minColor => .str "MinColor"
    | maxColor1d => .str "MaxColor1d"
    | countColors => .str "CountColors"
    | countSquares => .str "CountSquares"
    | fixed color => .tagged "Fixed" color
  ofScan value := do
    match ← value.alternative with
    | ("MaxColor", d) => Scan.noData d; return maxColor
    | ("MinColor", d) => Scan.noData d; return minColor
    | ("MaxColor1d", d) => Scan.noData d; return maxColor1d
    | ("CountColors", d) => Scan.noData d; return countColors
    | ("CountSquares", d) => Scan.noData d; return countSquares
    | ("Fixed", d) => fixed <$> Scan.data JsonForm.ofScan d
    | _ => throw .malformed

end ColorSource

namespace Transform

/-- The fields of a roll while it is read. -/
structure RollDraft where
  shift : Option Int8
  axis : Option Axis

def rollFields : Scan.Fields RollDraft
  | "shift" => some (Scan.once (·.shift) JsonForm.ofScan fun a d => { d with shift := some a })
  | "axis" => some (Scan.once (·.axis) JsonForm.ofScan fun a d => { d with axis := some a })
  | _ => none

def rollOfScan : Scan → Decoded Transform
  | .obj members => do
    let draft ← Scan.readMembers rollFields members ⟨none, none⟩
    return roll (← Scan.required draft.shift) (← Scan.required draft.axis)
  | .arr items => do
    let (shift, rest) ← Scan.element JsonForm.ofScan items
    let (axis, rest) ← Scan.element JsonForm.ofScan rest
    Scan.complete (roll shift axis) rest
  | _ => .error .malformed

instance : JsonForm Transform where
  toJson
    | identity => .str "Identity"
    | flip axis => .tagged "Flip" axis
    | rot90 k => .tagged "Rot90" k
    | roll shift axis => .obj [("Roll", .obj [("shift", toJson shift), ("axis", toJson axis)])]
    | swapAxes => .str "SwapAxes"
    | rotateLoop s => .tagged "RotateLoop" s
    | rotateLoopRows s => .tagged "RotateLoopRows" s
    | rotateLoopCols s => .tagged "RotateLoopCols" s
    | flipLoop s => .tagged "FlipLoop" s
    | flipLoopRows s => .tagged "FlipLoopRows" s
    | flipLoopCols s => .tagged "FlipLoopCols" s
    | invertColor => .str "InvertColor"
    | invert source => .tagged "Invert" source
  ofScan value := do
    match ← value.alternative with
    | ("Identity", d) => Scan.noData d; return identity
    | ("Flip", d) => flip <$> Scan.data JsonForm.ofScan d
    | ("Rot90", d) => rot90 <$> Scan.data JsonForm.ofScan d
    | ("Roll", d) => Scan.data rollOfScan d
    | ("SwapAxes", d) => Scan.noData d; return swapAxes
    | ("RotateLoop", d) => rotateLoop <$> Scan.data JsonForm.ofScan d
    | ("RotateLoopRows", d) => rotateLoopRows <$> Scan.data JsonForm.ofScan d
    | ("RotateLoopCols", d) => rotateLoopCols <$> Scan.data JsonForm.ofScan d
    | ("FlipLoop", d) => flipLoop <$> Scan.data JsonForm.ofScan d
    | ("FlipLoopRows", d) => flipLoopRows <$> Scan.data JsonForm.ofScan d
    | ("FlipLoopCols", d) => flipLoopCols <$> Scan.data JsonForm.ofScan d
    | ("InvertColor", d) => Scan.noData d; return invertColor
    | ("Invert", d) => invert <$> Scan.data JsonForm.ofScan d
    | _ => throw .malformed

end Transform

namespace Query

instance : JsonForm Query where
  toJson
    | always => .str "True"
    | never => .str "False"
    | notZero => .str "NotZero"
    | maxColor => .str "MaxColor"
    | minColor => .str "MinColor"
    | maxColor1d => .str "MaxColor1d"
    | minColor1d => .str "MinColor1d"
    | countColors => .str "CountColors"
    | countColorsRow => .str "CountColorsRow"
    | countColorsCol => .str "CountColorsCol"
    | countSquares => .str "CountSquares"
    | countSquaresRow => .str "CountSquaresRow"
    | countSquaresCol => .str "CountSquaresCol"
    | color c => .tagged "Color" c
    | periodLength0 => .str "PeriodLength0"
    | periodLength1 => .str "PeriodLength1"
    | bincount n => .tagged "Bincount" n
    | bincountSorted rank => .tagged "BincountSorted" rank
    | symmetry => .str "Symmetry"
  ofScan value := do
    match ← value.alternative with
    | ("True", d) => Scan.noData d; return always
    | ("False", d) => Scan.noData d; return never
    | ("NotZero", d) => Scan.noData d; return notZero
    | ("MaxColor", d) => Scan.noData d; return maxColor
    | ("MinColor", d) => Scan.noData d; return minColor
    | ("MaxColor1d", d) => Scan.noData d; return maxColor1d
    | ("MinColor1d", d) => Scan.noData d; return minColor1d
    | ("CountColors", d) => Scan.noData d; return countColors
    | ("CountColorsRow", d) => Scan.noData d; return countColorsRow
    | ("CountColorsCol", d) => Scan.noData d; return countColorsCol
    | ("CountSquares", d) => Scan.noData d; return countSquares
    | ("CountSquaresRow", d) => Scan.noData d; return countSquaresRow
    | ("CountSquaresCol", d) => Scan.noData d; return countSquaresCol
    | ("Color", d) => color <$> Scan.data JsonForm.ofScan d
    | ("PeriodLength0", d) => Scan.noData d; return periodLength0
    | ("PeriodLength1", d) => Scan.noData d; return periodLength1
    | ("Bincount", d) => bincount <$> Scan.data JsonForm.ofScan d
    | ("BincountSorted", d) => bincountSorted <$> Scan.data JsonForm.ofScan d
    | ("Symmetry", d) => Scan.noData d; return symmetry
    | _ => throw .malformed

end Query

namespace Candidate

/-- The stages of a candidate while it is read. -/
structure Draft where
  preprocess : Option Preprocess
  transform : Option Transform
  query : Option Query

def fields : Scan.Fields Draft
  | "preprocess" =>
    some (Scan.once (·.preprocess) JsonForm.ofScan fun a d => { d with preprocess := some a })
  | "transform" =>
    some (Scan.once (·.transform) JsonForm.ofScan fun a d => { d with transform := some a })
  | "query" => some (Scan.once (·.query) JsonForm.ofScan fun a d => { d with query := some a })
  | _ => none

instance : JsonForm Candidate where
  toJson c := .obj [("preprocess", toJson c.preprocess), ("transform", toJson c.transform),
    ("query", toJson c.query)]
  ofScan
    | .obj members => do
      let draft ← Scan.readMembers fields members ⟨none, none, none⟩
      return {
        preprocess := ← Scan.required draft.preprocess
        transform := ← Scan.required draft.transform
        query := ← Scan.required draft.query }
    | .arr items => do
      let (preprocess, rest) ← Scan.element JsonForm.ofScan items
      let (transform, rest) ← Scan.element JsonForm.ofScan rest
      let (query, rest) ← Scan.element JsonForm.ofScan rest
      Scan.complete { preprocess, transform, query } rest
    | _ => .error .malformed

end Candidate
end Mosaic

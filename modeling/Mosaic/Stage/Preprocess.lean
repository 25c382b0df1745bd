import Mosaic.Grid.Crop

/-!
# Preprocessing

The first stage of a candidate reshapes the grid once, before it is tiled.
-/

namespace Mosaic

inductive Preprocess
  | identity
  | cropInner (threshold : UInt8)
  | cropOuter (threshold : UInt8)
deriving DecidableEq, Repr

namespace Preprocess

/-- The working grid, which is what tiles are made of. -/
def apply (p : Preprocess) (g : Grid) : Except TrialFailure Grid :=
  match p with
  | identity => .ok g
  | cropInner t => .ok (g.cropInner t)
  | cropOuter t =>
    match g.cropOuter? t with
    | some h => .ok h
    | none => .error .emptyPreprocess

def name : Preprocess → String
  | identity => "identity"
  | cropInner _ => "crop_inner"
  | cropOuter _ => "crop_outer"

/-- The name, with the threshold where there is one. -/
def text (p : Preprocess) : String :=
  match p with
  | identity => p.name
  | cropInner t | cropOuter t => s!"{p.name}({t})"

/-- The position of the operation among its kind, and its data. -/
def key : Preprocess → List Int
  | identity => [0]
  | cropInner t => [1, t.toNat]
  | cropOuter t => [2, t.toNat]

instance : Ord Preprocess := ⟨fun p q => compare p.key q.key⟩

end Preprocess
end Mosaic

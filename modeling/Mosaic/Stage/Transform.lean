import Mosaic.Grid.Invert
import Mosaic.Grid.Roll
import Mosaic.Stage.ColorSource
import Mosaic.Stage.TileSequence

/-!
# Transforms

The second stage of a candidate makes the content of the selected tiles. Most transforms give every
tile the same grid; those with `Loop` in their name give each tile the next state of a sequence, which
begins anew with every trial.
-/

namespace Mosaic

inductive Transform
  | identity
  | flip (axis : Axis)
  /-- Quarter turns counter-clockwise. -/
  | rot90 (turns : UInt8)
  | roll (shift : Int8) (axis : Axis)
  | swapAxes
  | rotateLoop (start : Int8)
  /-- A turning sequence whose step is the number of rows. -/
  | rotateLoopRows (start : Int8)
  | rotateLoopCols (start : Int8)
  | flipLoop (start : UInt8)
  | flipLoopRows (start : UInt8)
  | flipLoopCols (start : UInt8)
  /-- Inversion to the most frequent color. -/
  | invertColor
  | invert (source : ColorSource)
deriving DecidableEq, Repr

namespace Transform

/-- The states of a transform that is a sequence. -/
def sequence? (t : Transform) (g : Grid) : Option TileSequence :=
  match t with
  | rotateLoop s => some (.new .rotate s.toInt 1 g)
  | rotateLoopRows s => some (.new .rotate s.toInt (g.rows % 4) g)
  | rotateLoopCols s => some (.new .rotate s.toInt (g.cols % 4) g)
  | flipLoop s => some (.new .flip s.toNat 1 g)
  | flipLoopRows s => some (.new .flip s.toNat (g.rows % 2) g)
  | flipLoopCols s => some (.new .flip s.toNat (g.cols % 2) g)
  | _ => none

def isSequence : Transform → Bool
  | rotateLoop _ | rotateLoopRows _ | rotateLoopCols _ => true
  | flipLoop _ | flipLoopRows _ | flipLoopCols _ => true
  | _ => false

/-- The content that the transform makes of a grid; of a sequence, its first state. -/
def apply (t : Transform) (g : Grid) : Except TrialFailure Grid :=
  match t with
  | identity => .ok g
  | flip axis => .ok (g.flip axis)
  | rot90 k => .ok (g.turn k.toNat)
  | roll shift axis => .ok (g.roll shift.toInt axis)
  | swapAxes => .ok g.transpose
  | invertColor => (ColorSource.maxColor.resolve g).map g.invert
  | invert source => (source.resolve g).map g.invert
  | t => .ok (((t.sequence? g).map TileSequence.current).getD g)

end Transform

/-- What supplies one trial with tiles. -/
inductive TileSource
  /-- What the transform makes of the grid, for every tile the same; `made` keeps it from the first tile
  on. -/
  | same (transform : Transform) (grid : Grid) (made : Option Grid)
  | sequence (states : TileSequence)

namespace TileSource

/-- The content of the next tile, and the source after it. A failure is not kept. -/
def next : TileSource → Except TrialFailure Grid × TileSource
  | same t g (some tile) => (.ok tile, same t g (some tile))
  | same t g none =>
    match t.apply g with
    | .error failure => (.error failure, same t g none)
    | .ok tile => (.ok tile, same t g (some tile))
  | sequence states => (.ok states.next.1, sequence states.next.2)

end TileSource

namespace Transform

/-- The source of tiles for one trial on `g`. -/
def tiles (t : Transform) (g : Grid) : TileSource :=
  match t.sequence? g with
  | some states => .sequence states
  | none => .same t g none

def name : Transform → String
  | identity => "none"
  | flip _ => "flip"
  | rot90 _ => "rot90"
  | roll _ _ => "roll"
  | swapAxes => "swapaxes"
  | rotateLoop _ => "rotate_loop"
  | rotateLoopRows _ => "rotate_loop_rows"
  | rotateLoopCols _ => "rotate_loop_cols"
  | flipLoop _ => "flip_loop"
  | flipLoopRows _ => "flip_loop_rows"
  | flipLoopCols _ => "flip_loop_cols"
  | invertColor => "grid_invert_color"
  | invert _ => "invert"

/-- The name, with the data in brackets where there are any. -/
def text (t : Transform) : String :=
  match t with
  | identity | invertColor => t.name
  | swapAxes => s!"{t.name}(0, 1)"
  | flip axis => s!"{t.name}({axis.number})"
  | roll shift axis => s!"{t.name}({shift.toInt}, {axis.number})"
  | rotateLoop s | rotateLoopRows s | rotateLoopCols s => s!"{t.name}({s.toInt})"
  | rot90 k => s!"{t.name}({k.toNat})"
  | flipLoop s | flipLoopRows s | flipLoopCols s => s!"{t.name}({s.toNat})"
  | invert source => s!"{t.name}({source.text})"

/-- The position of the transform among its kind, and its data. -/
def key : Transform → List Int
  | identity => [0]
  | flip axis => [1, axis.number]
  | rot90 k => [2, k.toNat]
  | roll shift axis => [3, shift.toInt, axis.number]
  | swapAxes => [4]
  | rotateLoop s => [5, s.toInt]
  | rotateLoopRows s => [6, s.toInt]
  | rotateLoopCols s => [7, s.toInt]
  | flipLoop s => [8, s.toNat]
  | flipLoopRows s => [9, s.toNat]
  | flipLoopCols s => [10, s.toNat]
  | invertColor => [11]
  | invert source => 12 :: source.key

instance : Ord Transform := ⟨fun t u => compare t.key u.key⟩

end Transform
end Mosaic

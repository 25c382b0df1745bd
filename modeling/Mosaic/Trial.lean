import Mosaic.Candidate
import Mosaic.Grid.Block
import Mosaic.Grid.Places

/-!
# Trials

A trial makes an output of one grid by one candidate. The canvas is cut into blocks of the shape of
the preprocessed grid, from the top left, as many as fit entirely. Tiles are visited row by row: tile
`(x, y)` is selected when the query holds on the working grid at row `x` and column `y`, both counted
round again when the working grid has fewer; a selected tile takes the next content of the transform,
any other becomes background. What no tile covers stays as the canvas had it.
-/

namespace Mosaic

/-- Where the output starts from. -/
inductive Canvas
  /-- The known output of a training input. -/
  | reference (grid : Grid)
  /-- Background, as large as so many working grids. -/
  | scaled (rows cols : Nat)

namespace Canvas

/-- The canvas before the first tile is placed. -/
def start (canvas : Canvas) (working : Grid) : Except TrialFailure Grid :=
  match canvas with
  | reference g => .ok g
  | scaled a b =>
    if a = 0 ∨ b = 0 then .error (.degenerateTileRatio a b)
    else (Grid.blank (working.rows * a) (working.cols * b)).mapError .grid

/-- The canvas before the first tile is placed, its shape computed in words. -/
def startOn (w : WordArithmetic) (canvas : Canvas) (working : Grid) : Option (Except TrialFailure Grid) :=
  match canvas with
  | reference g => some (.ok g)
  | scaled a b =>
    if a = 0 ∨ b = 0 then some (.error (.degenerateTileRatio a b))
    else do
      let blank ← Grid.blankOn w (← w.mul working.rows a) (← w.mul working.cols b)
      return blank.mapError .grid

end Canvas

namespace Grid

/-- The grid with tile `(x, y)` of the working grid's shape put in. -/
def placeTile (canvas working : Grid) (x y : Nat) (tile : Grid) : Except TrialFailure Grid :=
  if tile.shape = working.shape then canvas.writeBlock (x * working.rows) (y * working.cols) tile
  else .error (.tileShapeMismatch working.shape tile.shape)

end Grid

namespace TileSource

/-- The canvas with tiles `i`, `i + 1`, … put in, `todo` of them, where `across` tiles make a row; `blank` is put
in for a tile that is not selected. -/
def tileFrom (q : Query) (working blank : Grid) (across : Nat) :
    (todo i : Nat) → TileSource → (canvas : Grid) → Except TrialFailure Grid
  | 0, _, _, canvas => .ok canvas
  | todo + 1, i, source, canvas =>
    match q.evaluate working (i / across % working.rows) (i % across % working.cols) with
    | .error failure => .error failure
    | .ok true =>
      match source.next with
      | (.error failure, _) => .error failure
      | (.ok tile, source) =>
        match canvas.placeTile working (i / across) (i % across) tile with
        | .error failure => .error failure
        | .ok canvas => tileFrom q working blank across todo (i + 1) source canvas
    | .ok false =>
      match canvas.writeBlock (i / across * working.rows) (i % across * working.cols) blank with
      | .error failure => .error failure
      | .ok canvas => tileFrom q working blank across todo (i + 1) source canvas

end TileSource

namespace Candidate

/-- The canvas filled with tiles of the working grid. -/
def fill (c : Candidate) (working start : Grid) : Except TrialFailure Grid := do
  let down := start.rows / working.rows
  let across := start.cols / working.cols
  if down = 0 ∨ across = 0 then throw (.degenerateTileRatio down across)
  let blank ← (Grid.blank working.rows working.cols).mapError .grid
  (c.transform.tiles working).tileFrom c.query working blank across (down * across) 0 start

/-- The output that the candidate makes of `g`. -/
def run (c : Candidate) (g : Grid) (canvas : Canvas) : Except TrialFailure Grid := do
  let working ← c.preprocess.apply g
  let start ← canvas.start working
  c.fill working start

/-- The output that the candidate makes of `g`, the shape of its canvas computed in words. There is none where
this stops. -/
def runOn (w : WordArithmetic) (c : Candidate) (g : Grid) (canvas : Canvas) :
    Option (Except TrialFailure Grid) :=
  match c.preprocess.apply g with
  | .error failure => some (.error failure)
  | .ok working => (canvas.startOn w working).map fun start => start.bind (c.fill working)

end Candidate
end Mosaic

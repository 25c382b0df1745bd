import Mosaic.Grid.Places

/-!
# Blocks written in place

The cells of the grid in hand are overwritten one slice at a time: `Placement.writeOn` compares the block with
the grid and then copies the tile row by row into the cells. The ends of the block and of the slices are
computed in words.
-/

namespace Mosaic

/-- A change of the grid in hand. There is no result where the computation stops, or where a slice is not one of
the cells. -/
abbrev Edit (α : Type) := StateT Grid Option α

/-- The grid with `colors` in place of as many of its cells, from position `start` of the cells on. -/
def Grid.withSlice (g : Grid) (start : Nat) (colors : List Color) (h : start + colors.length ≤ g.cells.size) :
    Grid where
  rows := g.rows
  cols := g.cols
  cells := g.cells.extract 0 start ++ colors.toArray ++ g.cells.extract (start + colors.length)
  rows_pos := g.rows_pos
  cols_pos := g.cols_pos
  size_cells := by
    rw [← g.size_cells]
    simp only [Array.size_append, Array.size_extract, List.size_toArray]
    omega

/-- The colors copied over the cells from `start` up to `stop`, which must be as many. -/
def copySlice (start stop : Nat) (colors : List Color) : Edit Unit := fun g =>
  if h : start + colors.length = stop ∧ stop ≤ g.cells.size then
    some ((), g.withSlice start colors (h.1 ▸ h.2))
  else none

/-- A tile, and the cell of a grid where its top left cell is to lie. -/
structure Placement where
  row : Nat
  col : Nat
  tile : Grid

namespace Placement

/-- Row `r` of the tile copied into a grid of `cols` columns. -/
def copyRowOn (w : WordArithmetic) (p : Placement) (cols r : Nat) : Edit Unit := do
  let line ← w.add p.row r
  let start ← w.add (← w.mul line cols) p.col
  let stop ← w.add start p.tile.cols
  copySlice start stop (← p.tile.rowOn w r)

/-- The first `n` rows of the tile copied into a grid of `cols` columns. -/
def copyRowsOn (w : WordArithmetic) (p : Placement) (cols n : Nat) : Edit Unit :=
  forM (List.range n) fun r => p.copyRowOn w cols r

/-- The block reaches past an edge. Columns are not looked at when the rows are too many. -/
def exceedsOn (w : WordArithmetic) (p : Placement) (g : Grid) : Option Bool := do
  if g.rows < (← w.add p.row p.tile.rows) then return true
  return decide (g.cols < (← w.add p.col p.tile.cols))

/-- The tile copied over its block, or the fault that the block does not lie within the grid. -/
def writeOn (w : WordArithmetic) (p : Placement) : Edit (Except TrialFailure Unit) := do
  let g ← get
  if ← p.exceedsOn w g then
    return .error (.blockOutOfBounds p.row p.col p.tile.shape g.shape)
  else
    p.copyRowsOn w g.cols p.tile.rows
    return .ok ()

end Placement
end Mosaic

import Mosaic.Grid.Tally

/-!
# Color sources

Where an inversion takes its fill color from: a figure of the grid, or a given color.
-/

namespace Mosaic

inductive ColorSource
  | maxColor
  | minColor
  | maxColor1d
  | countColors
  | countSquares
  | fixed (color : UInt8)
deriving DecidableEq, Repr

namespace ColorSource

/-- The figure that the source stands for, zero where the grid is all background. -/
def figure (s : ColorSource) (g : Grid) : Except TrialFailure Nat :=
  match s with
  | maxColor => return ((← g.tally).mostFrequent?.getD 0).toNat
  | minColor => return ((← g.tally).leastFrequent?.getD 0).toNat
  | maxColor1d => return (g.highestColor?.getD 0).toNat
  | countColors => return (← g.tally).figureCount
  | countSquares => return g.figureCells
  | fixed color => return color.toNat

/-- The figure as a palette color. A greater one is reported as a color, at most `255`. -/
def resolve (s : ColorSource) (g : Grid) : Except TrialFailure Color := do
  let n ← s.figure g
  if n < Color.paletteSize then return UInt8.ofNat n
  else throw (.grid (.colorOutOfRange 0 0 (UInt8.ofNat (min n 255))))

def text : ColorSource → String
  | maxColor => "max_color"
  | minColor => "min_color"
  | maxColor1d => "max_color_1d"
  | countColors => "count_colors"
  | countSquares => "count_squares"
  | fixed color => toString color.toNat

/-- The position of the source among its kind, and its data. -/
def key : ColorSource → List Int
  | maxColor => [0]
  | minColor => [1]
  | maxColor1d => [2]
  | countColors => [3]
  | countSquares => [4]
  | fixed color => [5, color.toNat]

end ColorSource
end Mosaic

import Mosaic.Grid.Pattern
import Mosaic.Grid.Tally

/-!
# Queries

The last stage of a candidate selects tiles. A query is asked about a position of the working grid;
what it compares there is a figure of the whole grid, so on one grid a query is a `Criterion`, found
once and tested at every position.
-/

namespace Mosaic

inductive Query
  | always
  | never
  | notZero
  | maxColor
  | minColor
  | maxColor1d
  | minColor1d
  | countColors
  | countColorsRow
  | countColorsCol
  | countSquares
  | countSquaresRow
  | countSquaresCol
  | color (color : UInt8)
  | periodLength0
  | periodLength1
  | bincount (count : UInt8)
  | bincountSorted (rank : UInt8)
  | symmetry
deriving DecidableEq, Repr

/-- A query with its figures put in. It is tested at row `x` and column `y`, where the color is
`value`. -/
inductive Criterion
  | constant (selected : Bool)
  | notBackground
  /-- The color is the given one, if there is one. -/
  | isColor (color : Option Color)
  /-- The color as a number is at least the bound. -/
  | atLeast (bound : Nat)
  /-- The position, counted down the columns of `rows` cells, is at most the bound. -/
  | columnwiseUpTo (rows bound : Nat)
  /-- The position, counted along the rows of `cols` cells, is at most the bound. -/
  | rowwiseUpTo (cols bound : Nat)
  | rowMultipleOf (period : Nat)
  | colMultipleOf (period : Nat)
  /-- The color occurs so many times. -/
  | occurs (tally : Tally) (count : Nat)

namespace Criterion

def holds (k : Criterion) (x y : Nat) (value : Color) : Bool :=
  match k with
  | constant selected => selected
  | notBackground => value != Color.background
  | isColor color => some value == color
  | atLeast bound => bound ≤ value.toNat
  | columnwiseUpTo rows bound => x + rows * y ≤ bound
  | rowwiseUpTo cols bound => y + cols * x ≤ bound
  | rowMultipleOf period => x % period == 0
  | colMultipleOf period => y % period == 0
  | occurs tally count => tally.count value == count

end Criterion

namespace Query

/-- What the query comes to on a grid. -/
def criterion (q : Query) (g : Grid) : Except TrialFailure Criterion :=
  match q with
  | always => return .constant true
  | never => return .constant false
  | notZero => return .notBackground
  | maxColor => return .isColor (← g.tally).mostFrequent?
  | minColor => return .isColor (← g.tally).leastFrequent?
  | maxColor1d => return .isColor g.highestColor?
  | minColor1d => return .isColor g.lowestColor?
  | countColors => return .atLeast (← g.tally).figureCount
  | countColorsRow => return .columnwiseUpTo g.rows (← g.tally).figureCount
  | countColorsCol => return .rowwiseUpTo g.cols (← g.tally).figureCount
  | countSquares => return .atLeast g.figureCells
  | countSquaresRow => return .columnwiseUpTo g.rows g.figureCells
  | countSquaresCol => return .rowwiseUpTo g.cols g.figureCells
  | color c => return .isColor (some c)
  | periodLength0 => return .rowMultipleOf (g.period .rows)
  | periodLength1 => return .colMultipleOf (g.period .cols)
  | bincount n => return .occurs (← g.tally) n.toNat
  | bincountSorted rank => return .isColor ((← g.tally).colorAtRank? rank.toNat)
  | symmetry => return .constant g.isSymmetric

/-- Whether the query selects the position at row `x` and column `y` of `g`. -/
def evaluate (q : Query) (g : Grid) (x y : Nat) : Except TrialFailure Bool :=
  match g.get? x y with
  | none => .error (.cellOutOfRange x y)
  | some value => return (← q.criterion g).holds x y value

def name : Query → String
  | always => "query_true"
  | never => "query_false"
  | notZero => "query_not_zero"
  | maxColor => "query_max_color"
  | minColor => "query_min_color"
  | maxColor1d => "query_max_color_1d"
  | minColor1d => "query_min_color_1d"
  | countColors => "query_count_colors"
  | countColorsRow => "query_count_colors_row"
  | countColorsCol => "query_count_colors_col"
  | countSquares => "query_count_squares"
  | countSquaresRow => "query_count_squares_row"
  | countSquaresCol => "query_count_squares_col"
  | color _ => "query_color"
  | periodLength0 => "query_period_length0"
  | periodLength1 => "query_period_length1"
  | bincount _ => "query_bincount"
  | bincountSorted _ => "query_bincount_sorted"
  | symmetry => "is_grid_symmetry"

/-- The name, with the number in brackets where there is one. -/
def text (q : Query) : String :=
  match q with
  | color n | bincount n | bincountSorted n => s!"{q.name}({n.toNat})"
  | q => q.name

/-- The position of the query among its kind, and its data. -/
def key : Query → List Int
  | always => [0]
  | never => [1]
  | notZero => [2]
  | maxColor => [3]
  | minColor => [4]
  | maxColor1d => [5]
  | minColor1d => [6]
  | countColors => [7]
  | countColorsRow => [8]
  | countColorsCol => [9]
  | countSquares => [10]
  | countSquaresRow => [11]
  | countSquaresCol => [12]
  | color c => [13, c.toNat]
  | periodLength0 => [14]
  | periodLength1 => [15]
  | bincount n => [16, n.toNat]
  | bincountSorted rank => [17, rank.toNat]
  | symmetry => [18]

instance : Ord Query := ⟨fun q r => compare q.key r.key⟩

end Query
end Mosaic

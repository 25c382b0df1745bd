import Mosaic.Grid.Basic

/-!
# Color figures

A tally holds how often each palette color occurs in a grid. A grid with a color outside the palette
has none. The figures on colors are read off a tally, those on single cells off the grid itself;
wherever several colors would do, the lowest one counts.
-/

namespace Mosaic

/-- The number of cells of each palette color. -/
structure Tally where
  counts : Vector Nat Color.paletteSize
deriving DecidableEq, Repr

namespace Tally

/-- How often `color` occurs; a color outside the palette does not. -/
def count (t : Tally) (color : Color) : Nat := t.counts[color.toNat]?.getD 0

/-- The palette colors that occur, in ascending order. -/
def present (t : Tally) : List Color := Color.palette.filter fun c => 0 < t.count c

/-- The colors that occur, the background left out. -/
def presentFigures (t : Tally) : List Color := Color.figures.filter fun c => 0 < t.count c

/-- The number of different colors besides the background. -/
def figureCount (t : Tally) : Nat := t.presentFigures.length

/-- The first color of the list for which `better` holds against every earlier choice. -/
def pick? (better : Color → Color → Bool) : List Color → Option Color
  | [] => none
  | c :: rest => some (rest.foldl (fun best c => if better c best then c else best) c)

/-- The most frequent color besides the background. -/
def mostFrequent? (t : Tally) : Option Color :=
  pick? (fun c best => t.count best < t.count c) t.presentFigures

/-- The least frequent color present besides the background. -/
def leastFrequent? (t : Tally) : Option Color :=
  pick? (fun c best => t.count c < t.count best) t.presentFigures

/-- `a` ranks before `b`: it is more frequent, or as frequent and not higher. -/
def ranksBefore (t : Tally) (a b : Color) : Bool :=
  t.count b < t.count a || t.count a == t.count b && a ≤ b

/-- The colors present, the most frequent first. -/
def ranking (t : Tally) : List Color := t.present.mergeSort t.ranksBefore

def colorAtRank? (t : Tally) (rank : Nat) : Option Color := t.ranking[rank]?

end Tally

namespace Grid

/-- The tally of a grid, or the first color that it cannot count. -/
def tally (g : Grid) : Except TrialFailure Tally :=
  match g.cells.find? fun c => !decide c.InPalette with
  | some color => .error (.uncountedColor color)
  | none => .ok ⟨Vector.ofFn fun i => g.cells.count (UInt8.ofNat i)⟩

/-- The number of cells that are not background. -/
def figureCells (g : Grid) : Nat := g.cells.countP (· != Color.background)

/-- The colors of the cells that are not background. -/
def figureColors (g : Grid) : List Color := g.cells.toList.filter (· != Color.background)

def highestColor? (g : Grid) : Option Color := g.figureColors.max?

def lowestColor? (g : Grid) : Option Color := g.figureColors.min?

end Grid
end Mosaic

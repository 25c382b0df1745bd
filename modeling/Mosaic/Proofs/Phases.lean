import Mathlib.Algebra.GroupWithZero.Nat
import Mathlib.Data.List.DropRight
import Mosaic.Proofs.Sources

/-!
# Sequences in use

A sequence may be used in any order of taking its next state, dropping states before one is taken, and going back
to its first state. Whatever was done, it is the sequence that was made, as many states on as were taken or dropped
since it last went back (`TileSequence.after_new`). So a state is given by its number alone, and a sequence that is
a period further on is used with the same results (`TileSequence.taken_congr`).

A phase can be computed in words of 32 bits. It is the same number if that fits a word, and shows the same state in
any case, because whole turns divide the numbers that a word can name (`TileSequence.turn_phase32`).
-/

namespace Mosaic
namespace TileSequence

/-- What is done with a sequence. To take state `n` of those to come drops the ones before it. -/
inductive Use
  | next
  | advance
  | nth (n : Nat)
  | reset
deriving DecidableEq, Repr

namespace Use

/-- How many states are dropped before one is taken, where one is taken. -/
def dropped? : Use → Option Nat
  | next | advance => some 0
  | nth n => some n
  | reset => none

/-- How many states are taken or dropped. -/
def count : Use → Nat
  | next | advance => 1
  | nth n => n + 1
  | reset => 0

end Use

/-- The sequence after `n` states, taken one after the other. -/
def skip : TileSequence → Nat → TileSequence
  | s, 0 => s
  | s, n + 1 => s.next.2.skip n

/-- The state that a use takes, and the sequence after it. -/
def use (s : TileSequence) : Use → Option Grid × TileSequence
  | .next | .advance => (some s.next.1, s.next.2)
  | .nth n => (some (s.skip n).next.1, (s.skip n).next.2)
  | .reset => (none, s.reset)

def after (s : TileSequence) (uses : List Use) : TileSequence := uses.foldl (fun s u => (s.use u).2) s

/-- What the uses take, one after the other. -/
def taken (s : TileSequence) : List Use → List (Option Grid)
  | [] => []
  | u :: rest => (s.use u).1 :: (s.use u).2.taken rest

/-- How many states are taken or dropped after the last reset. -/
def takenSinceReset (uses : List Use) : Nat := ((uses.rtakeWhile (· ≠ .reset)).map Use.count).sum

/-- State `j` by its phase. -/
def state (kind : Kind) (start step : Int) (g : Grid) (j : Nat) : Grid :=
  match kind with
  | .rotate => g.turn (start + j * step)
  | .flip => g.turn (2 * (start + j * step))

/-- After how many states a sequence begins anew. -/
def Kind.period : Kind → Nat
  | rotate => 4
  | flip => 2

variable {kind : Kind} {start step : Int} {g : Grid} {s : TileSequence} {u : Use} {uses : List Use} {i j n : Nat}

/-! ### States by number -/

theorem drop_drop : (s.drop i).drop j = s.drop (i + j) := by
  rw [drop, drop, drop, Nat.add_assoc]

theorem skip_eq_drop : s.skip n = s.drop n := by
  induction n generalizing s with
  | zero => rfl
  | succ n ih =>
    rw [skip, ih, next, drop_drop, Nat.add_comm]

theorem current_drop_new : ((new kind start step g).drop j).current = state kind start step g j := by
  rw [current_eq, phase_drop_new]
  cases kind with
  | rotate => exact congrArg g.turn (Int.one_mul _)
  | flip => rfl

theorem state_add_period : state kind start step g (j + kind.period) = state kind start step g j := by
  cases kind with
  | rotate | flip =>
    refine Grid.turn_congr ?_
    rw [Kind.period, Int.natCast_add, Int.add_mul]
    omega

/-! ### One use and many -/

theorem next_drop_new : ((new kind start step g).drop j).next =
    (state kind start step g j, (new kind start step g).drop (j + 1)) := by
  rw [next, current_drop_new, drop_drop]

/-- From state `j` on, a use takes the state after those that it drops, and the sequence is then as many states
further on as were dropped or taken, or at its first state. -/
theorem use_drop_new : ((new kind start step g).drop j).use u =
    (u.dropped?.map fun n => state kind start step g (j + n),
      (new kind start step g).drop (if u = .reset then 0 else j + u.count)) := by
  cases u with
  | next | advance =>
    rw [use, next_drop_new]
    rfl
  | nth n =>
    rw [use, skip_eq_drop, drop_drop, next_drop_new, Nat.add_assoc]
    rfl
  | reset => rfl

theorem after_concat : s.after (uses ++ [u]) = ((s.after uses).use u).2 := by
  rw [after, List.foldl_concat, after]

theorem takenSinceReset_concat :
    takenSinceReset (uses ++ [u]) = if u = .reset then 0 else takenSinceReset uses + u.count := by
  rw [takenSinceReset, List.rtakeWhile_concat]
  by_cases hu : u = .reset
  · rw [if_neg (by simpa using hu), if_pos hu]
    rfl
  · rw [if_pos (by simpa using hu), if_neg hu, List.map_append, List.sum_append]
    rfl

theorem after_new : (new kind start step g).after uses = (new kind start step g).drop (takenSinceReset uses) := by
  induction uses using List.reverseRecOn with
  | nil => rfl
  | append_singleton uses u ih => rw [after_concat, ih, use_drop_new, takenSinceReset_concat]

/-- Two sequences that show the same states from now on, and that go back to the same first state, are used with the
same results. -/
theorem taken_congr (h : ∀ n, state kind start step g (i + n) = state kind start step g (j + n)) :
    ((new kind start step g).drop i).taken uses = ((new kind start step g).drop j).taken uses := by
  induction uses generalizing i j with
  | nil => rfl
  | cons u rest ih =>
    rw [taken, taken, use_drop_new, use_drop_new]
    by_cases hu : u = .reset
    · rw [hu]
      rfl
    · rw [if_neg hu, if_neg hu]
      refine congrArg₂ List.cons ?_ (ih fun n => ?_)
      · simp only [h]
      · rw [Nat.add_assoc, h, Nat.add_assoc]

theorem taken_skip_period : (((new kind start step g).drop j).skip kind.period).taken uses =
    ((new kind start step g).drop j).taken uses := by
  rw [skip_eq_drop, drop_drop]
  refine taken_congr fun n => ?_
  rw [Nat.add_right_comm, state_add_period]

/-! ### Phases in words -/

/-- The phase in words of 32 bits. -/
def phase32 (s : TileSequence) : Int32 := .ofInt s.start + .ofNat s.consumed * .ofInt s.step

theorem toInt_phase32 : s.phase32.toInt = s.phase.bmod Int32.size := by
  rw [phase32, Int32.toInt_add, Int32.toInt_mul, Int32.toInt_ofInt, Int32.toInt_ofNat', Int32.toInt_ofInt, phase]
  simp [Int32.size]

/-- The numbers that a word can name make up whole turns. -/
theorem turn_phase32 : s.grid.turn (s.kind.quarters * s.phase32.toInt) = s.current := by
  rw [current_eq, toInt_phase32]
  have hround := Int.bmod_add_bdiv s.phase Int32.size
  rw [Int32.size] at *
  refine Grid.turn_congr ?_
  cases s.kind with
  | rotate | flip =>
    dsimp only [Kind.quarters]
    omega

/-- However a sequence is used, it counts the states that were taken or dropped since it last went back, and the state
that it yields after `j` of them is turned by phase `j`, also if that is computed in words. So a turning sequence shows
the same again after four states and a flipping one after two, whatever is done with it then, and to go back gives the
sequence that was made. -/
theorem uses_follow_phases (kind : Kind) (start step : Int) (g : Grid) (uses : List Use) :
    let s := (new kind start step g).after uses
    s.consumed = takenSinceReset uses ∧
    (∀ u, (s.use u).1 = u.dropped?.map fun n => state kind start step g (takenSinceReset uses + n)) ∧
    (∀ n, g.turn (kind.quarters * (s.skip n).phase32.toInt) = state kind start step g (takenSinceReset uses + n)) ∧
    (∀ later, (s.skip kind.period).taken later = s.taken later) ∧
    s.reset = new kind start step g := by
  intro s
  have hs : s = (new kind start step g).drop (takenSinceReset uses) := after_new
  rw [hs]
  refine ⟨?_, fun u => ?_, fun n => ?_, fun later => taken_skip_period, rfl⟩
  · exact Nat.zero_add _
  · rw [use_drop_new]
  · rw [skip_eq_drop, drop_drop, ← current_drop_new]
    exact turn_phase32 (s := (new kind start step g).drop (takenSinceReset uses + n))

/-- A square that is turned from one quarter back on: two states, one that is dropped and one taken, back to the first
state, and that one again. -/
example :
    let g : Grid := ⟨2, 2, #[1, 2, 3, 4], by decide, by decide, rfl⟩
    let s := new .rotate (-1) 1 g
    s.taken [.next, .advance, .nth 1, .reset, .next] =
      [some (g.turn (-1)), some g, some (g.turn 2), none, some (g.turn (-1))] ∧
    (s.after [.next, .advance, .nth 1]).consumed = 4 := by
  decide +kernel

end TileSequence
end Mosaic

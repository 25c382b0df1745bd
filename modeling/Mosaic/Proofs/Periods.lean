import Mathlib.Order.Bounds.Defs
import Mosaic.Grid.Pattern
import Mosaic.Proofs.Turns

/-!
# Lines and their repeats

The lines across an axis are read by `Grid.along`, whichever axis it is; the tests behind a period are
then statements on such reads. Lines that are as those `p` further on are given by the first `p` of them
(`repeatsAt_iff_cyclic`), and the period is the least such number. It is known from the lines of the
transpose, and from those of a flip.
-/

namespace Mosaic

theorem Axis.eq_or_eq_other (axis axis' : Axis) : axis' = axis ∨ axis' = axis.other := by
  cases axis <;> cases axis' <;> decide

namespace Grid

variable {g h : Grid} {axis axis' : Axis} {i j p : Nat}

/-- Cell `k` of line `i` across `axis`. -/
def along (g : Grid) : (axis : Axis) → (i k : Nat) → Option Color
  | .rows, i, k => g.get? i k
  | .cols, i, k => g.get? k i

theorem lineCount_flip : (g.flip axis).lineCount axis' = g.lineCount axis' := by
  cases axis <;> cases axis' <;> rfl

theorem lineCount_pos : 0 < g.lineCount axis := by
  cases axis with
  | rows => exact g.rows_pos
  | cols => exact g.cols_pos

/-- A grid is known from its lines. -/
theorem ext_along (axis : Axis) (hshape : g.shape = h.shape)
    (hline : ∀ i < g.lineCount axis, ∀ k, g.along axis i k = h.along axis i k) : g = h := by
  refine ext_get?_of_lt hshape fun r hr c hc => ?_
  cases axis with
  | rows => exact hline r hr c
  | cols => exact hline c hc r

/-- A flip shows the lines in the opposite order. -/
theorem along_flip {k : Nat} (hi : i < g.lineCount axis) :
    (g.flip axis).along axis i k = g.along axis (g.lineCount axis - 1 - i) k := by
  cases axis with
  | rows =>
    refine get?_flipRows.trans (ite_eq_left_iff.mpr fun hout => ?_)
    exact (get?_of_not_lt fun h => hout ⟨hi, h.2⟩).symm
  | cols =>
    refine get?_flipCols.trans (ite_eq_left_iff.mpr fun hout => ?_)
    exact (get?_of_not_lt fun h => hout ⟨h.1, hi⟩).symm

/-- A flip along the other axis turns every line round. -/
theorem along_flip_other {k : Nat} : (g.flip axis.other).along axis i k =
    if k < g.lineCount axis.other then g.along axis i (g.lineCount axis.other - 1 - k) else none := by
  cases axis with
  | rows =>
    refine get?_flipCols.trans ?_
    split <;> rename_i hin
    · exact (if_pos hin.2).symm
    · refine (ite_eq_right_iff.mpr fun hk => ?_).symm
      exact get?_of_not_lt fun h => hin ⟨h.1, hk⟩
  | cols =>
    refine get?_flipRows.trans ?_
    split <;> rename_i hin
    · exact (if_pos hin.1).symm
    · refine (ite_eq_right_iff.mpr fun hk => ?_).symm
      exact get?_of_not_lt fun h => hin ⟨hk, h.2⟩

/-- Two lines of colors, compared color by color or read by read. -/
theorem all_beq_iff {n : Nat} {a b : (k : Nat) → k < n → Color} {a' b' : Nat → Option Color}
    (ha : ∀ k hk, a' k = some (a k hk)) (hb : ∀ k hk, b' k = some (b k hk))
    (hout : ∀ k, ¬k < n → a' k = b' k) :
    Nat.all n (fun k hk => a k hk == b k hk) = true ↔ ∀ k, a' k = b' k := by
  rw [Nat.all_eq_finRange_all, List.all_eq_true]
  constructor
  · intro hsame k
    by_cases hk : k < n
    · rw [ha k hk, hb k hk, eq_of_beq (hsame ⟨k, hk⟩ (List.mem_finRange _))]
    · exact hout k hk
  · intro hsame k _
    have key := hsame k
    rw [ha k k.isLt, hb k k.isLt] at key
    exact beq_iff_eq.mpr (Option.some.inj key)

theorem sameLines_iff {hi : i < g.lineCount axis} {hj : j < g.lineCount axis} :
    g.sameLines axis i j hi hj = true ↔ ∀ k, g.along axis i k = g.along axis j k := by
  cases axis with
  | rows =>
    exact all_beq_iff (fun k hk => get?_eq_some hi hk) (fun k hk => get?_eq_some hj hk)
      fun k hk => (get?_of_not_lt (hk ·.2)).trans (get?_of_not_lt (hk ·.2)).symm
  | cols =>
    exact all_beq_iff (fun k hk => get?_eq_some hk hi) (fun k hk => get?_eq_some hk hj)
      fun k hk => (get?_of_not_lt (hk ·.1)).trans (get?_of_not_lt (hk ·.1)).symm

theorem repeatsAt_iff : g.repeatsAt axis p = true ↔
    ∀ i, i + p < g.lineCount axis → ∀ k, g.along axis i k = g.along axis (i + p) k := by
  rw [repeatsAt, Nat.all_eq_finRange_all, List.all_eq_true]
  constructor
  · intro hrep i hi
    exact sameLines_iff.mp (hrep ⟨i, by omega⟩ (List.mem_finRange _))
  · intro hrep i _
    exact sameLines_iff.mpr (hrep i (by omega))

/-- The period is a matter of the number of lines and the distances at which they repeat. -/
theorem period_congr (hcount : g.lineCount axis = h.lineCount axis')
    (hrep : ∀ p, g.repeatsAt axis p = h.repeatsAt axis' p) : g.period axis = h.period axis' := by
  rw [period, period, hcount, funext hrep]

/-! ### The transpose -/

theorem lineCount_transpose : g.transpose.lineCount axis = g.lineCount axis.other := by
  cases axis <;> rfl

theorem along_transpose {k : Nat} : g.transpose.along axis i k = g.along axis.other i k := by
  cases axis <;> exact get?_transpose

theorem period_transpose : g.transpose.period axis = g.period axis.other := by
  refine period_congr lineCount_transpose fun p => ?_
  rw [Bool.eq_iff_iff, repeatsAt_iff, repeatsAt_iff, lineCount_transpose]
  simp only [along_transpose]

/-- Two of the four symmetries change places in the transpose. -/
theorem isSymmetric_transpose : g.transpose.isSymmetric = g.isSymmetric := by
  rw [Bool.eq_iff_iff]
  simp only [isSymmetric, Bool.or_eq_true, beq_iff_eq, ← transpose_flipRows, ← transpose_flipCols,
    ← transpose_halfTurn, transpose_inj, transpose_transpose]
  rw [eq_comm (a := g.transpose), or_comm (a := g = g.flipCols)]

/-! ### Flips -/

theorem repeatsAt_flip_of (hrep : g.repeatsAt axis p = true) : (g.flip axis').repeatsAt axis p = true := by
  rw [repeatsAt_iff] at hrep ⊢
  intro i hi k
  rw [lineCount_flip] at hi
  rcases axis.eq_or_eq_other axis' with rfl | rfl
  · -- the line `p` further on is the line `p` further back
    have hback : g.lineCount axis' - 1 - (i + p) + p = g.lineCount axis' - 1 - i := by omega
    rw [along_flip (by omega), along_flip hi, hrep (g.lineCount axis' - 1 - (i + p)) (by omega), hback]
  · simp only [along_flip_other, hrep i hi]

theorem repeatsAt_flip : (g.flip axis').repeatsAt axis p = g.repeatsAt axis p := by
  rw [Bool.eq_iff_iff]
  refine ⟨fun h => ?_, repeatsAt_flip_of⟩
  have hback : ((g.flip axis').flip axis').repeatsAt axis p = true := repeatsAt_flip_of h
  rwa [flip_flip] at hback

theorem period_flip : (g.flip axis').period axis = g.period axis :=
  period_congr lineCount_flip fun _ => repeatsAt_flip

/-! ### The least period -/

/-- Every line is the one whose number is its own modulo `p`. -/
def Cyclic (g : Grid) (axis : Axis) (p : Nat) : Prop :=
  ∀ i < g.lineCount axis, ∀ k, g.along axis i k = g.along axis (i % p) k

theorem repeatsAt_iff_cyclic (hp : 0 < p) : g.repeatsAt axis p = true ↔ g.Cyclic axis p := by
  rw [repeatsAt_iff]
  constructor
  · intro hrep i
    -- from line to line `p` further back, down to one of the first `p`
    induction i using Nat.strongRecOn with
    | ind i ih =>
      intro hi k
      by_cases hlt : i < p
      · rw [Nat.mod_eq_of_lt hlt]
      · have hback : i - p + p = i := Nat.sub_add_cancel (Nat.le_of_not_lt hlt)
        calc g.along axis i k = g.along axis (i - p) k := by rw [hrep (i - p) (by omega), hback]
          _ = g.along axis ((i - p) % p) k := ih (i - p) (by omega) (by omega) k
          _ = g.along axis (i % p) k := by rw [← Nat.mod_eq_sub_mod (Nat.le_of_not_lt hlt)]
  · intro hcyclic i hi k
    rw [hcyclic i (by omega), hcyclic (i + p) hi, Nat.add_mod_right]

theorem repeatsAt_lineCount : g.repeatsAt axis (g.lineCount axis) = true :=
  repeatsAt_iff.mpr fun _ hi => absurd hi (by omega)

/-- The search for the period ends at the first distance at which the lines repeat. -/
theorem period_isLeast_repeatsAt :
    IsLeast {p | 1 ≤ p ∧ g.repeatsAt axis p = true} (g.period axis) := by
  have hfound : (1 ≤ g.period axis ∧ g.repeatsAt axis (g.period axis) = true) ∧
      ∀ q, 1 ≤ q → q < g.period axis → (!g.repeatsAt axis q) = true := by
    have hpos : 1 ≤ g.lineCount axis := lineCount_pos
    unfold period
    cases hfind : (List.range' 1 (g.lineCount axis - 1)).find? (g.repeatsAt axis) with
    | none =>
      rw [Option.getD_none]
      exact ⟨⟨hpos, repeatsAt_lineCount⟩, fun q hq hlt => List.find?_range'_eq_none.mp hfind q hq (by omega)⟩
    | some p =>
      obtain ⟨hrep, hmem, hbefore⟩ := List.find?_range'_eq_some.mp hfind
      exact ⟨⟨(List.mem_range'_1.mp hmem).1, hrep⟩, hbefore⟩
  refine ⟨hfound.1, fun q ⟨hq, hrep⟩ => Nat.le_of_not_lt fun hlt => ?_⟩
  have hnot := hfound.2 q hq hlt
  rw [hrep] at hnot
  cases hnot

theorem period_pos (g : Grid) (axis : Axis) : 0 < g.period axis := period_isLeast_repeatsAt.1.1

theorem period_le_lineCount : g.period axis ≤ g.lineCount axis :=
  period_isLeast_repeatsAt.2 ⟨lineCount_pos, repeatsAt_lineCount⟩

/-- The period along an axis is the least positive number `p` such that the first `p` lines give all lines in
turn, and it is at most the number of lines. The transpose has it along the other axis, and no flip changes
it. -/
theorem period_least (g : Grid) (axis : Axis) :
    IsLeast {p | 1 ≤ p ∧ g.Cyclic axis p} (g.period axis) ∧ g.period axis ≤ g.lineCount axis ∧
    g.transpose.period axis = g.period axis.other ∧ ∀ axis', (g.flip axis').period axis = g.period axis := by
  refine ⟨?_, period_le_lineCount, period_transpose, fun axis' => period_flip⟩
  have hset : {p | 1 ≤ p ∧ g.Cyclic axis p} = {p | 1 ≤ p ∧ g.repeatsAt axis p = true} :=
    Set.ext fun p => and_congr_right fun hp => (repeatsAt_iff_cyclic hp).symm
  exact hset ▸ period_isLeast_repeatsAt

/-- Two columns in turn, of which the first comes once more: the period does not divide the number of columns. -/
example :
    let g : Grid := ⟨2, 5, #[1, 2, 1, 2, 1, 0, 3, 0, 3, 0], by decide, by decide, rfl⟩
    g.period .cols = 2 ∧ (g.flip .cols).period .cols = 2 ∧ g.transpose.period .rows = 2 := by
  decide

end Grid
end Mosaic

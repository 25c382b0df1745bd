import Mosaic.Grid.Upscale
import Mosaic.Proofs.Turns

/-!
# Laws of upscaling

Every cell of a scaled grid shows the cell whose position is its own divided by the factors (`get?_scale`).
Scaling has a result for positive factors and for no others. Quotients of quotients make scaling twice one
scaling, and a scaled length is a multiple of its factor, so that a position counted from the other end has
its quotient counted from the other end (`mirror_div`): flips, turns and the transpose go through a scaling,
which takes its factors along the axes that they leave.
-/

namespace Mosaic
namespace Grid

variable {g h out : Grid} {axis : Axis} {k : Int} {a b n r c d : Nat} {ha : 0 < a} {hb : 0 < b}

/-! ### Cells and shape -/

theorem shape_scale : (g.scale a b ha hb).shape = (g.rows * a, g.cols * b) := rfl

theorem get?_scale : (g.scale a b ha hb).get? r c = g.get? (r / a) (c / b) := by
  have h : (g.scale a b ha hb).get? r c =
      if r < g.rows * a ∧ c < g.cols * b then g.get? (r / a) (c / b) else none := get?_reindex
  rw [h, ite_eq_left_iff]
  intro hout
  rw [← Nat.div_lt_iff_lt_mul ha, ← Nat.div_lt_iff_lt_mul hb] at hout
  exact (get?_of_not_lt hout).symm

theorem upscale?_of_pos (ha : 0 < a) (hb : 0 < b) : g.upscale? a b = some (g.scale a b ha hb) := by
  rw [upscale?, dif_pos ha, dif_pos hb]

theorem upscale?_of_not_pos (h : ¬(0 < a ∧ 0 < b)) : g.upscale? a b = none := by
  unfold upscale?
  split
  · rename_i ha
    exact dif_neg fun hb => h ⟨ha, hb⟩
  · rfl

theorem upscale?_eq_some_iff :
    g.upscale? a b = some out ↔ ∃ (ha : 0 < a) (hb : 0 < b), g.scale a b ha hb = out := by
  by_cases h : 0 < a ∧ 0 < b
  · simp [upscale?_of_pos h.1 h.2, h.1, h.2]
  · rw [upscale?_of_not_pos h]
    exact iff_of_false nofun fun ⟨ha, hb, _⟩ => h ⟨ha, hb⟩

/-! ### Scaling twice and scaling back -/

theorem scale_scale {hc : 0 < c} {hd : 0 < d} : (g.scale a b ha hb).scale c d hc hd =
    g.scale (a * c) (b * d) (Nat.mul_pos ha hc) (Nat.mul_pos hb hd) := by
  refine ext_get? ?_ fun i j => ?_
  · exact Prod.ext (Nat.mul_assoc ..) (Nat.mul_assoc ..)
  · rw [get?_scale, get?_scale, get?_scale, Nat.div_div_eq_div_mul, Nat.div_div_eq_div_mul, Nat.mul_comm c,
      Nat.mul_comm d]

/-- Every cell is shown by the first one of its block. -/
theorem get?_scale_mul : (g.scale a b ha hb).get? (r * a) (c * b) = g.get? r c := by
  rw [get?_scale, Nat.mul_div_cancel r ha, Nat.mul_div_cancel c hb]

theorem scale_inj : g.scale a b ha hb = h.scale a b ha hb ↔ g = h := by
  refine ⟨fun heq => ?_, fun heq => heq ▸ rfl⟩
  obtain ⟨hrows, hcols⟩ := Prod.mk.inj (congrArg shape heq)
  refine ext_get? ?_ fun r c => ?_
  · exact Prod.ext (Nat.eq_of_mul_eq_mul_right ha hrows) (Nat.eq_of_mul_eq_mul_right hb hcols)
  · calc g.get? r c = (g.scale a b ha hb).get? (r * a) (c * b) := get?_scale_mul.symm
      _ = (h.scale a b ha hb).get? (r * a) (c * b) := by rw [heq]
      _ = h.get? r c := get?_scale_mul

/-! ### Symmetries -/

theorem transpose_scale : (g.scale a b ha hb).transpose = g.transpose.scale b a hb ha := transpose_reindex

theorem mirror_div (hr : r < n * a) : (n * a - 1 - r) / a = n - 1 - r / a := by
  rw [Nat.sub_sub, Nat.add_comm 1, Nat.mul_comm, Nat.mul_sub_div r a n (Nat.mul_comm n a ▸ hr), Nat.sub_sub,
    Nat.add_comm 1]

theorem flipRows_scale : (g.scale a b ha hb).flipRows = g.flipRows.scale a b ha hb := by
  refine ext_get?_of_lt rfl fun r (hr : r < g.rows * a) c (hc : c < g.cols * b) => ?_
  have hin : r / a < g.rows ∧ c / b < g.cols := ⟨div_lt_of_lt_scaled hr, div_lt_of_lt_scaled hc⟩
  calc (g.scale a b ha hb).flipRows.get? r c
      = (g.scale a b ha hb).get? (g.rows * a - 1 - r) c := get?_flipRows.trans (if_pos ⟨hr, hc⟩)
    _ = g.get? (g.rows - 1 - r / a) (c / b) := by rw [get?_scale, mirror_div hr]
    _ = g.flipRows.get? (r / a) (c / b) := (get?_flipRows.trans (if_pos hin)).symm
    _ = (g.flipRows.scale a b ha hb).get? r c := get?_scale.symm

theorem flipCols_scale : (g.scale a b ha hb).flipCols = g.flipCols.scale a b ha hb := by
  rw [← transpose_inj, transpose_flipCols, transpose_scale, transpose_scale, transpose_flipCols, flipRows_scale]

theorem flip_scale : (g.scale a b ha hb).flip axis = (g.flip axis).scale a b ha hb := by
  cases axis with
  | rows => exact flipRows_scale
  | cols => exact flipCols_scale

theorem quarterTurn_scale : (g.scale a b ha hb).quarterTurn = g.quarterTurn.scale b a hb ha := by
  rw [quarterTurn_eq, transpose_scale, flipRows_scale, quarterTurn_eq]

theorem halfTurn_scale : (g.scale a b ha hb).halfTurn = g.halfTurn.scale a b ha hb := by
  rw [← flipRows_flipCols, flipRows_scale, flipCols_scale, flipRows_flipCols]

theorem backTurn_scale : (g.scale a b ha hb).backTurn = g.backTurn.scale b a hb ha := by
  rw [backTurn_eq, transpose_scale, flipCols_scale, backTurn_eq]

theorem turn_scale_of_even (hk : k % 2 = 0) : (g.scale a b ha hb).turn k = (g.turn k).scale a b ha hb := by
  have hk4 : k % 4 = 0 ∨ k % 4 = 2 := by omega
  rcases hk4 with hk4 | hk4
  · simp [turn, hk4]
  · simp [turn, hk4, halfTurn_scale]

theorem turn_scale_of_odd (hk : k % 2 = 1) : (g.scale a b ha hb).turn k = (g.turn k).scale b a hb ha := by
  have hk4 : k % 4 = 1 ∨ k % 4 = 3 := by omega
  rcases hk4 with hk4 | hk4
  · simp [turn, hk4, quarterTurn_scale]
  · simp [turn, hk4, backTurn_scale]

/-- A grid has an upscale for all positive factors, whose cells are the cells of the grid at their positions
divided by the factors. Upscales of upscales are upscales by the products of the factors, no other grid has the
same upscale, and the flips, the turns and the transpose of an upscale are upscales of those of the grid; the
factors change places when rows become columns. -/
theorem upscale_laws (g : Grid) (a b : Nat) (ha : 0 < a) (hb : 0 < b) :
    ∃ h, g.upscale? a b = some h ∧ h.shape = (g.rows * a, g.cols * b) ∧
      (∀ r c, h.get? r c = g.get? (r / a) (c / b)) ∧
      (∀ c d, 0 < c → 0 < d → ∃ h', h.upscale? c d = some h' ∧ g.upscale? (a * c) (b * d) = some h') ∧
      (∀ g' : Grid, g'.upscale? a b = some h → g' = g) ∧
      g.transpose.upscale? b a = some h.transpose ∧
      (∀ axis, (g.flip axis).upscale? a b = some (h.flip axis)) ∧
      ∀ k : Int, (k % 2 = 0 → (g.turn k).upscale? a b = some (h.turn k)) ∧
        (k % 2 = 1 → (g.turn k).upscale? b a = some (h.turn k)) := by
  refine ⟨g.scale a b ha hb, upscale?_of_pos ha hb, rfl, fun r c => get?_scale, fun c d hc hd => ?_, fun g' hg' => ?_,
    ?_, fun axis => ?_, fun k => ⟨fun hk => ?_, fun hk => ?_⟩⟩
  · have hboth := upscale?_of_pos (g := g) (Nat.mul_pos ha hc) (Nat.mul_pos hb hd)
    exact ⟨_, upscale?_of_pos hc hd, scale_scale ▸ hboth⟩
  · rw [upscale?_of_pos ha hb, Option.some.injEq] at hg'
    exact scale_inj.mp hg'
  · rw [upscale?_of_pos hb ha, transpose_scale]
  · rw [upscale?_of_pos ha hb, flip_scale]
  · rw [upscale?_of_pos ha hb, turn_scale_of_even hk]
  · rw [upscale?_of_pos hb ha, turn_scale_of_odd hk]

/-- A row of two, drawn twice as high and three times as wide: turned a quarter back, it is three times as high and
twice as wide. -/
theorem upscale_laws_two_cells :
    let g : Grid := ⟨1, 2, #[4, 7], by decide, by decide, rfl⟩
    let h : Grid := ⟨2, 6, #[4, 4, 4, 7, 7, 7, 4, 4, 4, 7, 7, 7], by decide, by decide, rfl⟩
    0 < 2 ∧ 0 < 3 ∧ g.upscale? 2 3 = some h ∧ (-1 : Int) % 2 = 1 ∧
      (g.turn (-1)).upscale? 3 2 = some (h.turn (-1)) ∧
      (g.flip .cols).upscale? 2 3 = some (h.flip .cols) ∧
      ∃ h', h.upscale? 2 1 = some h' ∧ g.upscale? 4 3 = some h' := by
  intro g h
  obtain ⟨h', hup, -, -, htwice, -, -, hflip, hturn⟩ := upscale_laws g 2 3 (by decide) (by decide)
  have hh : g.upscale? 2 3 = some h := by decide +kernel
  cases hup.symm.trans hh
  exact ⟨by decide, by decide, hh, by decide, (hturn (-1)).2 (by decide), hflip .cols,
    htwice 2 1 (by decide) (by decide)⟩

end Grid
end Mosaic

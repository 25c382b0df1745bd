import Mosaic.Proofs.Geometry

/-!
# Bright lines and crops

A grid is bright over a threshold when one of its cells is. Then it has a first and a last bright row and
column, which are the edges of the inner crop, and the bright lines meet in the outer crop; over any other
threshold the inner crop is the grid and there is no outer one.
-/

namespace Mosaic
namespace Grid

variable {g : Grid} {t : Color}

/-- Some cell exceeds `t`. -/
def Bright (g : Grid) (t : Color) : Prop := ∃ r c color, g.get? r c = some color ∧ t < color

/-! ### Bright lines -/

theorem rowExceeds_iff {r : Fin g.rows} :
    g.rowExceeds t r = true ↔ ∃ c color, g.get? r c = some color ∧ t < color := by
  rw [rowExceeds, Nat.any_eq_finRange_any, List.any_eq_true]
  constructor
  · rintro ⟨c, -, hlt⟩
    exact ⟨c, _, get?_eq_some r.isLt c.isLt, of_decide_eq_true hlt⟩
  · rintro ⟨c, color, hget, hlt⟩
    obtain ⟨hr, hc, rfl⟩ := get?_eq_some_iff.mp hget
    exact ⟨⟨c, hc⟩, List.mem_finRange _, decide_eq_true hlt⟩

theorem colExceeds_iff {c : Fin g.cols} :
    g.colExceeds t c = true ↔ ∃ r color, g.get? r c = some color ∧ t < color := by
  rw [colExceeds, Nat.any_eq_finRange_any, List.any_eq_true]
  constructor
  · rintro ⟨r, -, hlt⟩
    exact ⟨r, _, get?_eq_some r.isLt c.isLt, of_decide_eq_true hlt⟩
  · rintro ⟨r, color, hget, hlt⟩
    obtain ⟨hr, hc, rfl⟩ := get?_eq_some_iff.mp hget
    exact ⟨⟨r, hr⟩, List.mem_finRange _, decide_eq_true hlt⟩

theorem mem_brightRows {r : Fin g.rows} :
    r ∈ g.brightRows t ↔ ∃ c color, g.get? r c = some color ∧ t < color := by
  rw [brightRows, List.mem_filter, rowExceeds_iff]
  exact and_iff_right (List.mem_finRange r)

theorem mem_brightCols {c : Fin g.cols} :
    c ∈ g.brightCols t ↔ ∃ r color, g.get? r c = some color ∧ t < color := by
  rw [brightCols, List.mem_filter, colExceeds_iff]
  exact and_iff_right (List.mem_finRange c)

theorem brightRows_eq_nil_iff : g.brightRows t = [] ↔ ¬g.Bright t := by
  rw [List.eq_nil_iff_forall_not_mem]
  constructor
  · rintro hnone ⟨r, c, color, hget, hlt⟩
    obtain ⟨hr, -, -⟩ := get?_eq_some_iff.mp hget
    exact hnone ⟨r, hr⟩ (mem_brightRows.mpr ⟨c, color, hget, hlt⟩)
  · intro hdark r hr
    obtain ⟨c, color, hget, hlt⟩ := mem_brightRows.mp hr
    exact hdark ⟨r, c, color, hget, hlt⟩

theorem brightCols_eq_nil_iff : g.brightCols t = [] ↔ ¬g.Bright t := by
  rw [List.eq_nil_iff_forall_not_mem]
  constructor
  · rintro hnone ⟨r, c, color, hget, hlt⟩
    obtain ⟨-, hc, -⟩ := get?_eq_some_iff.mp hget
    exact hnone ⟨c, hc⟩ (mem_brightCols.mpr ⟨r, color, hget, hlt⟩)
  · intro hdark c hc
    obtain ⟨r, color, hget, hlt⟩ := mem_brightCols.mp hc
    exact hdark ⟨r, c, color, hget, hlt⟩

/-! ### The inner crop -/

/-- The first and the last bright lines. -/
structure Edges (g : Grid) (t : Color) (top bottom : Fin g.rows) (left right : Fin g.cols) : Prop where
  top : (g.brightRows t).head? = some top
  bottom : (g.brightRows t).getLast? = some bottom
  left : (g.brightCols t).head? = some left
  right : (g.brightCols t).getLast? = some right

theorem exists_edges (h : g.Bright t) : ∃ top bottom left right, g.Edges t top bottom left right := by
  have hrows : g.brightRows t ≠ [] := fun hnil => brightRows_eq_nil_iff.mp hnil h
  have hcols : g.brightCols t ≠ [] := fun hnil => brightCols_eq_nil_iff.mp hnil h
  exact ⟨_, _, _, _, List.head?_eq_some_head hrows, List.getLast?_eq_some_getLast hrows,
    List.head?_eq_some_head hcols, List.getLast?_eq_some_getLast hcols⟩

theorem cropInner_of_edges {top bottom : Fin g.rows} {left right : Fin g.cols}
    (h : g.Edges t top bottom left right) : g.cropInner t = g.box top bottom left right := by
  simp only [cropInner, h.top, h.bottom, h.left, h.right]

theorem cropInner_of_not_bright (h : ¬g.Bright t) : g.cropInner t = g := by
  simp only [cropInner, brightRows_eq_nil_iff.mpr h, brightCols_eq_nil_iff.mpr h, List.head?_nil]

theorem InPalette.cropInner (h : g.InPalette) : (g.cropInner t).InPalette := by
  by_cases hbright : g.Bright t
  · obtain ⟨top, bottom, left, right, hedges⟩ := exists_edges hbright
    rw [cropInner_of_edges hedges]
    refine h.of_get? fun r c color hget => ?_
    rw [get?_box] at hget
    split at hget
    · exact ⟨_, _, hget⟩
    · cases hget
  · rwa [cropInner_of_not_bright hbright]

/-- The inner crop has no more rows and columns than the grid. -/
theorem dims_cropInner_le : (g.cropInner t).rows ≤ g.rows ∧ (g.cropInner t).cols ≤ g.cols := by
  by_cases hbright : g.Bright t
  · obtain ⟨top, bottom, left, right, hedges⟩ := exists_edges hbright
    rw [cropInner_of_edges hedges, box, rows_ofFn, cols_ofFn]
    omega
  · rw [cropInner_of_not_bright hbright]
    exact ⟨Nat.le_refl _, Nat.le_refl _⟩

/-! ### The outer crop -/

theorem cropOuter?_of_bright (h : g.Bright t) : ∃ hrows hcols, g.cropOuter? t =
    some (g.select (g.brightRows t).toArray (g.brightCols t).toArray hrows hcols) := by
  have hrows : 0 < (g.brightRows t).toArray.size :=
    List.length_pos_iff.mpr fun hnil => brightRows_eq_nil_iff.mp hnil h
  have hcols : 0 < (g.brightCols t).toArray.size :=
    List.length_pos_iff.mpr fun hnil => brightCols_eq_nil_iff.mp hnil h
  exact ⟨hrows, hcols, dif_pos ⟨hrows, hcols⟩⟩

theorem cropOuter?_of_not_bright (h : ¬g.Bright t) : g.cropOuter? t = none := by
  refine dif_neg fun hpos => ?_
  rw [brightRows_eq_nil_iff.mpr h] at hpos
  exact absurd hpos.1 (Nat.lt_irrefl 0)

theorem InPalette.cropOuter {h : Grid} (hg : g.InPalette) (hcrop : g.cropOuter? t = some h) :
    h.InPalette := by
  by_cases hbright : g.Bright t
  · obtain ⟨hrows, hcols, hselect⟩ := cropOuter?_of_bright hbright
    cases hselect.symm.trans hcrop
    refine hg.of_get? fun r c color hget => ?_
    rw [get?_select] at hget
    obtain ⟨row, -, hget⟩ := Option.bind_eq_some_iff.mp hget
    obtain ⟨col, -, hget⟩ := Option.bind_eq_some_iff.mp hget
    exact ⟨row, col, hget⟩
  · cases (cropOuter?_of_not_bright hbright).symm.trans hcrop

theorem dims_le_of_cropOuter? {h : Grid} (hcrop : g.cropOuter? t = some h) :
    h.rows ≤ g.rows ∧ h.cols ≤ g.cols := by
  by_cases hbright : g.Bright t
  · obtain ⟨hrows, hcols, hselect⟩ := cropOuter?_of_bright hbright
    cases hselect.symm.trans hcrop
    have hr : (g.brightRows t).length ≤ (List.finRange g.rows).length := List.length_filter_le ..
    have hc : (g.brightCols t).length ≤ (List.finRange g.cols).length := List.length_filter_le ..
    rw [List.length_finRange] at hr hc
    exact ⟨hr, hc⟩
  · cases (cropOuter?_of_not_bright hbright).symm.trans hcrop

end Grid
end Mosaic

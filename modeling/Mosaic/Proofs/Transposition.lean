import Mosaic.Proofs.Crops
import Mosaic.Proofs.Statistics

/-!
# Crops and color figures of the transpose

Bright rows become bright columns, so both crops commute with the transpose; the color figures stay as
they are.
-/

namespace Mosaic
namespace Grid

variable {g : Grid} {t : Color}

/-! ### Crops -/

theorem rowExceeds_transpose {c : Fin g.cols} : g.transpose.rowExceeds t c = g.colExceeds t c := by
  have hrow : g.transpose.rowExceeds t c = true ↔ _ := rowExceeds_iff
  rw [Bool.eq_iff_iff, hrow, colExceeds_iff]
  simp only [get?_transpose]

theorem colExceeds_transpose {r : Fin g.rows} : g.transpose.colExceeds t r = g.rowExceeds t r := by
  have hcol : g.transpose.colExceeds t r = true ↔ _ := colExceeds_iff
  rw [Bool.eq_iff_iff, hcol, rowExceeds_iff]
  simp only [get?_transpose]

theorem brightRows_transpose : g.transpose.brightRows t = g.brightCols t :=
  List.filter_congr fun _ _ => rowExceeds_transpose

theorem brightCols_transpose : g.transpose.brightCols t = g.brightRows t :=
  List.filter_congr fun _ _ => colExceeds_transpose

theorem bright_transpose : g.transpose.Bright t ↔ g.Bright t := by
  unfold Bright
  simp only [get?_transpose]
  exact exists_comm

theorem Edges.transpose {top bottom : Fin g.rows} {left right : Fin g.cols}
    (h : g.Edges t top bottom left right) : g.transpose.Edges t left right top bottom where
  top := (congrArg List.head? brightRows_transpose).trans h.left
  bottom := (congrArg List.getLast? brightRows_transpose).trans h.right
  left := (congrArg List.head? brightCols_transpose).trans h.top
  right := (congrArg List.getLast? brightCols_transpose).trans h.bottom

theorem cropInner_transpose : g.transpose.cropInner t = (g.cropInner t).transpose := by
  by_cases h : g.Bright t
  · obtain ⟨top, bottom, left, right, hedges⟩ := exists_edges h
    rw [cropInner_of_edges hedges, transpose_box]
    exact cropInner_of_edges hedges.transpose
  · rw [cropInner_of_not_bright h, cropInner_of_not_bright (mt bright_transpose.mp h)]

theorem cropOuter?_transpose : g.transpose.cropOuter? t = (g.cropOuter? t).map transpose := by
  by_cases h : g.Bright t
  · obtain ⟨hrows, hcols, hcrop⟩ := cropOuter?_of_bright h
    obtain ⟨hrows', hcols', hcrop'⟩ := cropOuter?_of_bright (bright_transpose.mpr h)
    rw [hcrop, hcrop', Option.map_some, transpose_select]
    simp only [brightRows_transpose, brightCols_transpose]
    rfl
  · rw [cropOuter?_of_not_bright h, cropOuter?_of_not_bright (mt bright_transpose.mp h)]
    rfl

/-! ### Color figures -/

theorem InPalette.transpose (h : g.InPalette) : g.transpose.InPalette :=
  inPalette_of_perm perm_transpose.symm h

theorem tally_transpose (h : g.InPalette) : g.transpose.tally = g.tally :=
  tally_of_perm perm_transpose h.transpose

theorem figureCells_transpose : g.transpose.figureCells = g.figureCells :=
  figureCells_of_perm perm_transpose

theorem highestColor?_transpose : g.transpose.highestColor? = g.highestColor? :=
  highestColor?_of_perm perm_transpose

theorem lowestColor?_transpose : g.transpose.lowestColor? = g.lowestColor? :=
  lowestColor?_of_perm perm_transpose

end Grid
end Mosaic

import Mosaic.Proofs.Geometry
import Mosaic.Grid.Tally
import Mathlib.Data.Fintype.Prod
import Mathlib.Data.List.MinMax
import Mathlib.Logic.Equiv.Fin.Basic

/-!
# Figures that do not depend on where the cells are

Grids are rearrangements of each other when their cells are the same up to order. A one-to-one map of the
positions that keeps the colors makes one (`perm_of_equiv`). Every color figure is the same for two
rearrangements; only the color that a failed tally reports depends on the order.
-/

namespace Mosaic

/-! ### The order of the colors -/

namespace Color

theorem max_eq_ite (a b : Color) : max a b = if a ≤ b then b else a := rfl

theorem min_eq_ite (a b : Color) : min a b = if a ≤ b then a else b := rfl

instance : Std.LawfulOrderMax Color := by
  refine .of_max_le_iff (fun a b c => ?_) fun a b => ?_
  · rw [max_eq_ite]
    split <;> simp only [UInt8.le_iff_toNat_le] at * <;> omega
  · rw [max_eq_ite]
    split <;> simp

instance : Std.LawfulOrderMin Color := by
  refine .of_le_min_iff (fun a b c => ?_) fun a b => ?_
  · rw [min_eq_ite]
    split <;> simp only [UInt8.le_iff_toNat_le] at * <;> omega
  · rw [min_eq_ite]
    split <;> simp

variable {l l' : List Color}

/-- The greatest color of a list depends on its members alone. -/
theorem max?_congr (hmem : ∀ c, c ∈ l ↔ c ∈ l') : l.max? = l'.max? := by
  refine Option.ext fun c => ?_
  rw [List.max?_eq_some_iff, List.max?_eq_some_iff]
  simp only [hmem]

theorem min?_congr (hmem : ∀ c, c ∈ l ↔ c ∈ l') : l.min? = l'.min? := by
  refine Option.ext fun c => ?_
  rw [List.min?_eq_some_iff, List.min?_eq_some_iff]
  simp only [hmem]

end Color

namespace Grid

variable {g h : Grid} {color : Color}

/-! ### Cells and positions -/

/-- The cells, read at all positions. -/
theorem coe_cells : (g.cells.toList : Multiset Color) =
    (Finset.univ : Finset (Fin g.rows × Fin g.cols)).val.map fun p =>
      g.get p.1 p.2 p.1.isLt p.2.isLt := by
  have hlist : g.cells.toList = List.ofFn fun i : Fin (g.rows * g.cols) =>
      g.cells[i.cast g.size_cells.symm] := by
    refine List.ext_getElem (by simp [g.size_cells]) fun i _ _ => ?_
    rw [List.getElem_ofFn, Array.getElem_toList]
    rfl
  rw [hlist, ← Fin.univ_val_map, ← Multiset.map_univ_val_equiv finProdFinEquiv, Multiset.map_map]
  refine Multiset.map_congr rfl fun p _ => ?_
  have hindex : (p.1 : Nat) * g.cols + p.2 = (finProdFinEquiv p : Fin (g.rows * g.cols)) := by
    rw [Nat.add_comm, Nat.mul_comm]
    rfl
  simp only [get, hindex]
  rfl

theorem perm_of_equiv (e : Fin g.rows × Fin g.cols ≃ Fin h.rows × Fin h.cols)
    (he : ∀ p, g.get? p.1 p.2 = h.get? (e p).1 (e p).2) : g.cells.toList.Perm h.cells.toList := by
  rw [← Multiset.coe_eq_coe, coe_cells, coe_cells, ← Multiset.map_univ_val_equiv e, Multiset.map_map]
  refine Multiset.map_congr rfl fun p _ => ?_
  have key := he p
  rw [get?_eq_some p.1.isLt p.2.isLt, get?_eq_some (e p).1.isLt (e p).2.isLt] at key
  exact Option.some.inj key

theorem perm_transpose : g.transpose.cells.toList.Perm g.cells.toList :=
  perm_of_equiv (Equiv.prodComm ..) fun _ => get?_transpose

/-! ### Colors of the palette -/

theorem inPalette_iff_toList : g.InPalette ↔ ∀ c ∈ g.cells.toList, Color.InPalette c := by
  simp [InPalette]

theorem inPalette_of_perm (hp : g.cells.toList.Perm h.cells.toList) (hg : g.InPalette) :
    h.InPalette := by
  rw [inPalette_iff_toList] at hg ⊢
  exact fun c hc => hg c (hp.mem_iff.mpr hc)

/-! ### Figures -/

theorem tally_of_inPalette (hg : g.InPalette) :
    g.tally = .ok ⟨Vector.ofFn fun i => g.cells.count (UInt8.ofNat i)⟩ := by
  have hnone : (g.cells.find? fun c => !decide c.InPalette) = none := by
    rw [Array.find?_eq_none]
    intro c hc
    simpa using hg c hc
  rw [tally, hnone]

theorem inPalette_of_tally {t : Tally} (h : g.tally = .ok t) : g.InPalette := by
  rw [tally] at h
  split at h
  · cases h
  · rename_i hnone
    intro color hcolor
    have hin := Array.find?_eq_none.mp hnone color hcolor
    simpa using hin

theorem count_of_tally {t : Tally} (h : g.tally = .ok t) (hcolor : color.InPalette) :
    t.count color = g.cells.count color := by
  rw [tally_of_inPalette (inPalette_of_tally h)] at h
  cases h
  have hlt : color.toNat < Color.paletteSize := hcolor
  rw [Tally.count, Vector.getElem?_ofFn, dif_pos hlt, Option.getD_some, UInt8.ofNat_toNat]

theorem tally_of_perm (hp : g.cells.toList.Perm h.cells.toList) (hg : g.InPalette) :
    g.tally = h.tally := by
  rw [tally_of_inPalette hg, tally_of_inPalette (inPalette_of_perm hp hg)]
  simp only [← Array.count_toList, hp.count_eq]

theorem figureCells_of_perm (hp : g.cells.toList.Perm h.cells.toList) :
    g.figureCells = h.figureCells := by
  simp only [figureCells, ← Array.countP_toList, hp.countP_eq]

theorem perm_figureColors (hp : g.cells.toList.Perm h.cells.toList) :
    g.figureColors.Perm h.figureColors := hp.filter _

theorem highestColor?_of_perm (hp : g.cells.toList.Perm h.cells.toList) :
    g.highestColor? = h.highestColor? := Color.max?_congr fun _ => (perm_figureColors hp).mem_iff

theorem lowestColor?_of_perm (hp : g.cells.toList.Perm h.cells.toList) :
    g.lowestColor? = h.lowestColor? := Color.min?_congr fun _ => (perm_figureColors hp).mem_iff

end Grid

/-! ### Figures that are colors -/

namespace Tally

variable {t : Tally} {l : List Color} {best c : Color}

theorem foldl_argAux {r : Color → Color → Prop} [DecidableRel r] :
    l.foldl (List.argAux r) (some best) =
      some (l.foldl (fun best c => if r c best then c else best) best) := by
  induction l generalizing best with
  | nil => rfl
  | cons a rest ih =>
    rw [List.foldl_cons, List.foldl_cons, ← ih]
    congr 1
    simp only [List.argAux]
    split <;> rfl

theorem pick?_eq_foldl {r : Color → Color → Prop} [DecidableRel r] :
    pick? (fun c best => r c best) l = l.foldl (List.argAux r) none := by
  cases l with
  | nil => rfl
  | cons a rest =>
    rw [pick?, List.foldl_cons]
    simp only [decide_eq_true_eq]
    exact foldl_argAux.symm

theorem mostFrequent?_eq_argmax : t.mostFrequent? = t.presentFigures.argmax t.count := pick?_eq_foldl

theorem leastFrequent?_eq_argmin : t.leastFrequent? = t.presentFigures.argmin t.count := pick?_eq_foldl

theorem inPalette_of_presentFigures (h : c ∈ t.presentFigures) : c.InPalette :=
  Color.mem_palette_iff.mp (List.mem_of_mem_tail (List.mem_filter.mp h).1)

theorem inPalette_of_mostFrequent? (h : t.mostFrequent? = some c) : c.InPalette :=
  inPalette_of_presentFigures (List.argmax_mem (mostFrequent?_eq_argmax ▸ h))

theorem inPalette_of_leastFrequent? (h : t.leastFrequent? = some c) : c.InPalette :=
  inPalette_of_presentFigures (List.argmin_mem (leastFrequent?_eq_argmin ▸ h))

theorem figureCount_lt : t.figureCount < Color.paletteSize :=
  Nat.lt_of_le_of_lt (List.length_filter_le ..) (by decide)

end Tally

namespace Grid

variable {g : Grid} {color : Color}

theorem InPalette.highestColor (hg : g.InPalette) (h : g.highestColor? = some color) :
    color.InPalette := by
  have hmem : color ∈ g.figureColors := (List.max?_eq_some_iff.mp h).1
  exact inPalette_iff_toList.mp hg color (List.mem_filter.mp hmem).1

end Grid
end Mosaic

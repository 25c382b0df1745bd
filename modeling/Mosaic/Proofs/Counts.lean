import Mathlib.Algebra.GroupWithZero.Nat
import Mathlib.Data.Fintype.BigOperators
import Mosaic.Proofs.Rolls
import Mosaic.Proofs.Statistics
import Mosaic.Proofs.Turns
import Mosaic.Proofs.Upscales

/-!
# Color figures of rearranged and of scaled grids

Flips, turns, rolls and the transpose move the cells one to one, so that no color figure sees them. Scaling
repeats every cell as often as the product of its factors (`coe_cells_scale`): every count is multiplied by that,
and the figures that compare counts stay as they are (`Tally.IsMultiple`).
-/

namespace Mosaic

theorem Color.sum_count_palette {l : List Color} (hl : ∀ c ∈ l, c.InPalette) :
    (palette.map fun c => l.count c).sum = l.length := by
  have hnodup : palette.Nodup := by decide
  have hmem : ∀ c ∈ (l : Multiset Color), c ∈ palette.toFinset := fun c hc =>
    List.mem_toFinset.mpr (mem_palette_iff.mpr (hl c hc))
  rw [← List.sum_toFinset _ hnodup]
  simpa only [Multiset.coe_count, Multiset.coe_card] using Multiset.sum_count_eq_card hmem

namespace Grid

variable {g h : Grid} {axis : Axis} {shift k : Int} {a b n : Nat} {color : Color}

/-! ### Rearrangements -/

theorem perm_flipRows : g.flipRows.cells.toList.Perm g.cells.toList := by
  refine perm_of_equiv (Equiv.prodCongr Fin.revPerm (.refl _)) fun p => ?_
  have hmirror : (Fin.rev p.1 : Nat) = g.rows - 1 - p.1 := by
    rw [Fin.val_rev, Nat.add_comm, Nat.sub_sub]
    rfl
  refine (get?_flipRows.trans (if_pos ⟨p.1.isLt, p.2.isLt⟩)).trans ?_
  exact congrArg (g.get? · p.2) hmirror.symm

theorem perm_transpose_iff :
    g.transpose.cells.toList.Perm h.transpose.cells.toList ↔ g.cells.toList.Perm h.cells.toList :=
  ⟨fun hp => perm_transpose.symm.trans (hp.trans perm_transpose),
    fun hp => perm_transpose.trans (hp.trans perm_transpose.symm)⟩

theorem perm_flipCols : g.flipCols.cells.toList.Perm g.cells.toList := by
  rw [← perm_transpose_iff, transpose_flipCols]
  exact perm_flipRows

theorem perm_flip : (g.flip axis).cells.toList.Perm g.cells.toList := by
  cases axis with
  | rows => exact perm_flipRows
  | cols => exact perm_flipCols

/-- The positions of a cycle moved back by `a`. -/
def wrapEquiv (a : Int) (hn : 0 < n) : Fin n ≃ Fin n where
  toFun i := ⟨wrap (i - a) n, wrap_lt _ hn⟩
  invFun i := ⟨wrap (i + a) n, wrap_lt _ hn⟩
  left_inv i := Fin.ext <| by
    simpa only [Int.sub_neg, ← Int.sub_eq_add_neg] using wrap_wrap_add_sub (a := -a) i.isLt
  right_inv i := Fin.ext (wrap_wrap_add_sub i.isLt)

theorem perm_roll_rows : (g.roll shift .rows).cells.toList.Perm g.cells.toList :=
  perm_of_equiv (Equiv.prodCongr (wrapEquiv shift g.rows_pos) (.refl _)) fun p => get?_roll_rows_of_lt p.1.isLt

theorem perm_roll : (g.roll shift axis).cells.toList.Perm g.cells.toList := by
  cases axis with
  | rows => exact perm_roll_rows
  | cols =>
    rw [← perm_transpose_iff, transpose_roll]
    exact perm_roll_rows

theorem perm_turn : (g.turn k).cells.toList.Perm g.cells.toList := by
  unfold turn
  split
  · exact .refl _
  · split
    · exact quarterTurn_eq (g := g) ▸ perm_flipRows.trans perm_transpose
    · split
      · exact flipRows_flipCols (g := g) ▸ perm_flipCols.trans perm_flipRows
      · exact backTurn_eq (g := g) ▸ perm_flipCols.trans perm_transpose

/-! ### Upscales -/

theorem map_fst_product {α β γ : Type} (f : α → γ) (s : Multiset α) (t : Multiset β) :
    (s ×ˢ t).map (fun p => f p.1) = t.card • s.map f := by
  induction s using Multiset.induction_on with
  | empty => simp
  | cons x s ih =>
    rw [Multiset.cons_product, Multiset.map_add, ih, Multiset.map_map, Multiset.map_cons, Multiset.nsmul_cons,
      Multiset.nsmul_singleton]
    congr 1
    exact Multiset.map_const' t (f x)

/-- A position of a scaled grid: a position of the grid, and one of the block that its cell became. -/
def scaledPosition (rows cols a b : Nat) :
    (Fin rows × Fin cols) × (Fin a × Fin b) ≃ Fin (rows * a) × Fin (cols * b) :=
  (Equiv.prodProdProdComm ..).trans (Equiv.prodCongr finProdFinEquiv finProdFinEquiv)

theorem finProdFinEquiv_div (p : Fin n × Fin a) : (finProdFinEquiv p / a : Nat) = p.1 := by
  rw [finProdFinEquiv_apply_val, Nat.add_comm, Nat.mul_comm, index_div p.2.isLt]

/-- Every cell of a grid comes up in the scaled one as often as the product of the factors. -/
theorem coe_cells_scale {ha : 0 < a} {hb : 0 < b} :
    ((g.scale a b ha hb).cells.toList : Multiset Color) = (a * b) • (g.cells.toList : Multiset Color) := by
  have hcells : ((g.scale a b ha hb).cells.toList : Multiset Color) =
      (Finset.univ : Finset (Fin (g.rows * a) × Fin (g.cols * b))).val.map fun p =>
        g.get (p.1 / a) (p.2 / b) (div_lt_of_lt_scaled p.1.isLt) (div_lt_of_lt_scaled p.2.isLt) :=
    coe_cells.trans (Multiset.map_congr rfl fun _ _ => get_ofFn)
  have hcard : (Finset.univ : Finset (Fin a × Fin b)).val.card = a * b := by simp
  -- the positions are now pairs, and the color depends on the first part alone
  rw [hcells, ← Multiset.map_univ_val_equiv (scaledPosition g.rows g.cols a b), Multiset.map_map, coe_cells,
    ← hcard, ← map_fst_product]
  refine Multiset.map_congr rfl fun p _ => ?_
  show g.get _ _ (div_lt_of_lt_scaled (Fin.isLt _)) (div_lt_of_lt_scaled (Fin.isLt _)) = _
  exact get_congr (finProdFinEquiv_div _) (finProdFinEquiv_div _)

theorem count_scale {ha : 0 < a} {hb : 0 < b} :
    (g.scale a b ha hb).cells.count color = a * b * g.cells.count color := by
  rw [← Array.count_toList, ← Array.count_toList, ← Multiset.coe_count, ← Multiset.coe_count, coe_cells_scale,
    Multiset.count_nsmul]

theorem mem_cells_scale {ha : 0 < a} {hb : 0 < b} :
    color ∈ (g.scale a b ha hb).cells.toList ↔ color ∈ g.cells.toList := by
  rw [← Multiset.mem_coe, ← Multiset.mem_coe, coe_cells_scale, Multiset.mem_nsmul]
  exact and_iff_right (Nat.ne_of_gt (Nat.mul_pos ha hb))

theorem mem_figureColors_scale {ha : 0 < a} {hb : 0 < b} :
    color ∈ (g.scale a b ha hb).figureColors ↔ color ∈ g.figureColors := by
  rw [figureColors, figureColors, List.mem_filter, List.mem_filter, mem_cells_scale]

theorem InPalette.scale (hg : g.InPalette) {ha : 0 < a} {hb : 0 < b} : (g.scale a b ha hb).InPalette :=
  inPalette_iff_toList.mpr fun _ hc => inPalette_iff_toList.mp hg _ (mem_cells_scale.mp hc)

end Grid

/-! ### Figures of multiplied counts -/

namespace Tally

variable {t t' : Tally} {m : Nat}

/-- All counts of `t'` are `m` times those of `t`. -/
def IsMultiple (t' t : Tally) (m : Nat) : Prop := ∀ color, t'.count color = m * t.count color

theorem count_of_not_inPalette {color : Color} (h : ¬color.InPalette) : t.count color = 0 := by
  rw [count, Vector.getElem?_eq_none (Nat.le_of_not_lt h), Option.getD_none]

theorem isMultiple_one : t.IsMultiple t 1 := fun _ => (Nat.one_mul _).symm

namespace IsMultiple

section

variable (h : t'.IsMultiple t m) (hm : 0 < m)
include h hm

theorem count_lt_iff {c d : Color} : t'.count c < t'.count d ↔ t.count c < t.count d := by
  rw [h, h]
  exact Nat.mul_lt_mul_left hm

theorem count_pos_iff {c : Color} : 0 < t'.count c ↔ 0 < t.count c := by
  rw [h]
  exact Nat.mul_pos_iff_of_pos_left hm

theorem present_eq : t'.present = t.present :=
  List.filter_congr fun _ _ => decide_eq_decide.mpr (h.count_pos_iff hm)

theorem presentFigures_eq : t'.presentFigures = t.presentFigures :=
  List.filter_congr fun _ _ => decide_eq_decide.mpr (h.count_pos_iff hm)

theorem mostFrequent?_eq : t'.mostFrequent? = t.mostFrequent? := by
  rw [mostFrequent?, mostFrequent?, h.presentFigures_eq hm]
  simp only [h.count_lt_iff hm]

theorem leastFrequent?_eq : t'.leastFrequent? = t.leastFrequent? := by
  rw [leastFrequent?, leastFrequent?, h.presentFigures_eq hm]
  simp only [h.count_lt_iff hm]

theorem ranksBefore_eq : t'.ranksBefore = t.ranksBefore := by
  funext c d
  have heq : (t'.count c == t'.count d) = (t.count c == t.count d) := by
    rw [h, h, Bool.eq_iff_iff, beq_iff_eq, beq_iff_eq]
    exact Nat.mul_right_inj (Nat.ne_of_gt hm)
  rw [ranksBefore, ranksBefore, heq]
  simp only [h.count_lt_iff hm]

theorem ranking_eq : t'.ranking = t.ranking := by
  rw [ranking, ranking, h.present_eq hm, h.ranksBefore_eq hm]

end

end IsMultiple

end Tally

namespace Grid

variable {g h : Grid} {t t' : Tally} {m : Nat}

/-- Two grids and their tallies have the same colors besides the background, the same most and least frequent,
highest and lowest of them, and rank all colors alike. -/
structure SameColors (g h : Grid) (t t' : Tally) : Prop where
  figureCount : t'.figureCount = t.figureCount
  mostFrequent : t'.mostFrequent? = t.mostFrequent?
  leastFrequent : t'.leastFrequent? = t.leastFrequent?
  colorAtRank (rank : Nat) : t'.colorAtRank? rank = t.colorAtRank? rank
  highest : h.highestColor? = g.highestColor?
  lowest : h.lowestColor? = g.lowestColor?

theorem SameColors.of_isMultiple (htallies : t'.IsMultiple t m) (hm : 0 < m)
    (hcolors : ∀ c, c ∈ h.figureColors ↔ c ∈ g.figureColors) : SameColors g h t t' where
  figureCount := congrArg List.length (htallies.presentFigures_eq hm)
  mostFrequent := htallies.mostFrequent?_eq hm
  leastFrequent := htallies.leastFrequent?_eq hm
  colorAtRank rank := congrArg (·[rank]?) (htallies.ranking_eq hm)
  highest := Color.max?_congr hcolors
  lowest := Color.min?_congr hcolors

theorem SameColors.of_perm (hp : h.cells.toList.Perm g.cells.toList) : SameColors g h t t :=
  .of_isMultiple Tally.isMultiple_one Nat.one_pos fun _ => (perm_figureColors hp).mem_iff

theorem isMultiple_scale {a b : Nat} {ha : 0 < a} {hb : 0 < b} (ht : g.tally = .ok t)
    (ht' : (g.scale a b ha hb).tally = .ok t') : t'.IsMultiple t (a * b) := by
  intro color
  by_cases hcolor : color.InPalette
  · rw [count_of_tally ht hcolor, count_of_tally ht' hcolor, count_scale]
  · rw [Tally.count_of_not_inPalette hcolor, Tally.count_of_not_inPalette hcolor, Nat.mul_zero]

/-! ### Sums of counts -/

theorem length_cells : g.cells.toList.length = g.rows * g.cols := by
  rw [Array.length_toList, g.size_cells]

theorem sum_counts (ht : g.tally = .ok t) : (Color.palette.map t.count).sum = g.rows * g.cols := by
  have hcount : ∀ c ∈ Color.palette, t.count c = g.cells.toList.count c := fun c hc => by
    rw [count_of_tally ht (Color.mem_palette_iff.mp hc), Array.count_toList]
  rw [List.map_congr_left hcount, Color.sum_count_palette (inPalette_iff_toList.mp (inPalette_of_tally ht)),
    length_cells]

/-- Every cell is background or is not. -/
theorem figureCells_add_count : g.figureCells + g.cells.count Color.background = g.rows * g.cols := by
  have hsplit := List.length_eq_countP_add_countP (· == Color.background) (l := g.cells.toList)
  rw [length_cells] at hsplit
  rw [figureCells, ← Array.countP_toList, ← Array.count_toList, hsplit, Nat.add_comm]
  simp only [List.count, bne, Bool.not_eq_true, Bool.decide_eq_false]

theorem figureCells_eq (ht : g.tally = .ok t) : g.figureCells = g.rows * g.cols - t.count Color.background := by
  rw [count_of_tally ht Color.background_inPalette]
  exact Nat.eq_sub_of_add_eq figureCells_add_count

/-! ### The figures -/

theorem perm_of_mem_rearranged {axis : Axis} {shift k : Int}
    (hh : h ∈ [g.flip axis, g.turn k, g.roll shift axis, g.transpose]) : h.cells.toList.Perm g.cells.toList := by
  simp only [List.mem_cons, List.not_mem_nil, or_false] at hh
  rcases hh with rfl | rfl | rfl | rfl
  · exact perm_flip
  · exact perm_turn
  · exact perm_roll
  · exact perm_transpose

/-- No flip, turn, roll or transpose of a grid changes any of its counts, and scaling multiplies them by the product
of the factors; the figures on colors are the same for all of these. The counts of all colors make up the grid, and
those of all but the background are the cells that are not background. -/
theorem color_statistics (g : Grid) (hg : g.InPalette) :
    ∃ t, g.tally = .ok t ∧ (∀ c ∈ Color.palette, t.count c = g.cells.count c) ∧
      (∀ (axis : Axis) (shift k : Int), ∀ h ∈ [g.flip axis, g.turn k, g.roll shift axis, g.transpose],
        h.tally = .ok t ∧ SameColors g h t t) ∧
      (∀ a b, 1 ≤ a → 1 ≤ b → ∃ h t', g.upscale? a b = some h ∧ h.tally = .ok t' ∧
        (∀ c, t'.count c = a * b * t.count c) ∧ SameColors g h t t') ∧
      (Color.palette.map t.count).sum = g.rows * g.cols ∧
      g.figureCells = g.rows * g.cols - t.count Color.background := by
  obtain ⟨t, ht⟩ : ∃ t, g.tally = .ok t := ⟨_, tally_of_inPalette hg⟩
  refine ⟨t, ht, fun c hc => count_of_tally ht (Color.mem_palette_iff.mp hc), fun axis shift k h hh => ?_,
    fun a b ha hb => ?_, sum_counts ht, figureCells_eq ht⟩
  · have hp := perm_of_mem_rearranged hh
    exact ⟨(tally_of_perm hp.symm hg).symm.trans ht, .of_perm hp⟩
  · obtain ⟨t', ht'⟩ : ∃ t', (g.scale a b ha hb).tally = .ok t' := ⟨_, tally_of_inPalette hg.scale⟩
    have hmultiple := isMultiple_scale ht ht'
    exact ⟨_, t', upscale?_of_pos ha hb, ht', hmultiple,
      .of_isMultiple hmultiple (Nat.mul_pos ha hb) fun _ => mem_figureColors_scale⟩

/-- Three of the color 3, two background cells and one of the color 5: rolled five places on, nothing is counted
differently, and scaled by 2 and 3, the color 3 comes up eighteen times and is still the most frequent one. -/
theorem color_statistics_six_cells :
    let g : Grid := ⟨2, 3, #[0, 3, 3, 5, 3, 0], by decide, by decide, rfl⟩
    g.InPalette ∧ (g.roll 5 .cols).tally = g.tally ∧
      ∃ h t, g.upscale? 2 3 = some h ∧ h.tally = .ok t ∧ t.count 3 = 18 ∧ t.mostFrequent? = some 3 ∧
        h.highestColor? = some 5 := by
  intro g
  have hg : g.InPalette := by decide
  have htally : g.tally = .ok ⟨#v[2, 0, 0, 3, 0, 1, 0, 0, 0, 0]⟩ := by decide +kernel
  obtain ⟨t, ht, -, hmoved, hscaled, -, -⟩ := color_statistics g hg
  cases ht.symm.trans htally
  obtain ⟨h, t', hup, ht', hcount, hsame⟩ := hscaled 2 3 (by decide) (by decide)
  have hroll := (hmoved .cols 5 0 (g.roll 5 .cols) (by simp)).1
  refine ⟨hg, hroll.trans ht.symm, h, t', hup, ht', (hcount 3).trans (by decide), ?_, ?_⟩
  · exact hsame.mostFrequent.trans (by decide)
  · exact hsame.highest.trans (by decide)

end Grid
end Mosaic

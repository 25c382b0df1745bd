import Mathlib.Data.Finset.Card
import Mosaic.Proofs.Counts
import Mosaic.Stage.Query

/-!
# The ranking of the colors

Of two colors the more frequent one comes first, and of two as frequent ones the lower (`Color.Outranks`). The
ranking sorts by this order, in which no two colors are equal, so that every color of the grid has one rank in it.
The most frequent color is picked and the least frequent one too without sorting; that they agree with the
ranking, ties included, is because colors are gone through in ascending order (`idxOf_le_idxOf_iff`).
-/

namespace Mosaic

namespace Color

variable {count : Color → Nat} {a b c : Color} {l : List Color}

/-- `a` comes before `b` by their counts: it is more frequent, or as frequent and lower. -/
def Outranks (count : Color → Nat) (a b : Color) : Prop := count b < count a ∨ count a = count b ∧ a < b

namespace Outranks

theorem asymm (h : Outranks count a b) : ¬Outranks count b a := by
  simp only [Outranks, UInt8.lt_iff_toNat_lt] at *
  omega

theorem iff_of_ne (h : b ≠ a) : Outranks count a b ↔ count b ≤ count a ∧ (count b = count a → a ≤ b) := by
  simp only [Outranks, UInt8.lt_iff_toNat_lt, UInt8.le_iff_toNat_le, ne_eq, ← UInt8.toNat_inj] at *
  omega

/-- A color comes before all others of a list when none of them occurs more often and none as often is lower. -/
theorem forall_iff : (∀ b ∈ l, b ≠ a → Outranks count a b) ↔
    (∀ b ∈ l, count b ≤ count a) ∧ ∀ b ∈ l, count b = count a → a ≤ b := by
  rw [← forall₂_and]
  refine forall₂_congr fun b _ => ?_
  by_cases h : b = a
  · subst h
    simp
  · rw [← iff_of_ne h]
    exact forall_prop_of_true h

end Outranks

/-! ### Ordered lists -/

theorem lt_of_idxOf_lt (hl : l.Pairwise (· < ·)) (ha : a ∈ l) (hb : b ∈ l) (h : l.idxOf a < l.idxOf b) :
    a < b := by
  have hpair := List.pairwise_iff_getElem.mp hl _ _ (List.idxOf_lt_length_iff.mpr ha)
    (List.idxOf_lt_length_iff.mpr hb) h
  rwa [List.getElem_idxOf, List.getElem_idxOf] at hpair

/-- Where colors ascend, the lower one of two stands first. -/
theorem idxOf_le_idxOf_iff (hl : l.Pairwise (· < ·)) (ha : a ∈ l) (hb : b ∈ l) :
    l.idxOf a ≤ l.idxOf b ↔ a ≤ b := by
  constructor
  · intro h
    rcases Nat.lt_or_eq_of_le h with hlt | heq
    · exact UInt8.le_of_lt (lt_of_idxOf_lt hl ha hb hlt)
    · exact (List.idxOf_inj ha).mp heq ▸ UInt8.le_refl a
  · intro h
    exact Nat.le_of_not_lt fun hgt => UInt8.not_le.mpr (lt_of_idxOf_lt hl hb ha hgt) h

/-- The first of a list that is in strict order comes before all others. -/
theorem head?_eq_some_iff_of_pairwise (hl : l.Pairwise (Outranks count)) :
    l.head? = some a ↔ a ∈ l ∧ ∀ b ∈ l, b ≠ a → Outranks count a b := by
  cases l with
  | nil => simp
  | cons first rest =>
    obtain ⟨hfirst, -⟩ := List.pairwise_cons.mp hl
    rw [List.head?_cons, Option.some.injEq]
    constructor
    · rintro rfl
      refine ⟨List.mem_cons_self, fun b hb hne => hfirst b ?_⟩
      exact (List.mem_cons.mp hb).resolve_left hne
    · rintro ⟨ha, hbefore⟩
      rcases List.mem_cons.mp ha with rfl | ha
      · rfl
      · by_contra hne
        exact (hfirst a ha).asymm (hbefore first List.mem_cons_self hne)

end Color

/-! ### Picking -/

namespace Tally

open Color

variable {t : Tally} {a c : Color}

theorem pairwise_presentFigures : t.presentFigures.Pairwise (· < ·) :=
  List.Pairwise.filter _ (by decide)

theorem mostFrequent?_eq_some_iff : t.mostFrequent? = some c ↔
    c ∈ t.presentFigures ∧ (∀ d ∈ t.presentFigures, t.count d ≤ t.count c) ∧
      ∀ d ∈ t.presentFigures, t.count d = t.count c → c ≤ d := by
  rw [mostFrequent?_eq_argmax, List.argmax_eq_some_iff]
  refine and_congr_right fun hc => and_congr_right fun hmax => forall₂_congr fun d hd => ?_
  rw [idxOf_le_idxOf_iff pairwise_presentFigures hc hd, (hmax d hd).ge_iff_eq]

theorem leastFrequent?_eq_some_iff : t.leastFrequent? = some c ↔
    c ∈ t.presentFigures ∧ (∀ d ∈ t.presentFigures, t.count c ≤ t.count d) ∧
      ∀ d ∈ t.presentFigures, t.count d = t.count c → c ≤ d := by
  rw [leastFrequent?_eq_argmin, List.argmin_eq_some_iff]
  refine and_congr_right fun hc => and_congr_right fun hmin => forall₂_congr fun d hd => ?_
  rw [idxOf_le_idxOf_iff pairwise_presentFigures hc hd, (hmin d hd).ge_iff_eq, eq_comm]

theorem mostFrequent?_eq_none_iff : t.mostFrequent? = none ↔ t.presentFigures = [] := by
  rw [mostFrequent?_eq_argmax, List.argmax_eq_none]

theorem leastFrequent?_eq_none_iff : t.leastFrequent? = none ↔ t.presentFigures = [] := by
  rw [leastFrequent?_eq_argmin, List.argmin_eq_none]

theorem figureCount_eq_zero_iff : t.figureCount = 0 ↔ t.presentFigures = [] := List.length_eq_zero_iff

/-! ### Sorting -/

theorem ranksBefore_iff : t.ranksBefore a c = true ↔ t.count c < t.count a ∨ t.count a = t.count c ∧ a ≤ c := by
  simp only [ranksBefore, Bool.or_eq_true, Bool.and_eq_true, decide_eq_true_eq, beq_iff_eq]

theorem ranksBefore_trans {b : Color} (h : t.ranksBefore a b = true) (h' : t.ranksBefore b c = true) :
    t.ranksBefore a c = true := by
  simp only [ranksBefore_iff, UInt8.le_iff_toNat_le] at *
  omega

theorem ranksBefore_total : (t.ranksBefore a c || t.ranksBefore c a) = true := by
  simp only [Bool.or_eq_true, ranksBefore_iff, UInt8.le_iff_toNat_le]
  omega

theorem outranks_of_ranksBefore (h : t.ranksBefore a c = true) (hne : a ≠ c) : Outranks t.count a c :=
  (ranksBefore_iff.mp h).imp_right fun ⟨heq, hle⟩ => ⟨heq, UInt8.lt_of_le_of_ne hle hne⟩

theorem nodup_ranking : t.ranking.Nodup :=
  (List.mergeSort_perm ..).symm.nodup (List.Nodup.filter _ (by decide))

theorem pairwise_ranking : t.ranking.Pairwise (Outranks t.count) := by
  have hsorted : t.ranking.Pairwise fun a b => t.ranksBefore a b = true :=
    @List.pairwise_mergeSort _ t.ranksBefore (fun _ _ _ => ranksBefore_trans) (fun _ _ => ranksBefore_total) _
  exact hsorted.imp₂ (fun _ _ => outranks_of_ranksBefore) nodup_ranking

theorem length_ranking_le : t.ranking.length ≤ paletteSize := by
  rw [ranking, List.length_mergeSort]
  exact List.length_filter_le ..

theorem mem_ranking : c ∈ t.ranking ↔ c.InPalette ∧ 0 < t.count c := by
  rw [ranking, List.mem_mergeSort, present, List.mem_filter, mem_palette_iff, decide_eq_true_iff]

/-- Without the background, the ranking holds the figures in another order. -/
theorem perm_presentFigures : (t.ranking.filter (· != background)).Perm t.presentFigures := by
  have hfigures : palette.filter (· != background) = figures := by decide
  rw [presentFigures, ← hfigures, List.filter_comm]
  exact (List.mergeSort_perm ..).filter _

theorem mostFrequent?_eq_find? : t.mostFrequent? = t.ranking.find? (· != background) := by
  refine Option.ext fun c => ?_
  rw [← List.head?_filter, head?_eq_some_iff_of_pairwise (pairwise_ranking.filter _), Outranks.forall_iff,
    mostFrequent?_eq_some_iff]
  simp only [perm_presentFigures.mem_iff]

theorem figureCount_eq_countP : t.figureCount = t.ranking.countP (· != background) := by
  rw [List.countP_eq_length_filter, perm_presentFigures.length_eq, figureCount]

end Tally

namespace Grid

open Color

variable {g : Grid} {t : Tally} {color : Color} {x y : Nat}

/-! ### Colors that occur -/

/-- The different colors besides the background. -/
def figureKinds (g : Grid) : Finset Color := g.cells.toList.toFinset.erase Color.background

theorem mem_figureKinds : color ∈ g.figureKinds ↔ color ≠ Color.background ∧ color ∈ g.cells := by
  rw [figureKinds, Finset.mem_erase, List.mem_toFinset, Array.mem_toList_iff]

/-- A tally has the number of any color, be it of the palette or not. -/
theorem count_tally (h : g.tally = .ok t) : t.count = (g.cells.count ·) := by
  funext c
  by_cases hin : c.InPalette
  · exact count_of_tally h hin
  · rw [Tally.count_of_not_inPalette hin]
    exact (Array.count_eq_zero.mpr fun hmem => hin (inPalette_of_tally h c hmem)).symm

theorem mem_ranking (h : g.tally = .ok t) : color ∈ t.ranking ↔ color ∈ g.cells := by
  rw [Tally.mem_ranking, count_tally h, Array.count_pos_iff]
  exact and_iff_right_of_imp (inPalette_of_tally h color)

theorem mem_presentFigures (h : g.tally = .ok t) : color ∈ t.presentFigures ↔ color ∈ g.figureKinds := by
  rw [← Tally.perm_presentFigures.mem_iff, List.mem_filter, mem_ranking h, mem_figureKinds, bne_iff_ne, and_comm]

/-- A tally counts every color of its grid once. -/
theorem figureCount_of_tally (h : g.tally = .ok t) : t.figureCount = g.figureKinds.card := by
  have hnodup : t.presentFigures.Nodup := List.Nodup.filter _ (by decide)
  have hkinds : t.presentFigures.toFinset = g.figureKinds := by
    ext color
    rw [List.mem_toFinset, mem_presentFigures h]
  rw [← hkinds, List.toFinset_card_of_nodup hnodup, Tally.figureCount]

theorem length_ranking (h : g.tally = .ok t) : t.ranking.length = g.cells.toList.toFinset.card := by
  have hkinds : t.ranking.toFinset = g.cells.toList.toFinset := by
    ext color
    rw [List.mem_toFinset, List.mem_toFinset, mem_ranking h, Array.mem_toList_iff]
  rw [← hkinds, List.toFinset_card_of_nodup Tally.nodup_ranking]

/-! ### Figures of a grid -/

/-- `ranks` holds every color of the grid once, in strict order. -/
structure ListsByRank (g : Grid) (ranks : List Color) : Prop where
  mem_iff (c : Color) : c ∈ ranks ↔ c ∈ g.cells
  nodup : ranks.Nodup
  length_eq : ranks.length = g.cells.toList.toFinset.card
  descending : ranks.Pairwise (Outranks (g.cells.count ·))

/-- No cell stands out from the background. -/
def IsBlank (g : Grid) : Prop := ∀ c ∈ g.cells, c = background

/-- The lowest of the colors that occur least, the background left out. -/
structure Rarest (g : Grid) (color : Color) : Prop where
  mem : color ∈ g.cells
  ne_background : color ≠ background
  count_le {c : Color} : c ∈ g.cells → c ≠ background → g.cells.count color ≤ g.cells.count c
  le {c : Color} : c ∈ g.cells → c ≠ background → g.cells.count c = g.cells.count color → color ≤ c

theorem listsByRank_ranking (h : g.tally = .ok t) : g.ListsByRank t.ranking where
  mem_iff _ := mem_ranking h
  nodup := Tally.nodup_ranking
  length_eq := length_ranking h
  descending := count_tally h ▸ Tally.pairwise_ranking

theorem presentFigures_eq_nil_iff (h : g.tally = .ok t) : t.presentFigures = [] ↔ g.IsBlank := by
  rw [List.eq_nil_iff_forall_not_mem]
  simp only [mem_presentFigures h, mem_figureKinds, IsBlank]
  exact forall_congr' fun c => by rw [not_and, not_imp_not]

theorem leastFrequent?_eq_some_iff (h : g.tally = .ok t) : t.leastFrequent? = some color ↔ g.Rarest color := by
  rw [Tally.leastFrequent?_eq_some_iff]
  simp only [mem_presentFigures h, mem_figureKinds, count_tally h]
  constructor
  · rintro ⟨⟨hne, hmem⟩, hcount, hle⟩
    exact ⟨hmem, hne, fun hc hc' => hcount _ ⟨hc', hc⟩, fun hc hc' => hle _ ⟨hc', hc⟩⟩
  · intro hrarest
    exact ⟨⟨hrarest.ne_background, hrarest.mem⟩, fun _ hd => hrarest.count_le hd.2 hd.1,
      fun _ hd => hrarest.le hd.2 hd.1⟩

/-! ### Queries about the color of a cell -/

theorem evaluate_color (hget : g.get? x y = some color) (c : Color) :
    (Query.color c).evaluate g x y = .ok (some color == some c) := by
  rw [Query.evaluate, hget]
  rfl

theorem evaluate_bincountSorted (h : g.tally = .ok t) (hget : g.get? x y = some color) (rank : UInt8) :
    (Query.bincountSorted rank).evaluate g x y = .ok (some color == t.ranking[rank.toNat]?) := by
  rw [Query.evaluate, hget]
  simp only [Query.criterion, h]
  rfl

theorem existsUnique_color (hget : g.get? x y = some color) :
    ∃! c, (Query.color c).evaluate g x y = .ok true := by
  simp only [evaluate_color hget, Except.ok.injEq, beq_iff_eq, Option.some.injEq]
  exact existsUnique_eq'

theorem existsUnique_rank (h : g.tally = .ok t) (hget : g.get? x y = some color) :
    ∃! rank, (Query.bincountSorted rank).evaluate g x y = .ok true := by
  simp only [evaluate_bincountSorted h hget, Except.ok.injEq, beq_iff_eq]
  obtain ⟨n, hn⟩ := List.mem_iff_getElem?.mp ((mem_ranking h).mpr (mem_cells_iff.mpr ⟨x, y, hget⟩))
  have hlt : n < t.ranking.length := (List.getElem?_eq_some_iff.mp hn).1
  -- ten colors do not exceed the ranks that a byte can name
  have hrank : (UInt8.ofNat n).toNat = n :=
    UInt8.toNat_ofNat_of_lt' (Nat.lt_of_lt_of_le hlt (Tally.length_ranking_le.trans (by decide)))
  refine ⟨UInt8.ofNat n, ?_, fun rank hother => ?_⟩
  · dsimp only
    rw [hrank, hn]
  · have hsame : n = rank.toNat := (List.getElem?_inj hlt Tally.nodup_ranking).mp (hn.trans hother)
    rw [hsame, UInt8.ofNat_toNat]

/-- Every color of a grid has one rank: of two colors the more frequent one, and of two as frequent ones the lower,
has the lower rank, and no further rank is given. Without the background, the first by rank is the most frequent
color and their number is that of the figures; the least frequent one is the lowest of those that occur least. A
grid that is all background has no such colors, and no other grid is without them. Every cell is selected by the
query for one color and by that for one rank. -/
theorem color_ranking (g : Grid) (hg : g.InPalette) :
    ∃ t, g.tally = .ok t ∧ ∃ ranks, g.ListsByRank ranks ∧ (∀ n, t.colorAtRank? n = ranks[n]?) ∧
      t.mostFrequent? = ranks.find? (· != background) ∧
      (∀ c, t.leastFrequent? = some c ↔ g.Rarest c) ∧
      t.figureCount = ranks.countP (· != background) ∧
      (t.mostFrequent? = none ↔ g.IsBlank) ∧ (t.leastFrequent? = none ↔ g.IsBlank) ∧
      (t.figureCount = 0 ↔ g.IsBlank) ∧
      ∀ x y, x < g.rows → y < g.cols →
        (∃! rank, (Query.bincountSorted rank).evaluate g x y = .ok true) ∧
        ∃! c, (Query.color c).evaluate g x y = .ok true := by
  obtain ⟨t, ht⟩ : ∃ t, g.tally = .ok t := ⟨_, tally_of_inPalette hg⟩
  have hblank := presentFigures_eq_nil_iff ht
  refine ⟨t, ht, t.ranking, listsByRank_ranking ht, fun n => rfl, Tally.mostFrequent?_eq_find?,
    fun c => leastFrequent?_eq_some_iff ht, Tally.figureCount_eq_countP,
    Tally.mostFrequent?_eq_none_iff.trans hblank, Tally.leastFrequent?_eq_none_iff.trans hblank,
    Tally.figureCount_eq_zero_iff.trans hblank, fun x y hx hy => ?_⟩
  have hget := get?_eq_some hx hy
  exact ⟨existsUnique_rank ht hget, existsUnique_color hget⟩

/-- Two colors come up twice, and the background and another one once: the lower of the first two is the most frequent
color, but of the other two the background does not count as the least frequent one. -/
theorem color_ranking_two_ties :
    let g : Grid := ⟨2, 3, #[5, 3, 0, 3, 5, 7], by decide, by decide, rfl⟩
    g.InPalette ∧ ∃ t, g.tally = .ok t ∧ ∃ ranks, g.ListsByRank ranks ∧ ranks.length = 4 ∧
      ranks.find? (· != background) = some 3 ∧ g.Rarest 7 ∧ ranks.countP (· != background) = 3 ∧ ¬g.IsBlank ∧
      ∃! rank, (Query.bincountSorted rank).evaluate g 1 1 = .ok true := by
  intro g
  have hg : g.InPalette := by decide
  have htally : g.tally = .ok ⟨#v[1, 0, 0, 2, 0, 2, 0, 1, 0, 0]⟩ := by decide +kernel
  obtain ⟨t, ht, ranks, hranks, -, hmost, hleast, hcount, hblank, -, -, hcell⟩ := color_ranking g hg
  cases ht.symm.trans htally
  refine ⟨hg, _, ht, ranks, hranks, hranks.length_eq.trans (by decide), ?_, ?_, ?_, ?_, ?_⟩
  · exact hmost.symm.trans (by decide)
  · exact (hleast 7).mp (by decide)
  · exact hcount.symm.trans (by decide)
  · exact fun h => absurd (hblank.mpr h) (by decide)
  · exact (hcell 1 1 (by decide) (by decide)).1

end Grid
end Mosaic

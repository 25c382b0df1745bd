import Mathlib.Data.List.Sort
import Mosaic.Proofs.Transposition

/-!
# Grids cut out of a grid

A grid is cut out of another one when its rows and its columns are some rows and columns of the other, in their
order. A cut that shows every bright cell has the bright lines of the grid (`Covers.brightRow_iff`). The least
contiguous one is the inner crop, and the one without any dark line is the outer crop: there is at most one of
each (`Bounds.unique`, `Gathers.unique`), and the crops are such (`exists_bounds`, `cropOuter?_eq_some_iff`).
-/

namespace Mosaic

/-! ### Choices of lines -/

/-- `f` numbers lines, `n` of `m`, in their order. -/
structure Rising (n m : Nat) (f : Nat → Nat) : Prop where
  lt {i : Nat} : i < n → f i < m
  mono {i j : Nat} : i < j → j < n → f i < f j

namespace Rising

variable {n m k n' m' i j : Nat} {f f' : Nat → Nat}

theorem inj (h : Rising n m f) (hi : i < n) (hj : j < n) (heq : f i = f j) : i = j := by
  rcases Nat.lt_trichotomy i j with hlt | rfl | hlt
  · exact absurd heq (Nat.ne_of_lt (h.mono hlt hj))
  · rfl
  · exact absurd heq (Nat.ne_of_gt (h.mono hlt hi))

theorem add (h : k + n ≤ m) : Rising n m (k + ·) where
  lt hi := by omega
  mono hij _ := Nat.add_lt_add_left hij k

theorem pairwise_map (h : Rising n m f) : ((List.range n).map f).Pairwise (· < ·) := by
  rw [List.pairwise_map]
  exact List.pairwise_lt_range.imp_of_mem fun _ hj hij => h.mono hij (List.mem_range.mp hj)

/-- What lines are chosen determines how they are numbered. -/
theorem eq_of_image (h : Rising n m f) (h' : Rising n' m' f')
    (himage : ∀ k, (∃ i < n, f i = k) ↔ ∃ i < n', f' i = k) : n = n' ∧ ∀ i < n, f i = f' i := by
  have hlist : (List.range n).map f = (List.range n').map f' :=
    h.pairwise_map.eq_of_mem_iff h'.pairwise_map fun k => by simpa using himage k
  have hlen : n = n' := by simpa using congrArg List.length hlist
  refine ⟨hlen, fun i hi => ?_⟩
  have hget := congrArg (·[i]?) hlist
  simpa [hi, hlen ▸ hi] using hget

end Rising

namespace Grid

variable {g h h' k : Grid} {t : Color} {row col row' col' : Nat → Nat} {r c top top' left left' : Nat}

/-! ### Cuts -/

/-- `h` shows the rows `row` and the columns `col` of `g`, in the order of `g`. -/
structure Cut (g h : Grid) (row col : Nat → Nat) : Prop where
  rows : Rising h.rows g.rows row
  cols : Rising h.cols g.cols col
  shows {r c : Nat} : r < h.rows → c < h.cols → h.get? r c = g.get? (row r) (col c)

theorem Cut.transpose (hcut : Cut g h row col) : Cut g.transpose h.transpose col row where
  rows := hcut.cols
  cols := hcut.rows
  shows hr hc := by rw [get?_transpose, get?_transpose, hcut.shows hc hr]

theorem Cut.eq (hcut : Cut g h row col) (hcut' : Cut g h' row' col') (hrows : h.rows = h'.rows)
    (hcols : h.cols = h'.cols) (hrow : ∀ r < h.rows, row r = row' r) (hcol : ∀ c < h.cols, col c = col' c) :
    h = h' := by
  refine ext_get?_of_lt (Prod.ext hrows hcols) fun r hr c hc => ?_
  rw [hcut.shows hr hc, hcut'.shows (hrows ▸ hr) (hcols ▸ hc), hrow r hr, hcol c hc]

/-! ### Bright lines -/

/-- Row `r` holds a cell that exceeds `t`. -/
def BrightRow (g : Grid) (t : Color) (r : Nat) : Prop := ∃ c color, g.get? r c = some color ∧ t < color

def BrightCol (g : Grid) (t : Color) (c : Nat) : Prop := ∃ r color, g.get? r c = some color ∧ t < color

theorem brightRow_transpose : g.transpose.BrightRow t r ↔ g.BrightCol t r := by
  simp only [BrightRow, BrightCol, get?_transpose]

theorem brightCol_transpose : g.transpose.BrightCol t c ↔ g.BrightRow t c := by
  simp only [BrightRow, BrightCol, get?_transpose]

theorem BrightRow.lt (h : g.BrightRow t r) : r < g.rows := by
  obtain ⟨c, color, hget, -⟩ := h
  exact (get?_eq_some_iff.mp hget).1

theorem BrightCol.lt (h : g.BrightCol t c) : c < g.cols := by
  obtain ⟨r, color, hget, -⟩ := h
  exact (get?_eq_some_iff.mp hget).2.1

/-! ### Cuts that show every bright cell -/

/-- A cut in which no cell that exceeds `t` is left out. -/
structure Covers (g h : Grid) (t : Color) (row col : Nat → Nat) : Prop extends Cut g h row col where
  covers {r c : Nat} {color : Color} : g.get? r c = some color → t < color →
    (∃ i < h.rows, row i = r) ∧ ∃ j < h.cols, col j = c

namespace Covers

theorem transpose (hcov : Covers g h t row col) : Covers g.transpose h.transpose t col row where
  toCut := hcov.toCut.transpose
  covers hget hlt := (hcov.covers (get?_transpose.symm.trans hget) hlt).symm

/-- The bright rows of a grid are those that a cut shows as bright. -/
theorem brightRow_iff (hcov : Covers g h t row col) :
    g.BrightRow t r ↔ ∃ i < h.rows, row i = r ∧ h.BrightRow t i := by
  constructor
  · rintro ⟨c, color, hget, hlt⟩
    obtain ⟨⟨i, hi, rfl⟩, j, hj, rfl⟩ := hcov.covers hget hlt
    exact ⟨i, hi, rfl, j, color, (hcov.shows hi hj).trans hget, hlt⟩
  · rintro ⟨i, hi, rfl, j, color, hget, hlt⟩
    have hj : j < h.cols := (get?_eq_some_iff.mp hget).2.1
    exact ⟨col j, color, (hcov.shows hi hj).symm.trans hget, hlt⟩

theorem brightCol_iff (hcov : Covers g h t row col) :
    g.BrightCol t c ↔ ∃ j < h.cols, col j = c ∧ h.BrightCol t j := by
  rw [← brightRow_transpose, hcov.transpose.brightRow_iff]
  simp only [brightRow_transpose]
  rfl

theorem brightRow_row_iff (hcov : Covers g h t row col) (hr : r < h.rows) :
    g.BrightRow t (row r) ↔ h.BrightRow t r := by
  rw [hcov.brightRow_iff]
  constructor
  · rintro ⟨i, hi, heq, hbright⟩
    exact hcov.rows.inj hi hr heq ▸ hbright
  · intro hbright
    exact ⟨r, hr, rfl, hbright⟩

theorem bright_iff (hcov : Covers g h t row col) : h.Bright t ↔ g.Bright t := by
  constructor
  · rintro ⟨r, hbright⟩
    exact ⟨row r, (hcov.brightRow_row_iff (BrightRow.lt hbright)).mpr hbright⟩
  · rintro ⟨r, hbright⟩
    obtain ⟨i, -, -, hbright⟩ := hcov.brightRow_iff.mp hbright
    exact ⟨i, hbright⟩

end Covers

/-! ### The least box -/

/-- A contiguous cut, from row `top` and column `left` on, that shows every cell that exceeds `t` and whose
first and last rows and columns hold such a cell. -/
structure Bounds (g h : Grid) (t : Color) (top left : Nat) : Prop extends
    Covers g h t (top + ·) (left + ·) where
  first_row : h.BrightRow t 0
  last_row : h.BrightRow t (h.rows - 1)
  first_col : h.BrightCol t 0
  last_col : h.BrightCol t (h.cols - 1)

namespace Bounds

theorem transpose (hb : Bounds g h t top left) : Bounds g.transpose h.transpose t left top where
  toCovers := hb.toCovers.transpose
  first_row := brightRow_transpose.mpr hb.first_col
  last_row := brightRow_transpose.mpr hb.last_col
  first_col := brightCol_transpose.mpr hb.first_row
  last_col := brightCol_transpose.mpr hb.last_row

/-- No other contiguous cut that shows every bright cell has fewer rows above or below. -/
theorem rows_within (hb : Bounds g h t top left) (hcov : Covers g k t (top' + ·) (left' + ·)) :
    top' ≤ top ∧ top + h.rows ≤ top' + k.rows := by
  have hfirst : g.BrightRow t (top + 0) := (hb.brightRow_row_iff h.rows_pos).mpr hb.first_row
  have hlast : g.BrightRow t (top + (h.rows - 1)) :=
    (hb.brightRow_row_iff (Nat.sub_one_lt_of_lt h.rows_pos)).mpr hb.last_row
  obtain ⟨i, hi, heq, -⟩ := hcov.brightRow_iff.mp hfirst
  obtain ⟨j, hj, heq', -⟩ := hcov.brightRow_iff.mp hlast
  have := h.rows_pos
  omega

theorem cols_within (hb : Bounds g h t top left) (hcov : Covers g k t (top' + ·) (left' + ·)) :
    left' ≤ left ∧ left + h.cols ≤ left' + k.cols := hb.transpose.rows_within hcov.transpose

theorem unique (hb : Bounds g h t top left) (hb' : Bounds g h' t top' left') :
    top = top' ∧ left = left' ∧ h = h' := by
  have hrows := hb.rows_within hb'.toCovers
  have hrows' := hb'.rows_within hb.toCovers
  have hcols := hb.cols_within hb'.toCovers
  have hcols' := hb'.cols_within hb.toCovers
  have htop : top = top' := by omega
  have hleft : left = left' := by omega
  subst htop hleft
  exact ⟨rfl, rfl, hb.toCut.eq hb'.toCut (by omega) (by omega) (fun _ _ => rfl) fun _ _ => rfl⟩

end Bounds

section

variable {n : Nat} {l : List (Fin n)} {a b x : Fin n}

theorem head_le (hl : l.Pairwise (· < ·)) (ha : l.head? = some a) (hx : x ∈ l) : a ≤ x := by
  obtain ⟨rest, rfl⟩ := List.head?_eq_some_iff.mp ha
  rcases List.mem_cons.mp hx with rfl | hx
  · exact Fin.le_refl x
  · exact Fin.le_of_lt (List.rel_of_pairwise_cons hl hx)

theorem le_getLast (hl : l.Pairwise (· < ·)) (hb : l.getLast? = some b) (hx : x ∈ l) : x ≤ b := by
  obtain ⟨front, rfl⟩ := List.getLast?_eq_some_iff.mp hb
  rcases List.mem_append.mp hx with hx | hx
  · exact Fin.le_of_lt ((List.pairwise_append.mp hl).2.2 x hx b (List.mem_singleton_self b))
  · exact Fin.le_of_eq (List.mem_singleton.mp hx)

end

theorem pairwise_brightRows : (g.brightRows t).Pairwise (· < ·) := (List.pairwise_lt_finRange _).filter _

theorem pairwise_brightCols : (g.brightCols t).Pairwise (· < ·) := (List.pairwise_lt_finRange _).filter _

namespace Edges

variable {top bottom : Fin g.rows} {left right : Fin g.cols}

theorem rows_between (he : g.Edges t top bottom left right) (hr : g.BrightRow t r) : top ≤ r ∧ r ≤ bottom := by
  have hmem : ⟨r, hr.lt⟩ ∈ g.brightRows t := mem_brightRows.mpr hr
  exact ⟨head_le pairwise_brightRows he.top hmem, le_getLast pairwise_brightRows he.bottom hmem⟩

theorem cols_between (he : g.Edges t top bottom left right) (hc : g.BrightCol t c) : left ≤ c ∧ c ≤ right :=
  he.transpose.rows_between (brightRow_transpose.mpr hc)

theorem covers (he : g.Edges t top bottom left right) :
    Covers g (g.box top bottom left right) t (top + ·) (left + ·) where
  rows := .add (show top + (bottom - top + 1) ≤ g.rows by omega)
  cols := .add (show left + (right - left + 1) ≤ g.cols by omega)
  shows hr hc := get?_box.trans (if_pos ⟨hr, hc⟩)
  covers {r c color} hget hlt := by
    have hr := he.rows_between ⟨c, color, hget, hlt⟩
    have hc := he.cols_between ⟨r, color, hget, hlt⟩
    refine ⟨⟨r - top, ?_, by omega⟩, c - left, ?_, by omega⟩
    · show r - top < bottom - top + 1
      omega
    · show c - left < right - left + 1
      omega

theorem first_row (he : g.Edges t top bottom left right) : (g.box top bottom left right).BrightRow t 0 := by
  have htop : g.BrightRow t top := mem_brightRows.mp (List.mem_of_head? he.top)
  exact (he.covers.brightRow_row_iff (Nat.succ_pos _)).mp htop

theorem last_row (he : g.Edges t top bottom left right) :
    (g.box top bottom left right).BrightRow t (bottom - top) := by
  have hbottom : g.BrightRow t bottom := mem_brightRows.mp (List.mem_of_getLast? he.bottom)
  have hback : (top + (bottom - top) : Nat) = bottom := by
    have := (he.rows_between hbottom).1
    omega
  exact (he.covers.brightRow_row_iff (Nat.lt_succ_self _)).mp (hback.symm ▸ hbottom)

theorem bounds (he : g.Edges t top bottom left right) : Bounds g (g.box top bottom left right) t top left where
  toCovers := he.covers
  first_row := he.first_row
  last_row := he.last_row
  first_col := by
    rw [← brightRow_transpose, transpose_box]
    exact he.transpose.first_row
  last_col := by
    rw [← brightRow_transpose, transpose_box]
    exact he.transpose.last_row

end Edges

theorem exists_bounds (hbright : g.Bright t) : ∃ top left, Bounds g (g.cropInner t) t top left := by
  obtain ⟨top, bottom, left, right, he⟩ := exists_edges hbright
  rw [cropInner_of_edges he]
  exact ⟨top, left, he.bounds⟩

theorem Bounds.cropInner_eq (hb : Bounds g h t top left) : g.cropInner t = h := by
  have hbright : g.Bright t := hb.bright_iff.mp ⟨0, hb.first_row⟩
  obtain ⟨top', left', hb'⟩ := exists_bounds hbright
  exact (hb'.unique hb).2.2

/-! ### The bright lines alone -/

/-- A cut whose lines are the bright lines. -/
structure Gathers (g h : Grid) (t : Color) (row col : Nat → Nat) : Prop extends Cut g h row col where
  brightRow_iff (r : Nat) : g.BrightRow t r ↔ ∃ i < h.rows, row i = r
  brightCol_iff (c : Nat) : g.BrightCol t c ↔ ∃ j < h.cols, col j = c

namespace Gathers

theorem covers (hg : Gathers g h t row col) : Covers g h t row col where
  toCut := hg.toCut
  covers hget hlt := ⟨(hg.brightRow_iff _).mp ⟨_, _, hget, hlt⟩, (hg.brightCol_iff _).mp ⟨_, _, hget, hlt⟩⟩

theorem bright (hg : Gathers g h t row col) : g.Bright t :=
  ⟨row 0, (hg.brightRow_iff _).mpr ⟨0, h.rows_pos, rfl⟩⟩

theorem unique (hg : Gathers g h t row col) (hg' : Gathers g h' t row' col') : h = h' := by
  obtain ⟨hrows, hrow⟩ :=
    hg.rows.eq_of_image hg'.rows fun r => (hg.brightRow_iff r).symm.trans (hg'.brightRow_iff r)
  obtain ⟨hcols, hcol⟩ :=
    hg.cols.eq_of_image hg'.cols fun c => (hg.brightCol_iff c).symm.trans (hg'.brightCol_iff c)
  exact hg.toCut.eq hg'.toCut hrows hcols hrow hcol

end Gathers

section

variable {n i : Nat} {l : List (Fin n)}

/-- The number at place `i` of a list. -/
def pick (l : List (Fin n)) (i : Nat) : Nat := (l[i]?.map Fin.val).getD 0

theorem pick_eq (hi : i < l.length) : pick l i = l[i] := by
  simp [pick, hi]

theorem rising_pick (hl : l.Pairwise (· < ·)) : Rising l.length n (pick l) where
  lt {i} hi := by
    rw [pick_eq hi]
    exact l[i].isLt
  mono {i j} hij hj := by
    rw [pick_eq hj, pick_eq (Nat.lt_trans hij hj)]
    exact List.pairwise_iff_getElem.mp hl i j _ hj hij

theorem exists_pick_iff : (∃ i < l.length, pick l i = r) ↔ ∃ hr : r < n, ⟨r, hr⟩ ∈ l := by
  constructor
  · rintro ⟨i, hi, rfl⟩
    rw [pick_eq hi]
    exact ⟨l[i].isLt, List.getElem_mem hi⟩
  · rintro ⟨hr, hmem⟩
    obtain ⟨i, hi, heq⟩ := List.mem_iff_getElem.mp hmem
    exact ⟨i, hi, (pick_eq hi).trans (congrArg Fin.val heq)⟩

end

theorem gathers_select {hrows hcols} :
    Gathers g (g.select (g.brightRows t).toArray (g.brightCols t).toArray hrows hcols) t
      (pick (g.brightRows t)) (pick (g.brightCols t)) where
  rows := rising_pick pairwise_brightRows
  cols := rising_pick pairwise_brightCols
  shows {r c} hr hc := by
    have hr : r < (g.brightRows t).length := hr
    have hc : c < (g.brightCols t).length := hc
    rw [get?_select, pick_eq hr, pick_eq hc]
    simp [hr, hc]
  brightRow_iff r := by
    refine Iff.trans ?_ exists_pick_iff.symm
    exact ⟨fun h => ⟨h.lt, mem_brightRows.mpr h⟩, fun ⟨_, hmem⟩ => mem_brightRows.mp hmem⟩
  brightCol_iff c := by
    refine Iff.trans ?_ exists_pick_iff.symm
    exact ⟨fun h => ⟨h.lt, mem_brightCols.mpr h⟩, fun ⟨_, hmem⟩ => mem_brightCols.mp hmem⟩

theorem cropOuter?_eq_some_iff : g.cropOuter? t = some h ↔ ∃ row col, Gathers g h t row col := by
  constructor
  · intro hcrop
    by_cases hbright : g.Bright t
    · obtain ⟨hrows, hcols, hselect⟩ := cropOuter?_of_bright hbright
      cases hselect.symm.trans hcrop
      exact ⟨_, _, gathers_select⟩
    · cases (cropOuter?_of_not_bright hbright).symm.trans hcrop
  · rintro ⟨row, col, hg⟩
    obtain ⟨hrows, hcols, hselect⟩ := cropOuter?_of_bright hg.bright
    rw [hselect, gathers_select.unique hg]

theorem cropOuter?_eq_none_iff : g.cropOuter? t = none ↔ ¬g.Bright t := by
  refine ⟨fun hnone hbright => ?_, cropOuter?_of_not_bright⟩
  obtain ⟨hrows, hcols, hselect⟩ := cropOuter?_of_bright hbright
  cases hselect.symm.trans hnone

/-! ### The crops -/

/-- Over a threshold that some cell exceeds, the inner crop is the one contiguous cut that shows all these cells
and has one in its first and last rows and columns, and it lies within every other contiguous cut that shows
them; over any other threshold it is the grid. There is an outer crop just when a cell exceeds the threshold,
and it is the one cut whose rows and columns are those that hold such a cell. -/
theorem crops_exact (g : Grid) (t : Color) :
    (g.Bright t → ∃ top left, Bounds g (g.cropInner t) t top left ∧
      (∀ h top' left', Bounds g h t top' left' → top' = top ∧ left' = left ∧ h = g.cropInner t) ∧
      ∀ h top' left', Covers g h t (top' + ·) (left' + ·) →
        (top' ≤ top ∧ top + (g.cropInner t).rows ≤ top' + h.rows) ∧
        left' ≤ left ∧ left + (g.cropInner t).cols ≤ left' + h.cols) ∧
    (¬g.Bright t → g.cropInner t = g) ∧
    (g.cropOuter? t = none ↔ ¬g.Bright t) ∧
    ∀ h, g.cropOuter? t = some h ↔ ∃ row col, Gathers g h t row col := by
  refine ⟨fun hbright => ?_, cropInner_of_not_bright, cropOuter?_eq_none_iff, fun h => cropOuter?_eq_some_iff⟩
  obtain ⟨top, left, hb⟩ := exists_bounds hbright
  exact ⟨top, left, hb, fun h top' left' hb' => hb'.unique hb,
    fun h top' left' hcov => ⟨hb.rows_within hcov, hb.cols_within hcov⟩⟩

/-- Two cells in opposite corners of their box, and a dark row and column between them: the inner crop keeps the
row and the column, the outer crop does not. Over a threshold that neither cell exceeds both crops give up. -/
theorem crops_exact_two_cells :
    let g : Grid := ⟨4, 4, #[0, 3, 0, 0, 0, 0, 0, 0, 0, 2, 0, 7, 0, 0, 0, 0], by decide, by decide, rfl⟩
    let least : Grid := ⟨3, 3, #[3, 0, 0, 0, 0, 0, 2, 0, 7], by decide, by decide, rfl⟩
    let kept : Grid := ⟨2, 2, #[3, 0, 2, 7], by decide, by decide, rfl⟩
    (g.Bright 2 ∧ g.cropInner 2 = least ∧ ∃ top left, Bounds g least 2 top left) ∧
      (g.cropOuter? 2 = some kept ∧ ∃ row col, Gathers g kept 2 row col) ∧
      ¬g.Bright 7 ∧ g.cropInner 7 = g := by
  intro g least kept
  obtain ⟨hinner, -, -, houter⟩ := crops_exact g 2
  obtain ⟨-, hdark, hnone, -⟩ := crops_exact g 7
  have hbright : g.Bright 2 := ⟨0, 1, 3, rfl, by decide⟩
  have hleast : g.cropInner 2 = least := by decide +kernel
  have hkept : g.cropOuter? 2 = some kept := by decide +kernel
  have hall : ¬g.Bright 7 := hnone.mp (by decide +kernel)
  obtain ⟨top, left, hb, -⟩ := hinner hbright
  exact ⟨⟨hbright, hleast, top, left, hleast ▸ hb⟩, ⟨hkept, (houter kept).mp hkept⟩, hall, hdark hall⟩

end Grid
end Mosaic

import Mosaic.Proofs.Cuts
import Mosaic.Proofs.Turns
import Mosaic.Proofs.Upscales

/-!
# Crops of crops and crops of pictures

A cut of a cut is a cut (`Cut.trans`). So a cut that shows every bright cell has the crops of the grid it is cut
from, and this settles every crop of a crop. A grid is drawn from another one when each of its lines shows a
line of the other and no line is missing, as in a flip or an upscale; what is drawn from a cut is then cut from
what is drawn from the grid (`Cut.draw`), and the two crops of a drawing are the drawings of the crops.
-/

namespace Mosaic

namespace Rising

variable {n m k : Nat} {f f' : Nat → Nat}

theorem comp (h : Rising n m f) (h' : Rising k n f') : Rising k m (f ∘ f') where
  lt hi := h.lt (h'.lt hi)
  mono hij hj := h.mono (h'.mono hij hj) (h'.lt hj)

end Rising

namespace Grid

variable {g h k : Grid} {s t : Color} {row col row' col' : Nat → Nat} {top top' left left' : Nat}

/-! ### Cuts of cuts -/

theorem Cut.trans (hcut : Cut g h row col) (hcut' : Cut h k row' col') :
    Cut g k (row ∘ row') (col ∘ col') where
  rows := hcut.rows.comp hcut'.rows
  cols := hcut.cols.comp hcut'.cols
  shows hr hc := (hcut'.shows hr hc).trans (hcut.shows (hcut'.rows.lt hr) (hcut'.cols.lt hc))

theorem Covers.mono (hst : s ≤ t) (hcov : Covers g h s row col) : Covers g h t row col where
  toCut := hcov.toCut
  covers hget hlt := hcov.covers hget (UInt8.lt_of_le_of_lt hst hlt)

theorem Covers.trans (hcov : Covers g h t row col) (hcov' : Covers h k t row' col') :
    Covers g k t (row ∘ row') (col ∘ col') where
  toCut := hcov.toCut.trans hcov'.toCut
  covers hget hlt := by
    obtain ⟨⟨i, hi, rfl⟩, j, hj, rfl⟩ := hcov.covers hget hlt
    obtain ⟨⟨i', hi', rfl⟩, j', hj', rfl⟩ := hcov'.covers ((hcov.shows hi hj).trans hget) hlt
    exact ⟨⟨i', hi', rfl⟩, j', hj', rfl⟩

theorem Bounds.trans (hcov : Covers g h t (top + ·) (left + ·)) (hb : Bounds h k t top' left') :
    Bounds g k t (top + top') (left + left') where
  toCovers := by
    have hassoc (a b : Nat) : (a + b + ·) = (a + ·) ∘ (b + ·) := funext fun i => Nat.add_assoc a b i
    rw [hassoc, hassoc]
    exact hcov.trans hb.toCovers
  first_row := hb.first_row
  last_row := hb.last_row
  first_col := hb.first_col
  last_col := hb.last_col

theorem Gathers.trans (hcov : Covers g h t row col) (hg : Gathers h k t row' col') :
    Gathers g k t (row ∘ row') (col ∘ col') where
  toCut := hcov.toCut.trans hg.toCut
  brightRow_iff r := by
    rw [hcov.brightRow_iff]
    constructor
    · rintro ⟨i, -, rfl, hbright⟩
      obtain ⟨i', hi', rfl⟩ := (hg.brightRow_iff i).mp hbright
      exact ⟨i', hi', rfl⟩
    · rintro ⟨i', hi', rfl⟩
      exact ⟨row' i', hg.rows.lt hi', rfl, (hg.brightRow_iff _).mpr ⟨i', hi', rfl⟩⟩
  brightCol_iff c := by
    rw [hcov.brightCol_iff]
    constructor
    · rintro ⟨j, -, rfl, hbright⟩
      obtain ⟨j', hj', rfl⟩ := (hg.brightCol_iff j).mp hbright
      exact ⟨j', hj', rfl⟩
    · rintro ⟨j', hj', rfl⟩
      exact ⟨col' j', hg.cols.lt hj', rfl, (hg.brightCol_iff _).mpr ⟨j', hj', rfl⟩⟩

/-! ### Crops of cuts -/

/-- A contiguous cut that shows every bright cell has the inner crop of its grid. -/
theorem cropInner_of_covers (hcov : Covers g h t (top + ·) (left + ·)) (hbright : g.Bright t) :
    h.cropInner t = g.cropInner t := by
  obtain ⟨top', left', hb⟩ := exists_bounds (hcov.bright_iff.mpr hbright)
  exact (Bounds.trans hcov hb).cropInner_eq.symm

/-- A cut that shows every bright cell has the outer crop of its grid, if there is one. -/
theorem cropOuter?_of_covers (hcov : Covers g h t row col) : h.cropOuter? t = g.cropOuter? t := by
  cases hcrop : h.cropOuter? t with
  | none => exact (cropOuter?_eq_none_iff.mpr (mt hcov.bright_iff.mpr (cropOuter?_eq_none_iff.mp hcrop))).symm
  | some k =>
    obtain ⟨row', col', hg⟩ := cropOuter?_eq_some_iff.mp hcrop
    exact (cropOuter?_eq_some_iff.mpr ⟨_, _, Gathers.trans hcov hg⟩).symm

theorem Bright.mono (hst : s ≤ t) (hbright : g.Bright t) : g.Bright s := by
  obtain ⟨r, c, color, hget, hlt⟩ := hbright
  exact ⟨r, c, color, hget, UInt8.lt_of_le_of_lt hst hlt⟩

theorem cropInner_cropInner (hst : s ≤ t) (hbright : g.Bright t) :
    (g.cropInner s).cropInner t = g.cropInner t := by
  obtain ⟨top, left, hb⟩ := exists_bounds (hbright.mono hst)
  exact cropInner_of_covers (hb.toCovers.mono hst) hbright

theorem cropInner_idem : (g.cropInner t).cropInner t = g.cropInner t := by
  by_cases hbright : g.Bright t
  · exact cropInner_cropInner (UInt8.le_refl t) hbright
  · rw [cropInner_of_not_bright hbright, cropInner_of_not_bright hbright]

theorem cropOuter?_cropInner : (g.cropInner t).cropOuter? t = g.cropOuter? t := by
  by_cases hbright : g.Bright t
  · obtain ⟨top, left, hb⟩ := exists_bounds hbright
    exact cropOuter?_of_covers hb.toCovers
  · rw [cropInner_of_not_bright hbright]

theorem cropOuter?_cropOuter? (hst : s ≤ t) : (g.cropOuter? s).bind (·.cropOuter? t) = g.cropOuter? t := by
  cases hcrop : g.cropOuter? s with
  | none =>
    have hdark : ¬g.Bright t := mt (Bright.mono hst) (cropOuter?_eq_none_iff.mp hcrop)
    exact (cropOuter?_eq_none_iff.mpr hdark).symm
  | some h =>
    obtain ⟨row, col, hg⟩ := cropOuter?_eq_some_iff.mp hcrop
    exact cropOuter?_of_covers (hg.covers.mono hst)

namespace Gathers

theorem brightRow (hg : Gathers g h t row col) {r : Nat} (hr : r < h.rows) : h.BrightRow t r :=
  (hg.covers.brightRow_row_iff hr).mp ((hg.brightRow_iff _).mpr ⟨r, hr, rfl⟩)

theorem transpose (hg : Gathers g h t row col) : Gathers g.transpose h.transpose t col row where
  toCut := hg.toCut.transpose
  brightRow_iff r := brightRow_transpose.trans (hg.brightCol_iff r)
  brightCol_iff c := brightCol_transpose.trans (hg.brightRow_iff c)

theorem brightCol (hg : Gathers g h t row col) {c : Nat} (hc : c < h.cols) : h.BrightCol t c :=
  brightRow_transpose.mp (hg.transpose.brightRow hc)

/-- No line of an outer crop is dark, so that it is its own box. -/
theorem bounds (hg : Gathers g h t row col) : Bounds h h t 0 0 where
  rows := .add (Nat.le_of_eq (Nat.zero_add _))
  cols := .add (Nat.le_of_eq (Nat.zero_add _))
  shows {r c} _ _ := by rw [Nat.zero_add, Nat.zero_add]
  covers {r c _} hget _ := by
    obtain ⟨hr, hc, -⟩ := get?_eq_some_iff.mp hget
    exact ⟨⟨r, hr, Nat.zero_add r⟩, c, hc, Nat.zero_add c⟩
  first_row := hg.brightRow h.rows_pos
  last_row := hg.brightRow (Nat.sub_one_lt_of_lt h.rows_pos)
  first_col := hg.brightCol h.cols_pos
  last_col := hg.brightCol (Nat.sub_one_lt_of_lt h.cols_pos)

end Gathers

theorem cropInner_of_cropOuter? (hcrop : g.cropOuter? t = some h) : h.cropInner t = h := by
  obtain ⟨row, col, hg⟩ := cropOuter?_eq_some_iff.mp hcrop
  exact hg.bounds.cropInner_eq

/-! ### Drawings -/

end Grid

/-- Each of `n'` drawn lines shows one of `n` lines, by the number `f` gives it; none is left out, and the first
and last drawn lines show end lines. -/
structure Lines (n n' : Nat) (f : Nat → Nat) : Prop where
  lt {r : Nat} : r < n' → f r < n
  shown {i : Nat} : i < n → ∃ r < n', f r = i
  ends {r : Nat} : r = 0 ∨ r = n' - 1 → f r = 0 ∨ f r = n - 1

/-- Of the `m'` lines drawn by `u`, those that show one of the `n` lines `f` are the `n'` lines `f'`, and `p` draws
these as `u` does. -/
structure Lifts (n n' m' : Nat) (f f' u p : Nat → Nat) : Prop where
  rising : Rising n' m' f'
  shows {i : Nat} : i < n' → u (f' i) = f (p i)
  onto {i r : Nat} : i < n → r < m' → f i = u r → ∃ i' < n', f' i' = r

namespace Lines

variable {n a : Nat}

theorem id : Lines n n id where
  lt hr := hr
  shown hi := ⟨_, hi, rfl⟩
  ends h := h

theorem mirror : Lines n n (n - 1 - ·) where
  lt hr := Nat.sub_one_sub_lt_of_lt hr
  shown {i} hi := ⟨n - 1 - i, by omega, by omega⟩
  ends h := by omega

theorem div (ha : 0 < a) : Lines n (n * a) (· / a) where
  lt hr := Grid.div_lt_of_lt_scaled hr
  shown {i} hi := ⟨i * a, Nat.mul_lt_mul_of_pos_right hi ha, Nat.mul_div_cancel i ha⟩
  ends {r} h := by
    rcases h with rfl | rfl
    · exact .inl (Nat.zero_div a)
    · cases n with
      | zero => exact .inl (by simp)
      | succ n =>
        have hlast : (n + 1) * a - 1 = n * a + (a - 1) := by
          rw [Nat.succ_mul]
          omega
        exact .inr (hlast ▸ Grid.index_div (by omega))

end Lines

namespace Lifts

variable {n n' m m' a k : Nat} {f f' f'' u p : Nat → Nat}

theorem congr (h : Lifts n n' m' f f' u p) (heq : ∀ i < n', f' i = f'' i) : Lifts n n' m' f f'' u p where
  rising :=
    { lt := fun {i} hi => heq i hi ▸ h.rising.lt hi
      mono := fun {i j} hij hj => heq i (Nat.lt_trans hij hj) ▸ heq j hj ▸ h.rising.mono hij hj }
  shows {i} hi := heq i hi ▸ h.shows hi
  onto hi hr hfr := by
    obtain ⟨i', hi', rfl⟩ := h.onto hi hr hfr
    exact ⟨i', hi', (heq i' hi').symm⟩

theorem id (h : Rising n m f) : Lifts n n m f f id id where
  rising := h
  shows _ := rfl
  onto hi _ heq := ⟨_, hi, heq⟩

theorem mirror (h : Rising n m f) :
    Lifts n n m f (fun i => m - 1 - f (n - 1 - i)) (m - 1 - ·) (n - 1 - ·) where
  rising :=
    { lt := fun {i} hi => by
        have := h.lt (Nat.sub_one_sub_lt_of_lt hi)
        omega
      mono := fun {i j} hij hj => by
        have := h.lt (Nat.sub_one_sub_lt_of_lt (Nat.lt_trans hij hj))
        have := h.mono (show n - 1 - j < n - 1 - i by omega) (by omega)
        omega }
  shows {i} hi := by
    have := h.lt (Nat.sub_one_sub_lt_of_lt hi)
    omega
  onto {i r} hi hr heq := by
    have hback : n - 1 - (n - 1 - i) = i := by omega
    refine ⟨n - 1 - i, by omega, ?_⟩
    rw [hback]
    omega

theorem div (h : Rising n m f) (ha : 0 < a) :
    Lifts n (n * a) (m * a) f (fun i => f (i / a) * a + i % a) (· / a) (· / a) where
  rising :=
    { lt := fun {i} hi => Grid.index_lt (h.lt (Grid.div_lt_of_lt_scaled hi)) (Nat.mod_lt i ha)
      mono := fun {i j} hij hj => by
        -- the two lines are drawn from two lines, or both from one
        rcases Nat.lt_or_eq_of_le (Nat.div_le_div_right (c := a) (Nat.le_of_lt hij)) with hlt | heq
        · calc f (i / a) * a + i % a < f (i / a) * a + a := Nat.add_lt_add_left (Nat.mod_lt i ha) _
            _ = (f (i / a) + 1) * a := (Nat.succ_mul _ a).symm
            _ ≤ f (j / a) * a := Nat.mul_le_mul_right a (h.mono hlt (Grid.div_lt_of_lt_scaled hj))
            _ ≤ f (j / a) * a + j % a := Nat.le_add_right ..
        · have hi := Nat.div_add_mod' i a
          have hj := Nat.div_add_mod' j a
          rw [heq] at hi ⊢
          omega }
  shows {i} _ := Grid.index_div (Nat.mod_lt i ha)
  onto {i r} hi _ heq := by
    have hmod := Nat.mod_lt r ha
    refine ⟨i * a + r % a, Grid.index_lt hi hmod, ?_⟩
    rw [Grid.index_div hmod, Grid.index_mod hmod, heq, Nat.div_add_mod']

/-- Contiguous lines are contiguous when the order is turned round. -/
theorem mirror_add (h : Rising n m (k + ·)) :
    Lifts n n m (k + ·) (m - (k + n) + ·) (m - 1 - ·) (n - 1 - ·) :=
  (mirror h).congr fun i hi => by
    have : k + (n - 1) < m := h.lt (by omega)
    omega

theorem div_add (h : Rising n m (k + ·)) (ha : 0 < a) :
    Lifts n (n * a) (m * a) (k + ·) (k * a + ·) (· / a) (· / a) :=
  (div h ha).congr fun i _ => by
    rw [Nat.add_mul, Nat.add_assoc, Nat.div_add_mod']

end Lifts

namespace Grid

variable {g g' h h' : Grid} {t : Color} {row col row' col' u v p q : Nat → Nat} {top top' left left' r : Nat}

/-- `g'` is drawn from `g`: its rows and columns show the rows `u` and the columns `v`. -/
structure Drawn (g g' : Grid) (u v : Nat → Nat) : Prop where
  rows : Lines g.rows g'.rows u
  cols : Lines g.cols g'.cols v
  shows {r c : Nat} : r < g'.rows → c < g'.cols → g'.get? r c = g.get? (u r) (v c)

namespace Drawn

theorem transpose (hd : Drawn g g' u v) : Drawn g.transpose g'.transpose v u where
  rows := hd.cols
  cols := hd.rows
  shows hr hc := by rw [get?_transpose, get?_transpose, hd.shows hc hr]

theorem flipRows : Drawn g g.flipRows (g.rows - 1 - ·) id where
  rows := .mirror
  cols := .id
  shows hr hc := get?_flipRows.trans (if_pos ⟨hr, hc⟩)

theorem scale {a b : Nat} {ha : 0 < a} {hb : 0 < b} : Drawn g (g.scale a b ha hb) (· / a) (· / b) where
  rows := .div ha
  cols := .div hb
  shows _ _ := get?_scale

theorem brightRow_iff (hd : Drawn g g' u v) (hr : r < g'.rows) : g'.BrightRow t r ↔ g.BrightRow t (u r) := by
  constructor
  · rintro ⟨c, color, hget, hlt⟩
    have hc : c < g'.cols := (get?_eq_some_iff.mp hget).2.1
    exact ⟨v c, color, (hd.shows hr hc).symm.trans hget, hlt⟩
  · rintro ⟨j, color, hget, hlt⟩
    obtain ⟨c, hc, rfl⟩ := hd.cols.shown (get?_eq_some_iff.mp hget).2.1
    exact ⟨c, color, (hd.shows hr hc).trans hget, hlt⟩

theorem bright_iff (hd : Drawn g g' u v) : g'.Bright t ↔ g.Bright t := by
  constructor
  · rintro ⟨r, hbright⟩
    exact ⟨u r, (hd.brightRow_iff (BrightRow.lt hbright)).mp hbright⟩
  · rintro ⟨i, hbright⟩
    obtain ⟨r, hr, rfl⟩ := hd.rows.shown (BrightRow.lt hbright)
    exact ⟨r, (hd.brightRow_iff hr).mpr hbright⟩

end Drawn

/-- What is drawn from a cut is cut from what is drawn from the grid. -/
theorem Cut.draw (hcut : Cut g h row col) (hg : Drawn g g' u v) (hh : Drawn h h' p q)
    (hrows : Lifts h.rows h'.rows g'.rows row row' u p) (hcols : Lifts h.cols h'.cols g'.cols col col' v q) :
    Cut g' h' row' col' where
  rows := hrows.rising
  cols := hcols.rising
  shows {r c} hr hc := by
    rw [hh.shows hr hc, hcut.shows (hh.rows.lt hr) (hh.cols.lt hc),
      hg.shows (hrows.rising.lt hr) (hcols.rising.lt hc), hrows.shows hr, hcols.shows hc]

theorem Covers.draw (hcov : Covers g h t row col) (hg : Drawn g g' u v) (hh : Drawn h h' p q)
    (hrows : Lifts h.rows h'.rows g'.rows row row' u p) (hcols : Lifts h.cols h'.cols g'.cols col col' v q) :
    Covers g' h' t row' col' where
  toCut := hcov.toCut.draw hg hh hrows hcols
  covers {r c _} hget hlt := by
    obtain ⟨hr, hc, -⟩ := get?_eq_some_iff.mp hget
    obtain ⟨⟨i, hi, hrow⟩, j, hj, hcol⟩ := hcov.covers ((hg.shows hr hc).symm.trans hget) hlt
    exact ⟨hrows.onto hi hr hrow, hcols.onto hj hc hcol⟩

theorem Bounds.brightRow (hb : Bounds g h t top left) (hr : r = 0 ∨ r = h.rows - 1) : h.BrightRow t r := by
  rcases hr with rfl | rfl
  · exact hb.first_row
  · exact hb.last_row

theorem Bounds.brightRow_draw (hb : Bounds g h t top left) (hh : Drawn h h' p q) (hr : r = 0 ∨ r = h'.rows - 1) :
    h'.BrightRow t r := by
  have hlt : r < h'.rows := by
    have := h'.rows_pos
    omega
  exact (hh.brightRow_iff hlt).mpr (hb.brightRow (hh.rows.ends hr))

theorem Bounds.draw (hb : Bounds g h t top left) (hg : Drawn g g' u v) (hh : Drawn h h' p q)
    (hrows : Lifts h.rows h'.rows g'.rows (top + ·) (top' + ·) u p)
    (hcols : Lifts h.cols h'.cols g'.cols (left + ·) (left' + ·) v q) : Bounds g' h' t top' left' where
  toCovers := hb.toCovers.draw hg hh hrows hcols
  first_row := hb.brightRow_draw hh (.inl rfl)
  last_row := hb.brightRow_draw hh (.inr rfl)
  first_col := brightRow_transpose.mp (hb.transpose.brightRow_draw hh.transpose (.inl rfl))
  last_col := brightRow_transpose.mp (hb.transpose.brightRow_draw hh.transpose (.inr rfl))

theorem Gathers.brightRow_draw (hgather : Gathers g h t row col) (hg : Drawn g g' u v) (hh : Drawn h h' p q)
    (hrows : Lifts h.rows h'.rows g'.rows row row' u p) : g'.BrightRow t r ↔ ∃ i < h'.rows, row' i = r := by
  constructor
  · intro hbright
    obtain ⟨i, hi, hrow⟩ := (hgather.brightRow_iff _).mp ((hg.brightRow_iff hbright.lt).mp hbright)
    exact hrows.onto hi hbright.lt hrow
  · rintro ⟨i, hi, rfl⟩
    rw [hg.brightRow_iff (hrows.rising.lt hi), hrows.shows hi]
    exact (hgather.brightRow_iff _).mpr ⟨p i, hh.rows.lt hi, rfl⟩

theorem Gathers.draw (hgather : Gathers g h t row col) (hg : Drawn g g' u v) (hh : Drawn h h' p q)
    (hrows : Lifts h.rows h'.rows g'.rows row row' u p) (hcols : Lifts h.cols h'.cols g'.cols col col' v q) :
    Gathers g' h' t row' col' where
  toCut := hgather.toCut.draw hg hh hrows hcols
  brightRow_iff _ := hgather.brightRow_draw hg hh hrows
  brightCol_iff _ :=
    brightRow_transpose.symm.trans (hgather.transpose.brightRow_draw hg.transpose hh.transpose hcols)

/-! ### Crops of drawings -/

/-- What draws bounds as bounds draws the inner crop as the inner crop. -/
theorem cropInner_map {F : Grid → Grid} (hbright : (F g).Bright t ↔ g.Bright t)
    (hbounds : ∀ {h top left}, Bounds g h t top left → ∃ top' left', Bounds (F g) (F h) t top' left') :
    (F g).cropInner t = F (g.cropInner t) := by
  by_cases hg : g.Bright t
  · obtain ⟨top, left, hb⟩ := exists_bounds hg
    obtain ⟨top', left', hb'⟩ := hbounds hb
    exact hb'.cropInner_eq
  · rw [cropInner_of_not_bright hg, cropInner_of_not_bright (mt hbright.mp hg)]

theorem cropOuter?_map {F : Grid → Grid} (hbright : (F g).Bright t ↔ g.Bright t)
    (hgathers : ∀ {h row col}, Gathers g h t row col → ∃ row' col', Gathers (F g) (F h) t row' col') :
    (F g).cropOuter? t = (g.cropOuter? t).map F := by
  cases hcrop : g.cropOuter? t with
  | none => exact cropOuter?_eq_none_iff.mpr (mt hbright.mp (cropOuter?_eq_none_iff.mp hcrop))
  | some h =>
    obtain ⟨row, col, hg⟩ := cropOuter?_eq_some_iff.mp hcrop
    exact cropOuter?_eq_some_iff.mpr (hgathers hg)

theorem cropInner_flipRows : g.flipRows.cropInner t = (g.cropInner t).flipRows :=
  cropInner_map (F := flipRows) Drawn.flipRows.bright_iff fun hb =>
    ⟨_, _, hb.draw .flipRows .flipRows (.mirror_add hb.rows) (.id hb.cols)⟩

theorem cropOuter?_flipRows : g.flipRows.cropOuter? t = (g.cropOuter? t).map flipRows :=
  cropOuter?_map (F := flipRows) Drawn.flipRows.bright_iff fun hg =>
    ⟨_, _, hg.draw .flipRows .flipRows (.mirror hg.rows) (.id hg.cols)⟩

section

variable {a b : Nat} {ha : 0 < a} {hb : 0 < b}

theorem cropInner_scale : (g.scale a b ha hb).cropInner t = (g.cropInner t).scale a b ha hb :=
  cropInner_map (F := (·.scale a b ha hb)) Drawn.scale.bright_iff fun h =>
    ⟨_, _, h.draw .scale .scale (.div_add h.rows ha) (.div_add h.cols hb)⟩

theorem cropOuter?_scale : (g.scale a b ha hb).cropOuter? t = (g.cropOuter? t).map (·.scale a b ha hb) :=
  cropOuter?_map (F := (·.scale a b ha hb)) Drawn.scale.bright_iff fun hg =>
    ⟨_, _, hg.draw .scale .scale (.div hg.rows ha) (.div hg.cols hb)⟩

end

/-- `crop` commutes with the symmetries of a grid and with its upscales. -/
structure Equivariant (crop : Grid → Option Grid) : Prop where
  flip (g : Grid) (axis : Axis) : crop (g.flip axis) = (crop g).map (·.flip axis)
  turn (g : Grid) (k : Int) : crop (g.turn k) = (crop g).map (·.turn k)
  transpose (g : Grid) : crop g.transpose = (crop g).map Grid.transpose
  upscale (g : Grid) (a b : Nat) : (g.upscale? a b).bind crop = (crop g).bind (·.upscale? a b)

namespace Equivariant

variable {crop : Grid → Option Grid}

section

variable (hflip : ∀ g, crop g.flipRows = (crop g).map flipRows)
  (htranspose : ∀ g, crop g.transpose = (crop g).map Grid.transpose)
include hflip htranspose

theorem flipCols_of (g : Grid) : crop g.flipCols = (crop g).map flipCols := by
  have hcols (g : Grid) : g.flipCols = g.transpose.flipRows.transpose := by
    rw [transpose_flipRows, transpose_transpose]
  rw [hcols, htranspose, hflip, htranspose, Option.map_map, Option.map_map]
  exact congrArg (Option.map · _) (funext fun h => (hcols h).symm)

theorem quarterTurn_of (g : Grid) : crop g.quarterTurn = (crop g).map quarterTurn := by
  rw [quarterTurn_eq, hflip, htranspose, Option.map_map]
  exact congrArg (Option.map · _) (funext fun h => quarterTurn_eq.symm)

theorem turn_natCast_of (g : Grid) (n : Nat) : crop (g.turn n) = (crop g).map (·.turn n) := by
  induction n with
  | zero => exact Option.map_id'.symm
  | succ n ih =>
    rw [Int.natCast_succ, turn_add_one, quarterTurn_of hflip htranspose, ih, Option.map_map]
    exact congrArg (Option.map · _) (funext fun h => turn_add_one.symm)

theorem turn_of (g : Grid) (k : Int) : crop (g.turn k) = (crop g).map (·.turn k) := by
  -- turns by the remainder of `k`, a natural number, are those by `k`
  obtain ⟨n, hn⟩ : ∃ n : Nat, (n : Int) = k % 4 := ⟨(k % 4).toNat, by omega⟩
  have hturn (g : Grid) : g.turn k = g.turn n := turn_congr (by omega)
  rw [hturn, turn_natCast_of hflip htranspose]
  exact congrArg (Option.map · _) (funext fun h => (hturn h).symm)

/-- A flip of the rows and the transpose make all symmetries. -/
theorem of_flipRows (hscale : ∀ (g : Grid) {a b : Nat} (ha : 0 < a) (hb : 0 < b),
    crop (g.scale a b ha hb) = (crop g).map (·.scale a b ha hb)) : Equivariant crop where
  flip g axis := by
    cases axis with
    | rows => exact hflip g
    | cols => exact flipCols_of hflip htranspose g
  turn := turn_of hflip htranspose
  transpose := htranspose
  upscale g a b := by
    by_cases hpos : 0 < a ∧ 0 < b
    · simp only [upscale?_of_pos hpos.1 hpos.2, Option.bind_some, hscale]
      exact Option.map_eq_bind ..
    · simp only [upscale?_of_not_pos hpos, Option.bind_none, Option.bind_fun_none]

end

theorem cropInner : Equivariant fun g => some (g.cropInner t) :=
  of_flipRows (fun _ => congrArg some cropInner_flipRows) (fun _ => congrArg some cropInner_transpose)
    fun _ _ _ _ _ => congrArg some cropInner_scale

theorem cropOuter? : Equivariant (·.cropOuter? t) :=
  of_flipRows (fun _ => cropOuter?_flipRows) (fun _ => cropOuter?_transpose) fun _ _ _ _ _ => cropOuter?_scale

end Equivariant

/-- A crop over one threshold after a crop over a lower one is the crop over the first: of inner crops as long as
some cell exceeds it, of outer crops always. The inner crop has the outer crop of its grid, and the outer crop is
its own inner crop; both are idempotent. Both commute with the symmetries of the grid and with upscales. -/
theorem crop_algebra (g : Grid) (s t : Color) (hst : s ≤ t) :
    (g.Bright t → (g.cropInner s).cropInner t = g.cropInner t) ∧
    (g.cropOuter? s).bind (·.cropOuter? t) = g.cropOuter? t ∧
    (g.cropInner t).cropOuter? t = g.cropOuter? t ∧
    (∀ h, g.cropOuter? t = some h → h.cropInner t = h) ∧
    (g.cropInner t).cropInner t = g.cropInner t ∧
    (g.cropOuter? t).bind (·.cropOuter? t) = g.cropOuter? t ∧
    Equivariant (fun g => some (g.cropInner t)) ∧ Equivariant (·.cropOuter? t) :=
  ⟨cropInner_cropInner hst, cropOuter?_cropOuter? hst, cropOuter?_cropInner, fun _ => cropInner_of_cropOuter?,
    cropInner_idem, cropOuter?_cropOuter? (UInt8.le_refl t), .cropInner, .cropOuter?⟩

/-- The higher threshold leaves two of three cells, and fewer lines in either crop; a flip may come before the crop
or after it. -/
theorem crop_algebra_two_thresholds :
    let g : Grid := ⟨4, 4, #[1, 0, 0, 0, 0, 0, 3, 0, 0, 0, 0, 0, 0, 5, 0, 0], by decide, by decide, rfl⟩
    let least : Grid := ⟨3, 2, #[0, 3, 0, 0, 5, 0], by decide, by decide, rfl⟩
    let kept : Grid := ⟨2, 2, #[0, 3, 5, 0], by decide, by decide, rfl⟩
    (0 : Color) ≤ 2 ∧ g.Bright 2 ∧ g.cropOuter? 2 = some kept ∧
      (g.cropInner 0).cropInner 2 = least ∧ (g.cropOuter? 0).bind (·.cropOuter? 2) = some kept ∧
      kept.cropInner 2 = kept ∧ (g.flip .cols).cropOuter? 2 = some (kept.flip .cols) := by
  intro g least kept
  have hst : (0 : Color) ≤ 2 := by decide
  have hbright : g.Bright 2 := ⟨1, 2, 3, rfl, by decide⟩
  have hleast : g.cropInner 2 = least := by decide +kernel
  have hkept : g.cropOuter? 2 = some kept := by decide +kernel
  obtain ⟨hinner, houter, -, hown, -, -, -, hcommutes⟩ := crop_algebra g 0 2 hst
  have hflip := hcommutes.flip g .cols
  rw [hkept] at houter hflip
  exact ⟨hst, hbright, hkept, (hinner hbright).trans hleast, houter, hown kept hkept, hflip⟩

end Grid
end Mosaic

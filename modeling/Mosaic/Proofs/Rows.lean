import Mosaic.Grid.Basic

/-!
# Grids and lists of rows

Rows that are all as long as the first one, which is not empty, and hold only colors of the palette make up a
grid (`Grid.Rectangular`). Reading accepts these lists and no others, and gives the grid with these rows; of
any other list it reports the first fault that a reader from the first row on and along each row would meet
(`Grid.FirstFault`).
-/

namespace Mosaic

/-! ### Lists examined in order -/

/-- `scan` reports the first fault of a list: `fault?` is asked about one item after the other, together with
the number of the item, and has no fault to report of the `Sound` ones. -/
structure ReportsFirst {α ε : Type} (scan : Nat → List α → Option ε) (fault? : Nat → α → Option ε)
    (Sound : α → Prop) : Prop where
  nil (n : Nat) : scan n [] = none
  cons (n : Nat) (a : α) (l : List α) : scan n (a :: l) = (fault? n a).or (scan (n + 1) l)
  fault?_eq_none_iff (n : Nat) (a : α) : fault? n a = none ↔ Sound a

namespace ReportsFirst

variable {α ε : Type} {scan : Nat → List α → Option ε} {fault? : Nat → α → Option ε} {Sound : α → Prop}
  {n : Nat} {l : List α} {e : ε}

theorem eq_none_iff (h : ReportsFirst scan fault? Sound) : scan n l = none ↔ ∀ a ∈ l, Sound a := by
  induction l generalizing n with
  | nil => simp [h.nil]
  | cons a l ih => rw [h.cons, Option.or_eq_none_iff, h.fault?_eq_none_iff, ih, List.forall_mem_cons]

theorem eq_some_iff (h : ReportsFirst scan fault? Sound) : scan n l = some e ↔
    ∃ before a after, l = before ++ a :: after ∧ (∀ b ∈ before, Sound b) ∧
      fault? (n + before.length) a = some e := by
  induction l generalizing n with
  | nil => simp [h.nil]
  | cons a l ih =>
    rw [h.cons, Option.or_eq_some_iff, ih, h.fault?_eq_none_iff]
    constructor
    · rintro (hfault | ⟨ha, before, b, after, rfl, hbefore, hfault⟩)
      · exact ⟨[], a, l, rfl, nofun, hfault⟩
      · refine ⟨a :: before, b, after, rfl, List.forall_mem_cons.mpr ⟨ha, hbefore⟩, ?_⟩
        rwa [List.length_cons, Nat.add_comm before.length, ← Nat.add_assoc]
    · rintro ⟨before, b, after, hl, hbefore, hfault⟩
      cases before with
      | nil =>
        cases hl
        exact .inl hfault
      | cons c before =>
        cases hl
        obtain ⟨ha, hbefore⟩ := List.forall_mem_cons.mp hbefore
        rw [List.length_cons, Nat.add_comm before.length, ← Nat.add_assoc] at hfault
        exact .inr ⟨ha, before, b, after, rfl, hbefore, hfault⟩

end ReportsFirst

theorem Color.inPalette_iff_le {c : Color} : c.InPalette ↔ c ≤ 9 := Nat.lt_succ_iff

namespace Grid

variable {g h : Grid} {row : List Color} {rows : List (List Color)} {width r : Nat} {e : GridError}

/-! ### Rows that make up a grid -/

/-- The length of the first row; no row is as good as an empty one. -/
def firstLength (rows : List (List Color)) : Nat := (rows.head?.map List.length).getD 0

/-- A row of `width` colors of the palette. -/
structure SoundRow (width : Nat) (row : List Color) : Prop where
  length_eq : row.length = width
  le_nine : ∀ color ∈ row, color ≤ 9

structure Rectangular (rows : List (List Color)) : Prop where
  pos : 0 < firstLength rows
  sound : ∀ row ∈ rows, SoundRow (firstLength rows) row

/-- What is wrong with row `r`: its length is examined before its colors, and these from the left. -/
inductive RowFault (width r : Nat) (row : List Color) : GridError → Prop
  | ragged (hlength : row.length ≠ width) : RowFault width r row (.raggedRow r width row.length)
  | color {before after : List Color} {color : Color} (hlength : row.length = width)
      (hrow : row = before ++ color :: after) (hbefore : ∀ c ∈ before, c ≤ 9) (hcolor : ¬color ≤ 9) :
      RowFault width r row (.colorOutOfRange r before.length color)

/-- The first fault of rows in reading order: there is nothing to read, or a row is at fault and none before it is. -/
inductive FirstFault (rows : List (List Color)) : GridError → Prop
  | empty (h : firstLength rows = 0) : FirstFault rows (.emptyShape rows.length (firstLength rows))
  | row {before after : List (List Color)} {row : List Color} {e : GridError} (hpos : 0 < firstLength rows)
      (hrows : rows = before ++ row :: after) (hbefore : ∀ row ∈ before, SoundRow (firstLength rows) row)
      (hfault : RowFault (firstLength rows) before.length row e) : FirstFault rows e

/-! ### Faults -/

theorem colorFault?_reports (r : Nat) :
    ReportsFirst (colorFault? r) (fun c color => if color ≤ 9 then none else some (.colorOutOfRange r c color))
      (· ≤ 9) where
  nil _ := rfl
  cons c color rest := by
    rw [colorFault?]
    by_cases hcolor : color ≤ 9
    · rw [if_pos (Color.inPalette_iff_le.mpr hcolor), if_pos hcolor, Option.none_or]
    · rw [if_neg (mt Color.inPalette_iff_le.mp hcolor), if_neg hcolor, Option.some_or]
  fault?_eq_none_iff c color := by simp

theorem rowFault?_reports (width : Nat) :
    ReportsFirst (rowFault? width)
      (fun r row => if row.length = width then colorFault? r 0 row else some (.raggedRow r width row.length))
      (SoundRow width) where
  nil _ := rfl
  cons r row rest := by
    rw [rowFault?]
    split
    · rfl
    · rw [Option.some_or]
  fault?_eq_none_iff r row := by
    split
    · rename_i hlength
      rw [(colorFault?_reports r).eq_none_iff]
      exact ⟨fun h => ⟨hlength, h⟩, (·.le_nine)⟩
    · rename_i hlength
      exact iff_of_false (Option.some_ne_none _) fun h => hlength h.length_eq

theorem rowFault_iff :
    (if row.length = width then colorFault? r 0 row else some (.raggedRow r width row.length)) = some e ↔
      RowFault width r row e := by
  constructor
  · intro h
    split at h
    · rename_i hlength
      obtain ⟨before, color, after, hrow, hbefore, hfault⟩ := (colorFault?_reports r).eq_some_iff.mp h
      split at hfault
      · cases hfault
      · rename_i hcolor
        cases hfault
        rw [Nat.zero_add]
        exact .color hlength hrow hbefore hcolor
    · rename_i hlength
      cases h
      exact .ragged hlength
  · intro h
    cases h with
    | ragged hlength => exact if_neg hlength
    | color hlength hrow hbefore hcolor =>
      rw [if_pos hlength]
      refine (colorFault?_reports r).eq_some_iff.mpr ⟨_, _, _, hrow, hbefore, ?_⟩
      rw [if_neg hcolor, Nat.zero_add]

/-! ### Reading rows -/

/-- All that can come of reading rows. -/
inductive Reading (rows : List (List Color)) : Prop
  | empty (hzero : firstLength rows = 0)
      (hread : ofRows rows = .error (.emptyShape rows.length (firstLength rows)))
  | fault (e : GridError) (hpos : 0 < firstLength rows) (hfault : rowFault? (firstLength rows) 0 rows = some e)
      (hread : ofRows rows = .error e)
  | grid (g : Grid) (hpos : 0 < firstLength rows) (hfault : rowFault? (firstLength rows) 0 rows = none)
      (hread : ofRows rows = .ok g) (hrows : g.rows = rows.length) (hcols : g.cols = firstLength rows)
      (hcells : g.cells.toList = rows.flatten)

theorem reading (rows : List (List Color)) : Reading rows := by
  obtain ⟨result, hread⟩ : ∃ result, ofRows rows = result := ⟨_, rfl⟩
  have hresult := hread
  unfold ofRows at hresult
  dsimp only at hresult
  split at hresult
  · rename_i hpos
    split at hresult <;> rename_i hfault <;> subst hresult
    · exact .fault _ hpos.2 hfault hread
    · exact .grid _ hpos.2 hfault hread rfl rfl rfl
  · rename_i hempty
    subst hresult
    refine .empty ?_ hread
    cases rows with
    | nil => rfl
    | cons first rest => exact Nat.eq_zero_of_not_pos fun hpos => hempty ⟨Nat.succ_pos _, hpos⟩

theorem rectangular_iff :
    Rectangular rows ↔ 0 < firstLength rows ∧ rowFault? (firstLength rows) 0 rows = none := by
  rw [(rowFault?_reports _).eq_none_iff]
  exact ⟨fun h => ⟨h.pos, h.sound⟩, fun h => ⟨h.1, h.2⟩⟩

theorem firstFault_iff : FirstFault rows e ↔
    firstLength rows = 0 ∧ e = .emptyShape rows.length (firstLength rows) ∨
      0 < firstLength rows ∧ rowFault? (firstLength rows) 0 rows = some e := by
  rw [(rowFault?_reports _).eq_some_iff]
  simp only [Nat.zero_add, rowFault_iff]
  constructor
  · intro h
    cases h with
    | empty hzero => exact .inl ⟨hzero, rfl⟩
    | row hpos hrows hbefore hfault => exact .inr ⟨hpos, _, _, _, hrows, hbefore, hfault⟩
  · rintro (⟨hzero, rfl⟩ | ⟨hpos, before, row, after, hrows, hbefore, hfault⟩)
    · exact .empty hzero
    · exact .row hpos hrows hbefore hfault

theorem exists_ofRows_iff : (∃ g, ofRows rows = .ok g) ↔ Rectangular rows := by
  rw [rectangular_iff]
  cases reading rows with
  | empty hzero hread => simp [hread, hzero]
  | fault e hpos hfault hread => simp [hread, hfault]
  | grid g hpos hfault hread => simp [hread, hpos, hfault]

theorem ofRows_eq_error_iff : ofRows rows = .error e ↔ FirstFault rows e := by
  rw [firstFault_iff]
  cases reading rows with
  | empty hzero hread => simp [hread, hzero, eq_comm]
  | fault e hpos hfault hread => simp [hread, hpos, hfault, Nat.ne_of_gt hpos]
  | grid g hpos hfault hread => simp [hread, hfault, Nat.ne_of_gt hpos]

/-! ### Rows of a grid -/

theorem length_of_mem_toRows (h : row ∈ g.toRows) : row.length = g.cols := by
  obtain ⟨r, hr, rfl⟩ := List.mem_map.mp h
  rw [row_eq_ofFn (List.mem_range.mp hr), List.length_ofFn]

theorem length_toRows : g.toRows.length = g.rows := by simp [toRows]

/-- The rows in order make up the cells. -/
theorem flatten_toRows : g.toRows.flatten = g.cells.toList := by
  -- so do the first rows and the first cells
  have hfirst : ∀ n, ((List.range n).map g.row).flatten = g.cells.toList.take (n * g.cols) := by
    intro n
    induction n with
    | zero => simp
    | succ n ih =>
      have hrow : g.row n = (g.cells.toList.drop (n * g.cols)).take g.cols := by
        simp [row, List.extract_eq_take_drop, Nat.succ_mul]
      rw [List.range_succ, List.map_append, List.flatten_append, ih, Nat.succ_mul, List.take_add, ← hrow]
      simp
  rw [toRows, hfirst]
  exact List.take_of_length_le (by simp [g.size_cells])

theorem firstLength_toRows : firstLength g.toRows = g.cols := by
  cases hrows : g.toRows with
  | nil => exact absurd (hrows ▸ length_toRows (g := g)).symm (Nat.ne_of_gt g.rows_pos)
  | cons first rest => exact length_of_mem_toRows (hrows ▸ List.mem_cons_self)

/-- Two grids of one shape with the same cells in order are one. -/
theorem ext_toList (hrows : g.rows = h.rows) (hcols : g.cols = h.cols) (hcells : g.cells.toList = h.cells.toList) :
    g = h := by
  obtain ⟨R, C, a, hR, hC, ha⟩ := g
  obtain ⟨R', C', b, hR', hC', hb⟩ := h
  exact mk.injEq .. ▸ ⟨hrows, hcols, Array.toList_inj.mp hcells⟩

theorem inPalette_iff_toRows : g.InPalette ↔ ∀ row ∈ g.toRows, ∀ color ∈ row, color ≤ 9 := by
  simp only [← Color.inPalette_iff_le]
  rw [InPalette, ← List.forall_mem_flatten, flatten_toRows]
  simp only [Array.mem_toList_iff]

theorem rectangular_toRows (hg : g.InPalette) : Rectangular g.toRows where
  pos := firstLength_toRows ▸ g.cols_pos
  sound row hrow := ⟨(length_of_mem_toRows hrow).trans firstLength_toRows.symm, inPalette_iff_toRows.mp hg row hrow⟩

theorem map_length_eq_replicate {n : Nat} (hn : rows.length = n) (hwidth : ∀ row ∈ rows, row.length = width) :
    rows.map List.length = List.replicate n width := by
  rw [List.eq_replicate_iff, List.length_map, List.forall_mem_map]
  exact ⟨hn, hwidth⟩

theorem toRows_of_ofRows (h : ofRows rows = .ok g) : g.toRows = rows := by
  cases reading rows with
  | empty _ hread => cases h.symm.trans hread
  | fault _ _ _ hread => cases h.symm.trans hread
  | grid g' hpos hfault hread hrows hcols hcells =>
    cases h.symm.trans hread
    have hsound := (rowFault?_reports _).eq_none_iff.mp hfault
    -- rows of one length are known from how many they are and what they hold together
    have hlengths : rows.map List.length = List.replicate g.rows g.cols :=
      map_length_eq_replicate hrows.symm fun row hrow => (hsound row hrow).length_eq.trans hcols.symm
    have hlengths' : g.toRows.map List.length = List.replicate g.rows g.cols :=
      map_length_eq_replicate length_toRows fun row => length_of_mem_toRows
    exact List.eq_iff_flatten_eq.mpr ⟨flatten_toRows.trans hcells, hlengths'.trans hlengths.symm⟩

theorem ofRows_toRows (hg : g.InPalette) : ofRows g.toRows = .ok g := by
  obtain ⟨h, hread⟩ := exists_ofRows_iff.mpr (rectangular_toRows hg)
  have hrows := toRows_of_ofRows hread
  have hsame : h = g := ext_toList (length_toRows.symm.trans (hrows ▸ length_toRows))
    (firstLength_toRows.symm.trans (hrows ▸ firstLength_toRows))
    (flatten_toRows.symm.trans (hrows ▸ flatten_toRows))
  exact hsame ▸ hread

theorem inPalette_of_ofRows (h : ofRows rows = .ok g) : g.InPalette := by
  have hrect := exists_ofRows_iff.mp ⟨g, h⟩
  rw [inPalette_iff_toRows, toRows_of_ofRows h]
  exact fun row hrow => (hrect.sound row hrow).le_nine

/-- Rows are read as a grid exactly when they are rectangular, and the grid has these rows and only colors of the
palette; the rows of every such grid are read as that grid. What is reported of other rows is their first fault. -/
theorem rows_read_exactly (rows : List (List Color)) :
    ((∃ g, ofRows rows = .ok g) ↔ Rectangular rows) ∧
    (∀ g, ofRows rows = .ok g → g.InPalette ∧ g.toRows = rows) ∧
    (∀ g : Grid, g.InPalette → ofRows g.toRows = .ok g) ∧
    ∀ e, ofRows rows = .error e ↔ FirstFault rows e :=
  ⟨exists_ofRows_iff, fun _ h => ⟨inPalette_of_ofRows h, toRows_of_ofRows h⟩, fun _ => ofRows_toRows,
    fun _ => ofRows_eq_error_iff⟩

/-- Two rows that are a grid; then three of which the second is too short and holds a color outside the palette, as
the third one does: the length of the second is reported. -/
theorem rows_read_exactly_three_faults :
    let rows : List (List Color) := [[1, 0], [2, 3]]
    let g : Grid := ⟨2, 2, #[1, 0, 2, 3], by decide, by decide, rfl⟩
    let faulty : List (List Color) := [[1, 2], [10], [11, 4]]
    ofRows rows = .ok g ∧ g.InPalette ∧ g.toRows = rows ∧ ofRows g.toRows = .ok g ∧
      FirstFault faulty (.raggedRow 1 2 1) := by
  intro rows g faulty
  obtain ⟨-, hgives, hback, -⟩ := rows_read_exactly rows
  have hread : ofRows rows = .ok g := rfl
  obtain ⟨hg, hrows⟩ := hgives g hread
  exact ⟨hread, hg, hrows, hback g hg, ((rows_read_exactly faulty).2.2.2 _).mp rfl⟩

end Grid
end Mosaic

import Mosaic.Json.Grid
import Mosaic.Proofs.Failures
import Mosaic.Proofs.Periods
import Mosaic.Proofs.Rows

/-!
# Valid grids stay valid

A grid is valid when it has a row, a column, a cell at every position and only colors of the palette. What
is read or built is valid, and every stage of a trial makes a valid grid of one or names its cause of
failure. On the way no operation reads outside its grid (`Grid.SafeReads`), no color is without a counter
and no period is zero.
-/

namespace Mosaic

theorem exists_of_bind_eq_ok {ε α β : Type} {x : Except ε α} {f : α → Except ε β} {b : β}
    (h : x >>= f = .ok b) : ∃ a, x = .ok a ∧ f a = .ok b := by
  cases x with
  | error e => cases h
  | ok a => exact ⟨a, rfl, h⟩

theorem exists_mapM_eq_some {α β : Type} {f : α → Option β} {l : List α}
    (h : ∀ a ∈ l, ∃ b, f a = some b) : ∃ bs, l.mapM f = some bs := by
  induction l with
  | nil => exact ⟨[], rfl⟩
  | cons a rest ih =>
    obtain ⟨⟨b, hb⟩, hrest⟩ := List.forall_mem_cons.mp h
    obtain ⟨bs, hbs⟩ := ih hrest
    exact ⟨b :: bs, by rw [List.mapM_cons, hb, hbs]; rfl⟩

/-! ### Valid grids -/

namespace Grid

variable {g h : Grid} {color : Color}

structure Valid (g : Grid) : Prop where
  one_le_rows : 1 ≤ g.rows
  one_le_cols : 1 ≤ g.cols
  size_cells : g.cells.size = g.rows * g.cols
  le_nine : ∀ c ∈ g.cells, c.toNat ≤ 9

/-- Only the colors of a grid can be at fault. -/
theorem valid_iff : g.Valid ↔ g.InPalette :=
  ⟨fun h c hc => Nat.lt_succ_of_le (h.le_nine c hc),
    fun h => ⟨g.rows_pos, g.cols_pos, g.size_cells, fun c hc => Nat.le_of_lt_succ (h c hc)⟩⟩

/-! ### Grids that are built -/

theorem inPalette_replicate {rows cols : Nat} {hrows hcols} (h : color.InPalette) :
    (replicate rows cols hrows hcols color).InPalette := by
  intro c hc
  rw [(Array.mem_replicate.mp hc).2]
  exact h

theorem inPalette_of_filled {rows cols : Nat} (h : filled rows cols color = .ok g) : g.InPalette := by
  unfold filled at h
  split at h
  · split at h
    · rename_i hcolor
      cases h
      exact inPalette_replicate hcolor
    · cases h
  · cases h

theorem inPalette_of_ofScan {value : Scan} (h : (JsonForm.ofScan value : Decoded Grid) = .ok g) :
    g.InPalette := by
  obtain ⟨rows, -, h⟩ := exists_of_bind_eq_ok h
  split at h
  · rename_i hrows
    cases h
    exact inPalette_of_ofRows hrows
  · cases h

/-! ### Grids that are made of others -/

/-- Rearranging, repeating or leaving out cells keeps to the palette. -/
theorem InPalette.reindex (hg : g.InPalette) {rows cols hrows hcols} {i j : Nat → Nat → Nat}
    {hi : ∀ r c, r < rows → c < cols → i r c < g.rows}
    {hj : ∀ r c, r < rows → c < cols → j r c < g.cols} :
    (ofFn rows cols hrows hcols fun r c hr hc =>
      g.get (i r c) (j r c) (hi r c hr hc) (hj r c hr hc)).InPalette := by
  refine hg.of_get? fun r c color hget => ?_
  rw [get?_reindex] at hget
  split at hget
  · exact ⟨_, _, hget⟩
  · cases hget

theorem InPalette.flip (hg : g.InPalette) {axis : Axis} : (g.flip axis).InPalette := by
  cases axis with
  | rows => exact hg.reindex
  | cols => exact hg.reindex

theorem InPalette.halfTurn (hg : g.InPalette) : g.halfTurn.InPalette := hg.reindex

theorem InPalette.turn (hg : g.InPalette) {k : Int} : (g.turn k).InPalette := by
  unfold Grid.turn
  split
  · exact hg
  · split
    · exact hg.reindex
    · split
      · exact hg.reindex
      · exact hg.reindex

theorem InPalette.roll (hg : g.InPalette) {shift : Int} {axis : Axis} : (g.roll shift axis).InPalette := by
  cases axis with
  | rows => exact hg.reindex
  | cols => exact hg.reindex

theorem InPalette.invert (hcolor : color.InPalette) : (g.invert color).InPalette := by
  intro c hc
  obtain ⟨r, col, hget⟩ := mem_cells_iff.mp hc
  rw [get?_invert, Option.map_eq_some_iff] at hget
  obtain ⟨old, -, rfl⟩ := hget
  split
  · exact hcolor
  · exact Color.background_inPalette

/-! ### Reads -/

/-- `h` has a cell at every position of a `rows` by `cols` rectangle, and shows there what `cell` reads,
which is never out of range. -/
structure ReadsAs (h : Grid) (rows cols : Nat) (cell : Nat → Nat → Except RangeError Color) : Prop where
  shape : h.shape = (rows, cols)
  cells : ∀ r c, r < rows → c < cols → ∃ color, cell r c = .ok color ∧ h.get? r c = some color

theorem read_eq_ok {r c : Nat} (hr : r < g.rows) (hc : c < g.cols) : g.read r c = .ok (g.get r c hr hc) :=
  dif_pos ⟨hr, hc⟩

theorem readsAs_reindex {rows cols hrows hcols} {i j : Nat → Nat → Nat}
    {hi : ∀ r c, r < rows → c < cols → i r c < g.rows}
    {hj : ∀ r c, r < rows → c < cols → j r c < g.cols} :
    (ofFn rows cols hrows hcols fun r c hr hc =>
      g.get (i r c) (j r c) (hi r c hr hc) (hj r c hr hc)).ReadsAs rows cols
        fun r c => g.read (i r c) (j r c) := by
  refine ⟨rfl, fun r c hr hc => ⟨_, read_eq_ok (hi r c hr hc) (hj r c hr hc), ?_⟩⟩
  rw [get?_ofFn, dif_pos ⟨hr, hc⟩]

theorem readsAs_invert : (g.invert color).ReadsAs g.rows g.cols fun r c =>
    (g.read r c).map fun old => if old = Color.background then color else Color.background := by
  refine ⟨rfl, fun r c hr hc => ⟨_, by rw [read_eq_ok hr hc]; rfl, ?_⟩⟩
  rw [get?_invert, get?_eq_some hr hc]
  rfl

/-- A cell where a line of one list meets a line of another. -/
def readAt (g : Grid) (rows cols : List Nat) (r c : Nat) : Except RangeError Color :=
  match rows[r]?, cols[c]? with
  | some row, some col => g.read row col
  | none, _ => .error (.row r)
  | some _, none => .error (.col c)

theorem readsAs_select {rows : Array (Fin g.rows)} {cols : Array (Fin g.cols)} {hrows hcols} :
    (g.select rows cols hrows hcols).ReadsAs rows.size cols.size
      (g.readAt (rows.toList.map Fin.val) (cols.toList.map Fin.val)) := by
  refine ⟨rfl, fun r c hr hc => ⟨g.get rows[r] cols[c] rows[r].isLt cols[c].isLt, ?_, ?_⟩⟩
  · simp only [readAt, List.getElem?_map, Array.getElem?_toList, Array.getElem?_eq_getElem hr,
      Array.getElem?_eq_getElem hc, Option.map_some]
    exact read_eq_ok rows[r].isLt cols[c].isLt
  · rw [get?_select, Array.getElem?_eq_getElem hr, Array.getElem?_eq_getElem hc]
    exact get?_eq_some rows[r].isLt cols[c].isLt

theorem readRow_eq_ok {r : Nat} (hr : r < g.rows) : g.readRow r = .ok (g.row r) :=
  if_pos (g.size_cells ▸ Nat.mul_le_mul_right g.cols hr)

theorem readCol_eq_ok {c : Nat} (hc : c < g.cols) : ∃ colors, g.readCol c = .ok colors := by
  have hcells : ∀ r ∈ List.range g.rows, ∃ color, g.cells[r * g.cols + c]? = some color := by
    intro r hr
    have hlt : r * g.cols + c < g.cells.size := g.size_cells ▸ index_lt (List.mem_range.mp hr) hc
    exact ⟨_, Array.getElem?_eq_getElem hlt⟩
  obtain ⟨colors, hcolors⟩ := exists_mapM_eq_some hcells
  exact ⟨colors, by rw [readCol, hcolors]⟩

/-- The operations on a grid read and write inside it: each shows what it reads, and a block is copied line
by line from whole rows of its tile. -/
structure SafeReads (g : Grid) : Prop where
  row : ∀ r < g.rows, g.readRow r = .ok (g.row r) ∧ (g.row r).length = g.cols
  col : ∀ c < g.cols, ∃ colors, g.readCol c = .ok colors
  flipRows : g.flipRows.ReadsAs g.rows g.cols fun r c => g.read (g.rows - 1 - r) c
  flipCols : g.flipCols.ReadsAs g.rows g.cols fun r c => g.read r (g.cols - 1 - c)
  transpose : g.transpose.ReadsAs g.cols g.rows fun r c => g.read c r
  quarterTurn : g.quarterTurn.ReadsAs g.cols g.rows fun r c => g.read c (g.cols - 1 - r)
  halfTurn : g.halfTurn.ReadsAs g.rows g.cols fun r c => g.read (g.rows - 1 - r) (g.cols - 1 - c)
  backTurn : g.backTurn.ReadsAs g.cols g.rows fun r c => g.read (g.rows - 1 - c) r
  rollRows : ∀ shift, (g.roll shift .rows).ReadsAs g.rows g.cols fun r c =>
    g.read ((r + g.rows - wrap shift g.rows) % g.rows) c
  rollCols : ∀ shift, (g.roll shift .cols).ReadsAs g.rows g.cols fun r c =>
    g.read r ((c + g.cols - wrap shift g.cols) % g.cols)
  invert : ∀ color, (g.invert color).ReadsAs g.rows g.cols fun r c =>
    (g.read r c).map fun old => if old = Color.background then color else Color.background
  cropInner : ∀ t top bottom left right, g.Edges t top bottom left right →
    (g.cropInner t).ReadsAs (bottom - top + 1) (right - left + 1) fun r c => g.read (top + r) (left + c)
  cropOuter : ∀ t kept, g.cropOuter? t = some kept →
    kept.ReadsAs (g.brightRows t).length (g.brightCols t).length
      (g.readAt ((g.brightRows t).map Fin.val) ((g.brightCols t).map Fin.val))
  block : ∀ (tile : Grid) row col, row + tile.rows ≤ g.rows → col + tile.cols ≤ g.cols →
    ∀ r < tile.rows, (row + r) * g.cols + col + tile.cols ≤ g.cells.size

theorem safeReads (g : Grid) : g.SafeReads where
  row r hr := ⟨readRow_eq_ok hr, by rw [row_eq_ofFn hr, List.length_ofFn]⟩
  col c hc := readCol_eq_ok hc
  flipRows := readsAs_reindex
  flipCols := readsAs_reindex
  transpose := readsAs_reindex
  quarterTurn := readsAs_reindex
  halfTurn := readsAs_reindex
  backTurn := readsAs_reindex
  rollRows shift := by
    unfold roll
    exact readsAs_reindex
  rollCols shift := by
    unfold roll
    exact readsAs_reindex
  invert color := readsAs_invert
  cropInner t top bottom left right h := by
    rw [cropInner_of_edges h]
    exact readsAs_reindex
  cropOuter t kept h := by
    by_cases hbright : g.Bright t
    · obtain ⟨hrows, hcols, hselect⟩ := cropOuter?_of_bright hbright
      cases hselect.symm.trans h
      exact readsAs_select
    · cases (cropOuter?_of_not_bright hbright).symm.trans h
  block tile row col hr hc r hlt := g.size_cells ▸ block_line_le hr hc hlt

end Grid

/-! ### Stages -/

/-- A valid grid, or a failure that names its cause. That a color has no counter is none. -/
def ValidOrFailure : Except TrialFailure Grid → Prop
  | .ok g => g.Valid
  | .error failure => ∀ color, failure ≠ .uncountedColor color

theorem validOrFailure_of {result : Except TrialFailure Grid} (hok : ∀ g, result = .ok g → g.InPalette)
    (herror : ∀ color, result ≠ .error (.uncountedColor color)) : ValidOrFailure result := by
  cases result with
  | ok g => exact Grid.valid_iff.mpr (hok g rfl)
  | error failure => exact fun color hcolor => herror color (congrArg _ hcolor)

theorem Preprocess.validOrFailure_apply {p : Preprocess} {g : Grid} (hg : g.InPalette) :
    ValidOrFailure (p.apply g) := by
  refine validOrFailure_of (fun working => inPalette_of_apply hg) fun color h => ?_
  obtain ⟨hkind, -⟩ := apply_error_iff.mp h
  cases hkind

theorem ColorSource.inPalette_of_resolve {s : ColorSource} {g : Grid} {color : Color} (hg : g.InPalette)
    (h : s.resolve g = .ok color) : color.InPalette := by
  obtain ⟨value, hvalue⟩ := s.exists_figure hg
  rw [resolve_of_figure hvalue] at h
  split at h
  · rename_i hlt
    cases h
    rw [Color.InPalette, UInt8.toNat_ofNat_of_lt' (hlt.trans (by decide))]
    exact hlt
  · cases h

theorem TileSequence.inPalette_current {s : TileSequence} (hg : s.grid.InPalette) :
    s.current.InPalette := by
  unfold current
  split
  · exact hg.turn
  · split
    · exact hg.halfTurn
    · exact hg

namespace Transform

variable {t : Transform} {g tile : Grid} {n : Nat}

theorem inPalette_of_invert {source : ColorSource} (hg : g.InPalette)
    (h : (source.resolve g).map g.invert = .ok tile) : tile.InPalette := by
  cases hresolve : source.resolve g with
  | error failure => rw [hresolve] at h; cases h
  | ok color =>
    rw [hresolve] at h
    cases h
    exact .invert (ColorSource.inPalette_of_resolve hg hresolve)

theorem inPalette_of_pure (hseq : t.isSequence = false) (hg : g.InPalette) (h : t.apply g = .ok tile) :
    tile.InPalette := by
  cases t with
  | rotateLoop | rotateLoopRows | rotateLoopCols | flipLoop | flipLoopRows | flipLoopCols => cases hseq
  | identity => cases h; exact hg
  | flip axis => cases h; exact hg.flip
  | rot90 k => cases h; exact hg.turn
  | roll shift axis => cases h; exact hg.roll
  | swapAxes => cases h; exact hg.transpose
  | invertColor => exact inPalette_of_invert hg h
  | invert source => exact inPalette_of_invert hg h

theorem inPalette_of_nth (hg : g.InPalette) (h : (t.tiles g).nth n = .ok tile) : tile.InPalette := by
  cases hseq : t.isSequence with
  | false =>
    rw [nth_tiles_of_pure hseq] at h
    exact inPalette_of_pure hseq hg h
  | true =>
    obtain ⟨states, hstates⟩ := isSequence_iff.mp hseq
    rw [tiles_of_sequence? hstates, TileSource.nth_sequence] at h
    cases h
    exact TileSequence.inPalette_current ((grid_drop_of_sequence? hstates).symm ▸ hg)

theorem validOrFailure_nth (hg : g.InPalette) (n : Nat) : ValidOrFailure ((t.tiles g).nth n) := by
  refine validOrFailure_of (fun tile => inPalette_of_nth hg) fun color h => ?_
  have hmakes := makes_nth (t := t) (n := n) hg
  rw [h] at hmakes
  obtain ⟨source, value, -, -, hkind⟩ := hmakes
  cases hkind

theorem validOrFailure_apply (hg : g.InPalette) : ValidOrFailure (t.apply g) :=
  nth_tiles_zero (t := t) ▸ validOrFailure_nth hg 0

end Transform

namespace Query

variable {q : Query} {g : Grid} {x y : Nat}

theorem evaluate_of_lt (hg : g.InPalette) (h : x < g.rows ∧ y < g.cols) :
    ∃ selected, q.evaluate g x y = .ok selected := by
  obtain ⟨k, hk⟩ := q.exists_criterion hg
  rw [evaluate, Grid.get?_eq_some h.1 h.2, hk]
  exact ⟨_, rfl⟩

theorem evaluate_of_not_lt (h : ¬(x < g.rows ∧ y < g.cols)) :
    q.evaluate g x y = .error (.cellOutOfRange x y) := by
  rw [evaluate, Grid.get?_of_not_lt h]

end Query

/-! ### Trials -/

namespace Candidate

variable {c : Candidate} {g out : Grid} {canvas : Canvas}

theorem inPalette_of_run (hg : g.InPalette) (hcanvas : ∀ ref, canvas = .reference ref → ref.InPalette)
    (h : c.run g canvas = .ok out) : out.InPalette := by
  obtain ⟨working, start, k, hw, hs, hpos, hk⟩ := exists_of_run h
  have htiled := tiled_of_run hw hs hpos hk h
  have hworking := Preprocess.inPalette_of_apply hg hw
  intro color hmem
  obtain ⟨r, col, hget⟩ := Grid.mem_cells_iff.mp hmem
  by_cases hon : OnTile working out r col
  · rcases htiled.onTile r col hon with ⟨-, hblank⟩ | ⟨-, tile, htile, -, hshown⟩
    · rw [hblank] at hget
      cases hget
      exact Color.background_inPalette
    · rw [hshown] at hget
      exact Transform.inPalette_of_nth hworking htile color (Grid.mem_cells_iff.mpr ⟨_, _, hget⟩)
  · -- off the tiles a reference shows through, and a scaled canvas has no such cells
    cases canvas with
    | reference ref =>
      rw [htiled.offTile ref rfl r col hon] at hget
      exact hcanvas ref rfl color (Grid.mem_cells_iff.mpr ⟨_, _, hget⟩)
    | scaled a b =>
      obtain ⟨hr, hc, -⟩ := Grid.get?_eq_some_iff.mp hget
      exact absurd (htiled.covered a b rfl r col hr hc) hon

theorem validOrFailure_run (hg : g.InPalette) (hcanvas : ∀ ref, canvas = .reference ref → ref.InPalette) :
    ValidOrFailure (c.run g canvas) := by
  refine validOrFailure_of (fun out => inPalette_of_run hg hcanvas) fun color h => ?_
  have hkind := (failsWith_of_run_error hg h).kind
  simp at hkind

/-- Grids that are read or built are valid. On a valid grid every read stays inside, every color has a
counter and every period is positive; and whatever the candidate, each of its stages and a trial on any
valid reference or any scale give a valid grid or a failure, and its query answers inside the grid and
reports a position outside. -/
theorem pipeline_valid :
    (∀ rows g, Grid.ofRows rows = .ok g → g.Valid) ∧
    (∀ rows cols color g, Grid.filled rows cols color = .ok g → g.Valid) ∧
    (∀ value g, (JsonForm.ofScan value : Decoded Grid) = .ok g → g.Valid) ∧
    ∀ g : Grid, g.Valid →
      g.SafeReads ∧ (∃ tally, g.tally = .ok tally) ∧ (∀ axis, 0 < g.period axis) ∧
      ∀ c : Candidate,
        ValidOrFailure (c.preprocess.apply g) ∧ ValidOrFailure (c.transform.apply g) ∧
        (∀ n, ValidOrFailure ((c.transform.tiles g).nth n)) ∧
        (∀ canvas, (∀ ref, canvas = .reference ref → ref.Valid) → ValidOrFailure (c.run g canvas)) ∧
        ∀ x y, (x < g.rows ∧ y < g.cols → ∃ selected, c.query.evaluate g x y = .ok selected) ∧
          (¬(x < g.rows ∧ y < g.cols) → c.query.evaluate g x y = .error (.cellOutOfRange x y)) := by
  refine ⟨fun rows g h => Grid.valid_iff.mpr (Grid.inPalette_of_ofRows h),
    fun rows cols color g h => Grid.valid_iff.mpr (Grid.inPalette_of_filled h),
    fun value g h => Grid.valid_iff.mpr (Grid.inPalette_of_ofScan h), fun g hvalid => ?_⟩
  have hg := Grid.valid_iff.mp hvalid
  refine ⟨g.safeReads, ⟨_, Grid.tally_of_inPalette hg⟩, g.period_pos, fun c => ?_⟩
  refine ⟨Preprocess.validOrFailure_apply hg, Transform.validOrFailure_apply hg,
    Transform.validOrFailure_nth hg, fun canvas hcanvas => ?_, fun x y => ?_⟩
  · exact validOrFailure_run hg fun ref href => Grid.valid_iff.mp (hcanvas ref href)
  · exact ⟨Query.evaluate_of_lt hg, Query.evaluate_of_not_lt⟩

/-- A candidate with data that no catalog has: its trial fails over the color, and its query has an answer
in the last cell but none beyond it. -/
theorem pipeline_valid_no_catalog :
    let g : Grid := ⟨1, 3, #[1, 0, 2], by decide, by decide, rfl⟩
    let c : Candidate := ⟨.cropInner 200, .invert (.fixed 77), .periodLength1⟩
    Grid.ofRows [[1, 0, 2]] = .ok g ∧ g.Valid ∧
      c.run g (.reference g) = .error (.grid (.colorOutOfRange 0 0 77)) ∧
      ValidOrFailure (c.run g (.reference g)) ∧
      (∃ selected, c.query.evaluate g 0 2 = .ok selected) ∧
      c.query.evaluate g 0 3 = .error (.cellOutOfRange 0 3) := by
  intro g c
  obtain ⟨hofRows, -, -, hpipeline⟩ := pipeline_valid
  have hrows : Grid.ofRows [[1, 0, 2]] = .ok g := by decide
  have hvalid : g.Valid := hofRows _ g hrows
  obtain ⟨-, -, -, hstages⟩ := hpipeline g hvalid
  obtain ⟨-, -, -, hrun, hquery⟩ := hstages c
  have href : ∀ ref, Canvas.reference g = .reference ref → ref.Valid := fun ref h => by
    cases h
    exact hvalid
  exact ⟨hrows, hvalid, by decide +kernel, hrun _ href, (hquery 0 2).1 (by decide), (hquery 0 3).2 (by decide)⟩

end Candidate
end Mosaic

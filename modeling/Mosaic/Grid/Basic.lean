import Mosaic.Failure

/-!
# Grids

A grid is a rectangle of colors with at least one row and one column, kept row by row. `Grid.ofFn`
builds one cell by cell and `Grid.get` reads a cell whose position is in range; a grid is determined
by its shape and its cells (`Grid.ext_get`). `Grid.ofRows` accepts a list of rows, or names the first
fault in reading order. Positions and places of cells are numbers without a bound.
-/

namespace Mosaic

structure Grid where
  rows : Nat
  cols : Nat
  /-- The colors, row by row. -/
  cells : Array Color
  rows_pos : 0 < rows
  cols_pos : 0 < cols
  size_cells : cells.size = rows * cols
deriving DecidableEq, Repr

/-- A read outside a grid. -/
inductive RangeError
  | cell (row col : Nat)
  | row (row : Nat)
  | col (col : Nat)
deriving DecidableEq, Repr

namespace Grid

variable {g h : Grid}

/-! ### Positions -/

theorem index_lt {rows cols r c : Nat} (hr : r < rows) (hc : c < cols) :
    r * cols + c < rows * cols :=
  calc r * cols + c < r * cols + cols := Nat.add_lt_add_left hc _
    _ = (r + 1) * cols := (Nat.succ_mul r cols).symm
    _ ≤ rows * cols := Nat.mul_le_mul_right cols hr

theorem row_of_index_lt {rows cols i : Nat} (hi : i < rows * cols) : i / cols < rows :=
  Nat.div_lt_of_lt_mul (Nat.mul_comm rows cols ▸ hi)

theorem index_div {cols r c : Nat} (hc : c < cols) : (r * cols + c) / cols = r := by
  rw [Nat.add_comm, Nat.add_mul_div_right _ _ (by omega), Nat.div_eq_of_lt hc, Nat.zero_add]

theorem index_mod {cols r c : Nat} (hc : c < cols) : (r * cols + c) % cols = c := by
  rw [Nat.add_comm, Nat.add_mul_mod_self_right, Nat.mod_eq_of_lt hc]

/-! ### Cells -/

def shape (g : Grid) : Shape := (g.rows, g.cols)

/-- The color at row `r` and column `c`. -/
def get (g : Grid) (r c : Nat) (hr : r < g.rows) (hc : c < g.cols) : Color :=
  have : r * g.cols + c < g.cells.size := g.size_cells ▸ index_lt hr hc
  g.cells[r * g.cols + c]

def get? (g : Grid) (r c : Nat) : Option Color :=
  if h : r < g.rows ∧ c < g.cols then some (g.get r c h.1 h.2) else none

/-- The color at row `r` and column `c`, or the fault of reading there. -/
def read (g : Grid) (r c : Nat) : Except RangeError Color :=
  if h : r < g.rows ∧ c < g.cols then .ok (g.get r c h.1 h.2) else .error (.cell r c)

/-- The grid of the given shape whose cell at row `r` and column `c` is `f r c`. -/
def ofFn (rows cols : Nat) (hrows : 0 < rows) (hcols : 0 < cols)
    (f : (r c : Nat) → r < rows → c < cols → Color) : Grid where
  rows
  cols
  cells := Array.ofFn fun i : Fin (rows * cols) =>
    f (i / cols) (i % cols) (row_of_index_lt i.isLt) (Nat.mod_lt _ hcols)
  rows_pos := hrows
  cols_pos := hcols
  size_cells := by simp

@[simp] theorem rows_ofFn {rows cols hrows hcols f} : (ofFn rows cols hrows hcols f).rows = rows :=
  rfl

@[simp] theorem cols_ofFn {rows cols hrows hcols f} : (ofFn rows cols hrows hcols f).cols = cols :=
  rfl

theorem get_congr {r r' c c' : Nat} {hr hc} (er : r = r') (ec : c = c') :
    g.get r c hr hc = g.get r' c' (er ▸ hr) (ec ▸ hc) := by
  subst er ec; rfl

@[simp] theorem get_ofFn {rows cols hrows hcols f r c} {hr : r < rows} {hc : c < cols} :
    (ofFn rows cols hrows hcols f).get r c hr hc = f r c hr hc := by
  simp only [get, ofFn, Array.getElem_ofFn]
  congr 1
  · exact index_div hc
  · exact index_mod hc

/-- Two grids of one shape with the same cells are one. -/
theorem ext_get (hrows : g.rows = h.rows) (hcols : g.cols = h.cols)
    (hget : ∀ r c (hr : r < g.rows) (hc : c < g.cols),
      g.get r c hr hc = h.get r c (hrows ▸ hr) (hcols ▸ hc)) : g = h := by
  obtain ⟨R, C, a, hR, hC, ha⟩ := g
  obtain ⟨R', C', b, hR', hC', hb⟩ := h
  dsimp only at hrows hcols hget
  subst hrows hcols
  suffices a = b by subst this; rfl
  apply Array.ext (by rw [ha, hb])
  intro i hi _
  have hi' : i < R * C := ha ▸ hi
  have key := hget (i / C) (i % C) (row_of_index_lt hi') (Nat.mod_lt _ hC)
  simpa only [get, Nat.div_add_mod'] using key

theorem get?_eq_some {r c : Nat} (hr : r < g.rows) (hc : c < g.cols) :
    g.get? r c = some (g.get r c hr hc) := dif_pos ⟨hr, hc⟩

/-- Every color of the grid belongs to the palette. -/
def InPalette (g : Grid) : Prop := ∀ c ∈ g.cells, Color.InPalette c

/-! ### Rows and columns -/

/-- The colors of row `r`, which is a stretch of the cells. -/
def row (g : Grid) (r : Nat) : List Color :=
  (g.cells.extract (r * g.cols) ((r + 1) * g.cols)).toList

def readRow (g : Grid) (r : Nat) : Except RangeError (List Color) :=
  if (r + 1) * g.cols ≤ g.cells.size then .ok (g.row r) else .error (.row r)

/-- The colors found from cell `c` on, each as far from the one before as a row is long. -/
def readCol (g : Grid) (c : Nat) : Except RangeError (List Color) :=
  match (List.range g.rows).mapM fun r => g.cells[r * g.cols + c]? with
  | some colors => .ok colors
  | none => .error (.col c)

def toRows (g : Grid) : List (List Color) := (List.range g.rows).map g.row

theorem row_eq_ofFn {r : Nat} (hr : r < g.rows) :
    g.row r = List.ofFn fun c : Fin g.cols => g.get r c hr c.isLt := by
  have hle : (r + 1) * g.cols ≤ g.rows * g.cols := Nat.mul_le_mul_right _ hr
  have hsize := g.size_cells
  apply List.ext_getElem
  · simp only [row, Array.length_toList, Array.size_extract, List.length_ofFn, Nat.succ_mul] at *
    omega
  · intro c _ _
    simp [row, get]

/-- The rows one under the other, the colors of a row apart by blanks. -/
def text (g : Grid) : String :=
  String.join (g.toRows.map fun row => " ".intercalate (row.map fun c => toString c.toNat) ++ "\n")

/-! ### Building -/

/-- The grid of the given shape that holds one color. -/
def replicate (rows cols : Nat) (hrows : 0 < rows) (hcols : 0 < cols) (color : Color) : Grid where
  rows
  cols
  cells := Array.replicate (rows * cols) color
  rows_pos := hrows
  cols_pos := hcols
  size_cells := by simp

/-- A one-colored grid; the shape is examined before the color. -/
def filled (rows cols : Nat) (color : Color) : Except GridError Grid :=
  if h : 0 < rows ∧ 0 < cols then
    if color.InPalette then .ok (replicate rows cols h.1 h.2 color)
    else .error (.colorOutOfRange 0 0 color)
  else .error (.emptyShape rows cols)

def blank (rows cols : Nat) : Except GridError Grid := filled rows cols Color.background

/-- The first color of row `r`, from column `c` on, that the palette does not have. -/
def colorFault? (r : Nat) : (c : Nat) → List Color → Option GridError
  | _, [] => none
  | c, color :: rest =>
    if color.InPalette then colorFault? r (c + 1) rest else some (.colorOutOfRange r c color)

/-- The first fault of rows that should be `width` long, counted from row `r`: the length of a row
is examined before its colors. -/
def rowFault? (width : Nat) : (r : Nat) → List (List Color) → Option GridError
  | _, [] => none
  | r, row :: rest =>
    if row.length = width then (colorFault? r 0 row).or (rowFault? width (r + 1) rest)
    else some (.raggedRow r width row.length)

theorem length_eq_of_rowFault? {width r : Nat} {rows : List (List Color)}
    (h : rowFault? width r rows = none) : ∀ row ∈ rows, row.length = width := by
  induction rows generalizing r with
  | nil => simp
  | cons row rest ih =>
    rw [rowFault?] at h
    split at h
    · rename_i hlen
      have hrest := (Option.or_eq_none_iff.mp h).2
      intro row' hmem
      cases hmem with
      | head => exact hlen
      | tail _ hmem => exact ih hrest row' hmem
    · simp at h

theorem length_flatten_of_rowFault? {width r : Nat} {rows : List (List Color)}
    (h : rowFault? width r rows = none) : rows.flatten.length = rows.length * width := by
  have hlen := length_eq_of_rowFault? h
  clear h
  induction rows with
  | nil => simp
  | cons row rest ih =>
    have hrow := hlen row (List.mem_cons_self ..)
    have hrest := ih fun r hr => hlen r (List.mem_cons_of_mem _ hr)
    simp only [List.flatten_cons, List.length_append, List.length_cons, hrow, hrest]
    rw [Nat.succ_mul, Nat.add_comm]

/-- The grid with the given rows, or their first fault in reading order. -/
def ofRows (rows : List (List Color)) : Except GridError Grid :=
  let width := (rows.head?.map List.length).getD 0
  if h : 0 < rows.length ∧ 0 < width then
    match hfault : rowFault? width 0 rows with
    | some fault => .error fault
    | none => .ok {
        rows := rows.length
        cols := width
        cells := rows.flatten.toArray
        rows_pos := h.1
        cols_pos := h.2
        size_cells := by simpa using length_flatten_of_rowFault? hfault }
  else .error (.emptyShape rows.length width)

end Grid

namespace RangeError

/-- The sentence for a read of a single cell; a row or a column has none. -/
def message? : RangeError → Option String
  | cell r c => some s!"cell ({r}, {c}) out of range"
  | row _ | col _ => none

end RangeError
end Mosaic

import Mosaic.Proofs.Blocks

/-!
# What a trial lays over its canvas

Tiles are numbered row by row. `TileSource.content` is what tile `i` of a trial receives, or the failure
that ends the trial there: a selected tile takes the state of the source that comes after as many others
as there are selected tiles before it. `laid_tileFrom` is the invariant of the loop over the tiles, from
any tile on: either every tile received its content and no other cell changed, or the first tile without
content stopped the loop.
-/

namespace Mosaic

/-- How many of the tiles before tile `i` are selected, where `across` tiles make a row. -/
def selectedBefore (selects : Nat → Nat → Bool) (across i : Nat) : Nat :=
  (List.range i).countP fun j => selects (j / across) (j % across)

theorem selectedBefore_succ {selects : Nat → Nat → Bool} {across i : Nat} :
    selectedBefore selects across (i + 1) =
      selectedBefore selects across i + if selects (i / across) (i % across) then 1 else 0 := by
  simp [selectedBefore, List.range_succ, List.countP_append, List.countP_singleton]

/-! ### Selected tiles -/

/-- Whether the criterion holds of the cell that tile `(x, y)` asks about. -/
def Criterion.selects (k : Criterion) (working : Grid) (x y : Nat) : Bool :=
  k.holds (x % working.rows) (y % working.cols)
    (working.get (x % working.rows) (y % working.cols) (Nat.mod_lt _ working.rows_pos)
      (Nat.mod_lt _ working.cols_pos))

namespace Query

variable {q : Query} {k : Criterion} {working : Grid} {failure : TrialFailure} {x y : Nat}

/-- The query is true of the cell that tile `(x, y)` asks about. -/
def selects (q : Query) (working : Grid) (x y : Nat) : Bool :=
  q.evaluate working (x % working.rows) (y % working.cols) matches .ok true

/-- The cell that a tile asks about is one of the working grid, so the query fails only if it comes to nothing. -/
theorem evaluate_tile : q.evaluate working (x % working.rows) (y % working.cols) =
    (q.criterion working).map fun k => k.selects working x y := by
  rw [evaluate, Grid.get?_eq_some (Nat.mod_lt _ working.rows_pos) (Nat.mod_lt _ working.cols_pos)]
  cases q.criterion working <;> rfl

theorem evaluate_of_criterion (hk : q.criterion working = .ok k) :
    q.evaluate working (x % working.rows) (y % working.cols) = .ok (k.selects working x y) := by
  rw [evaluate_tile, hk]
  rfl

theorem selects_of_criterion (hk : q.criterion working = .ok k) :
    q.selects working = k.selects working := by
  funext x y
  rw [selects, evaluate_of_criterion hk]
  cases k.selects working x y <;> rfl

end Query

/-! ### Numbers of tiles -/

theorem tile_eq_iff {across i x y : Nat} (h : 0 < across) :
    (x = i / across ∧ y = i % across) ↔ y < across ∧ x * across + y = i := by
  constructor
  · rintro ⟨rfl, rfl⟩
    exact ⟨Nat.mod_lt _ h, Nat.div_add_mod' i across⟩
  · rintro ⟨hy, rfl⟩
    exact ⟨(Grid.index_div hy).symm, (Grid.index_mod hy).symm⟩

/-- The tiles numbered from 0 are those of `down` rows and `across` columns. -/
theorem tile_lt_iff {down across x y : Nat} :
    (y < across ∧ 0 ≤ x * across + y ∧ x * across + y < 0 + down * across) ↔ x < down ∧ y < across := by
  rw [Nat.zero_add]
  constructor
  · rintro ⟨hy, -, h⟩
    have hx := Grid.row_of_index_lt h
    rw [Grid.index_div hy] at hx
    exact ⟨hx, hy⟩
  · rintro ⟨hx, hy⟩
    exact ⟨hy, Nat.zero_le _, Grid.index_lt hx hy⟩

theorem exists_tile_of_lt {down across i : Nat} (h : i < 0 + down * across) :
    ∃ x y, x < down ∧ y < across ∧ i = x * across + y := by
  rw [Nat.zero_add] at h
  have hacross : 0 < across := Nat.pos_of_ne_zero fun h0 => by subst h0; omega
  exact ⟨_, _, Grid.row_of_index_lt h, Nat.mod_lt i hacross, (Nat.div_add_mod' i across).symm⟩

namespace TileSource

variable {source : TileSource} {t : Transform} {g : Grid} {made : Option Grid} {states : TileSequence} {n : Nat}

/-! ### The tiles of a source -/

def drop (source : TileSource) : Nat → TileSource
  | 0 => source
  | n + 1 => (source.drop n).next.2

/-- The content of the tile that comes after `n` others. -/
def nth (source : TileSource) (n : Nat) : Except TrialFailure Grid := (source.drop n).next.1

/-- What a source keeps is what its transform makes of the grid. -/
def Kept (t : Transform) (g : Grid) (made : Option Grid) : Prop :=
  ∀ tile, made = some tile → t.apply g = .ok tile

theorem next_same (h : Kept t g made) :
    ∃ made', (same t g made).next = (t.apply g, same t g made') ∧ Kept t g made' := by
  cases made with
  | some tile =>
    refine ⟨some tile, ?_, h⟩
    rw [next, h tile rfl]
  | none =>
    rw [next]
    cases htile : t.apply g with
    | error failure => exact ⟨none, rfl, h⟩
    | ok tile => exact ⟨some tile, rfl, fun tile' heq => htile.trans (congrArg _ (Option.some.inj heq))⟩

theorem drop_same : ∃ made, (same t g none).drop n = same t g made ∧ Kept t g made := by
  induction n with
  | zero => exact ⟨none, rfl, nofun⟩
  | succ n ih =>
    obtain ⟨made, hdrop, hkept⟩ := ih
    obtain ⟨made', hnext, hkept'⟩ := next_same hkept
    refine ⟨made', ?_, hkept'⟩
    rw [drop, hdrop, hnext]

theorem drop_sequence : (sequence states).drop n = sequence (states.drop n) := by
  induction n with
  | zero => rfl
  | succ n ih => rw [drop, ih, next]; rfl

theorem nth_same : (same t g none).nth n = t.apply g := by
  obtain ⟨made, hdrop, hkept⟩ := drop_same (t := t) (g := g) (n := n)
  obtain ⟨made', hnext, -⟩ := next_same hkept
  rw [nth, hdrop, hnext]

theorem nth_sequence : (sequence states).nth n = .ok (states.drop n).current := by
  rw [nth, drop_sequence, next]; rfl

/-! ### Contents -/

/-- What tile `i` receives when the trial comes to it. -/
def content (source : TileSource) (selects : Nat → Nat → Bool) (working : Grid) (across i : Nat) :
    Except TrialFailure Grid :=
  if selects (i / across) (i % across) then
    match source.nth (selectedBefore selects across i) with
    | .error failure => .error failure
    | .ok tile =>
      if tile.shape = working.shape then .ok tile
      else .error (.tileShapeMismatch working.shape tile.shape)
  else .ok working.cleared

theorem content_of_selected {selects : Nat → Nat → Bool} {working tile : Grid} {across i : Nat}
    (hs : selects (i / across) (i % across) = true)
    (h : source.content selects working across i = .ok tile) :
    source.nth (selectedBefore selects across i) = .ok tile := by
  rw [content, if_pos hs] at h
  split at h
  · cases h
  · split at h <;> cases h
    assumption

theorem content_of_not_selected {selects : Nat → Nat → Bool} {working : Grid} {across i : Nat}
    (hs : selects (i / across) (i % across) = false) :
    source.content selects working across i = .ok working.cleared := by
  rw [content, if_neg (by simp [hs])]

theorem shape_of_content {selects : Nat → Nat → Bool} {working tile : Grid} {across i : Nat}
    (h : source.content selects working across i = .ok tile) : tile.shape = working.shape := by
  rw [content] at h
  split at h
  · split at h
    · cases h
    · split at h <;> cases h
      assumption
  · cases h
    exact Grid.shape_cleared

end TileSource

/-! ### The loop -/

/-- What comes of laying the tiles `i`, …, `i + todo - 1` over `canvas`. -/
def Laid (content : Nat → Except TrialFailure Grid) (working : Grid) (across i todo : Nat)
    (canvas : Grid) : Except TrialFailure Grid → Prop
  | .ok out =>
    out.shape = canvas.shape ∧ (∀ j, i ≤ j → j < i + todo → ∃ tile, content j = .ok tile) ∧
    ∀ r c, out.get? r c =
      let j := r / working.rows * across + c / working.cols
      if c / working.cols < across ∧ i ≤ j ∧ j < i + todo then
        (content j).toOption.bind fun tile => tile.get? (r % working.rows) (c % working.cols)
      else canvas.get? r c
  | .error failure =>
    ∃ j, i ≤ j ∧ j < i + todo ∧ content j = .error failure ∧
      ∀ l, i ≤ l → l < j → ∃ tile, content l = .ok tile

namespace Laid

variable {content : Nat → Except TrialFailure Grid} {working canvas placed tile : Grid}
  {across i todo : Nat} {outcome : Except TrialFailure Grid}

theorem zero : Laid content working across i 0 canvas (.ok canvas) :=
  ⟨rfl, fun j h₁ h₂ => by omega, fun r c => by rw [if_neg (by omega)]⟩

theorem fail {failure : TrialFailure} (h : content i = .error failure) :
    Laid content working across i (todo + 1) canvas (.error failure) :=
  ⟨i, Nat.le_refl i, by omega, h, fun l h₁ h₂ => by omega⟩

/-- Tile `i` is laid over `canvas`, and the later ones over the result. -/
theorem step (hacross : 0 < across) (htile : content i = .ok tile)
    (hshape : placed.shape = canvas.shape)
    (hget : ∀ r c, placed.get? r c =
      if r / working.rows = i / across ∧ c / working.cols = i % across then
        tile.get? (r % working.rows) (c % working.cols)
      else canvas.get? r c)
    (h : Laid content working across (i + 1) todo placed outcome) :
    Laid content working across i (todo + 1) canvas outcome := by
  have here : ∀ j, i ≤ j → j < i + 1 → ∃ tile, content j = .ok tile := fun j h₁ h₂ => by
    obtain rfl : j = i := by omega
    exact ⟨tile, htile⟩
  cases outcome with
  | error failure =>
    obtain ⟨j, hij, hj, hfail, hbefore⟩ := h
    refine ⟨j, by omega, by omega, hfail, fun l h₁ h₂ => ?_⟩
    by_cases hl : l < i + 1
    · exact here l h₁ hl
    · exact hbefore l (by omega) h₂
  | ok out =>
    obtain ⟨hout, hok, hcells⟩ := h
    refine ⟨hout.trans hshape, fun j h₁ h₂ => ?_, fun r c => ?_⟩
    · by_cases hj : j < i + 1
      · exact here j h₁ hj
      · exact hok j (by omega) (by omega)
    · -- the cell is on one of the later tiles, on tile `i`, or on neither
      rw [hcells, hget]
      simp only [tile_eq_iff hacross]
      by_cases hlater : c / working.cols < across ∧ i + 1 ≤ r / working.rows * across + c / working.cols ∧
          r / working.rows * across + c / working.cols < i + 1 + todo
      · rw [if_pos hlater, if_pos (by omega)]
      · rw [if_neg hlater]
        split <;> rename_i hhere
        · rw [if_pos (by omega), hhere.2, htile]; rfl
        · rw [if_neg (by omega)]

theorem get?_of_tile {out : Grid} {down r c : Nat}
    (h : Laid content working across 0 (down * across) canvas (.ok out))
    (hon : r / working.rows < down ∧ c / working.cols < across) :
    ∃ tile, content (r / working.rows * across + c / working.cols) = .ok tile ∧
      out.get? r c = tile.get? (r % working.rows) (c % working.cols) := by
  obtain ⟨-, hok, hcells⟩ := h
  have hlt := tile_lt_iff.mpr hon
  obtain ⟨tile, htile⟩ := hok _ (Nat.zero_le _) hlt.2.2
  refine ⟨tile, htile, ?_⟩
  rw [hcells]
  simp only [if_pos hlt, htile]
  rfl

theorem get?_of_not_tile {out : Grid} {down r c : Nat}
    (h : Laid content working across 0 (down * across) canvas (.ok out))
    (hoff : ¬(r / working.rows < down ∧ c / working.cols < across)) :
    out.get? r c = canvas.get? r c := by
  rw [h.2.2]
  exact if_neg (mt tile_lt_iff.mp hoff)

end Laid

namespace TileSource

variable {source : TileSource} {q : Query} {k : Criterion} {working canvas placed tile : Grid}
  {failure : TrialFailure} {down across todo i : Nat}

theorem tileFrom_of_error (hk : q.criterion working = .ok k)
    (h : source.content (k.selects working) working across i = .error failure) :
    tileFrom q working working.cleared across (todo + 1) i
      (source.drop (selectedBefore (k.selects working) across i)) canvas = .error failure := by
  cases hs : k.selects working (i / across) (i % across) with
  | false => cases (content_of_not_selected hs).symm.trans h
  | true =>
    rw [content, if_pos hs, nth] at h
    rw [tileFrom, Query.evaluate_of_criterion hk, hs]
    dsimp only
    rcases hnext : (source.drop (selectedBefore (k.selects working) across i)).next with
      ⟨failure' | tile, after⟩
    · rw [hnext] at h
      exact h
    · simp only [hnext] at h ⊢
      by_cases hshape : tile.shape = working.shape
      · rw [if_pos hshape] at h
        cases h
      · rw [if_neg hshape] at h
        rw [Grid.placeTile, if_neg hshape]
        exact h

/-- The loop goes on with the source after the tile, which is another one if the tile is selected. -/
theorem tileFrom_of_ok (hk : q.criterion working = .ok k)
    (h : source.content (k.selects working) working across i = .ok tile)
    (hplaced : canvas.placeTile working (i / across) (i % across) tile = .ok placed) :
    tileFrom q working working.cleared across (todo + 1) i
        (source.drop (selectedBefore (k.selects working) across i)) canvas =
      tileFrom q working working.cleared across todo (i + 1)
        (source.drop (selectedBefore (k.selects working) across (i + 1))) placed := by
  rw [tileFrom, Query.evaluate_of_criterion hk, selectedBefore_succ]
  cases hs : k.selects working (i / across) (i % across) with
  | false =>
    cases (content_of_not_selected hs).symm.trans h
    rw [Grid.placeTile_cleared] at hplaced
    simp only [Bool.false_eq_true, if_false, hplaced, Nat.add_zero]
  | true =>
    have hnext : (source.drop (selectedBefore (k.selects working) across i)).next =
        (.ok tile, source.drop (selectedBefore (k.selects working) across i + 1)) :=
      Prod.ext (content_of_selected hs h) rfl
    simp only [if_true, hnext, hplaced]

/-- The invariant of the loop over the tiles. -/
theorem laid_tileFrom (hk : q.criterion working = .ok k) (hrows : down * working.rows ≤ canvas.rows)
    (hcols : across * working.cols ≤ canvas.cols) (hi : i + todo ≤ down * across) :
    Laid (source.content (k.selects working) working across) working across i todo canvas
      (tileFrom q working working.cleared across todo i
        (source.drop (selectedBefore (k.selects working) across i)) canvas) := by
  induction todo generalizing i canvas with
  | zero => exact .zero
  | succ todo ih =>
    cases hcontent : source.content (k.selects working) working across i with
    | error failure => exact tileFrom_of_error hk hcontent ▸ .fail hcontent
    | ok tile =>
      have hacross : 0 < across := Nat.pos_of_ne_zero fun h => by subst h; omega
      have hx : i / across < down := Nat.div_lt_of_lt_mul (by rw [Nat.mul_comm]; omega)
      have hy : i % across < across := Nat.mod_lt i hacross
      obtain ⟨placed, hplaced, hshape, hget⟩ := Grid.exists_placeTile (shape_of_content hcontent)
        (Grid.tile_fits hx hrows) (Grid.tile_fits hy hcols)
      rw [tileFrom_of_ok hk hcontent hplaced]
      refine .step hacross hcontent hshape hget (ih ?_ ?_ (by omega))
      · exact (Grid.rows_of_shape_eq hshape) ▸ hrows
      · exact (Grid.cols_of_shape_eq hshape) ▸ hcols

end TileSource
end Mosaic

import Mosaic.Proofs.Statistics
import Mosaic.Proofs.Trials

/-!
# Tiles that cannot be placed

A tile is refused for one of two reasons. Its content cannot be made, because an inversion takes a number
for a color that the palette does not have; or its content lies across its block, being a quarter turn or
the transpose of a grid that is not square (`Transform.Fault`). `TileSource.content_error_iff` states this
for every tile of a trial on a grid of palette colors.
-/

namespace Mosaic

/-! ### Color sources -/

namespace ColorSource

variable {s : ColorSource} {g : Grid} {n : Nat} {failure : TrialFailure}

/-- The source stands for `n`, which is no color of the palette. -/
inductive Exceeds (g : Grid) : ColorSource → Nat → Prop
  | countSquares (h : 10 ≤ g.figureCells) : Exceeds g .countSquares g.figureCells
  | fixed {color : UInt8} (h : 10 ≤ color.toNat) : Exceeds g (.fixed color) color.toNat

theorem getD_lt {color : Option Color} (h : ∀ c, color = some c → c.InPalette) :
    (color.getD 0).toNat < Color.paletteSize := by
  cases color with
  | none => decide
  | some c => exact h c rfl

/-- The sources that name a color of the grid or count colors stay inside the palette. -/
theorem exists_figure_lt (hg : g.InPalette) (hsquares : s ≠ .countSquares) (hfixed : ∀ c, s ≠ .fixed c) :
    ∃ n, s.figure g = .ok n ∧ n < Color.paletteSize := by
  have htally := Grid.tally_of_inPalette hg
  cases s with
  | maxColor =>
    simp only [figure, htally]
    exact ⟨_, rfl, getD_lt fun c hc => Tally.inPalette_of_mostFrequent? hc⟩
  | minColor =>
    simp only [figure, htally]
    exact ⟨_, rfl, getD_lt fun c hc => Tally.inPalette_of_leastFrequent? hc⟩
  | maxColor1d => exact ⟨_, rfl, getD_lt fun c hc => hg.highestColor hc⟩
  | countColors =>
    simp only [figure, htally]
    exact ⟨_, rfl, Tally.figureCount_lt⟩
  | countSquares => exact absurd rfl hsquares
  | fixed c => exact absurd rfl (hfixed c)

theorem resolve_of_figure (h : s.figure g = .ok n) : s.resolve g =
    if n < Color.paletteSize then .ok (UInt8.ofNat n)
    else .error (.grid (.colorOutOfRange 0 0 (UInt8.ofNat (min n 255)))) := by
  simp only [resolve, h, bind, Except.bind]
  rfl

theorem resolve_error_of_figure (h : s.figure g = .ok n) : s.resolve g = .error failure ↔
    10 ≤ n ∧ failure = .grid (.colorOutOfRange 0 0 (UInt8.ofNat (min n 255))) := by
  rw [resolve_of_figure h]
  by_cases hn : n < Color.paletteSize
  · rw [if_pos hn]
    exact iff_of_false (by simp) fun hle => absurd hle.1 (Nat.not_le.mpr hn)
  · rw [if_neg hn, Except.error.injEq, eq_comm]
    exact (and_iff_right (Nat.le_of_not_lt hn)).symm

theorem resolve_error_iff (hg : g.InPalette) : s.resolve g = .error failure ↔
    ∃ n, s.Exceeds g n ∧ failure = .grid (.colorOutOfRange 0 0 (UInt8.ofNat (min n 255))) := by
  by_cases hsquares : s = .countSquares
  · subst hsquares
    rw [resolve_error_of_figure rfl]
    constructor
    · rintro ⟨hle, hfail⟩
      exact ⟨_, .countSquares hle, hfail⟩
    · rintro ⟨n, hexceeds, hfail⟩
      cases hexceeds with
      | countSquares hle => exact ⟨hle, hfail⟩
  · by_cases hfixed : ∃ c, s = .fixed c
    · obtain ⟨c, rfl⟩ := hfixed
      rw [resolve_error_of_figure rfl]
      constructor
      · rintro ⟨hle, hfail⟩
        exact ⟨_, .fixed hle, hfail⟩
      · rintro ⟨n, hexceeds, hfail⟩
        cases hexceeds with
        | fixed hle => exact ⟨hle, hfail⟩
    · obtain ⟨n, hn, hlt⟩ := exists_figure_lt hg hsquares fun c hc => hfixed ⟨c, hc⟩
      rw [resolve_error_of_figure hn]
      refine iff_of_false (fun h => absurd h.1 (Nat.not_le.mpr hlt)) ?_
      rintro ⟨m, hm, -⟩
      cases hm with
      | countSquares h => exact hsquares rfl
      | fixed h => exact hfixed ⟨_, rfl⟩

end ColorSource

/-! ### States of a transform -/

namespace Transform

variable {t : Transform} {g working tile : Grid} {n : Nat} {failure : TrialFailure}

/-- State `n` of the transform is a quarter turn of the grid or its transpose. -/
inductive LiesAcross (g : Grid) (n : Nat) : Transform → Prop
  | rot90 {k : UInt8} (h : k.toNat % 2 = 1) : LiesAcross g n (.rot90 k)
  | swapAxes : LiesAcross g n .swapAxes
  | sequence {t : Transform} {states : TileSequence} (h : t.sequence? g = some states)
      (hkind : states.kind = .rotate) (hphase : (states.drop n).phase % 2 = 1) : LiesAcross g n t

/-- Why state `n` of the transform is no content for a block of the working grid's shape. -/
inductive Fault (working : Grid) (n : Nat) (t : Transform) : TrialFailure → Prop
  | color {source : ColorSource} {value : Nat} (ht : t = .invert source)
      (h : source.Exceeds working value) :
      Fault working n t (.grid (.colorOutOfRange 0 0 (UInt8.ofNat (min value 255))))
  | shape (hsquare : working.rows ≠ working.cols) (h : t.LiesAcross working n) :
      Fault working n t (.tileShapeMismatch working.shape working.shape.swap)

theorem isSequence_iff : t.isSequence = true ↔ ∃ states, t.sequence? g = some states := by
  cases t <;> simp [isSequence, sequence?]

theorem sequence?_of_pure (h : t.isSequence = false) : t.sequence? g = none := by
  cases ht : t.sequence? g with
  | none => rfl
  | some states => rw [isSequence_iff.mpr ⟨states, ht⟩] at h; cases h

theorem grid_of_sequence? {states : TileSequence} (h : t.sequence? g = some states) :
    states.grid = g := by
  cases t <;> cases h <;> rfl

theorem grid_drop_of_sequence? {states : TileSequence} (h : t.sequence? g = some states) :
    (states.drop n).grid = g :=
  (show (states.drop n).grid = states.grid from rfl).trans (grid_of_sequence? h)

theorem tiles_of_sequence? {states : TileSequence} (h : t.sequence? g = some states) :
    t.tiles g = .sequence states := by
  rw [tiles, h]

/-- What state `n` of the transform comes to: a number that is no color, or a grid that lies across its
block or does not. -/
def Makes (g : Grid) (n : Nat) (t : Transform) : Except TrialFailure Grid → Prop
  | .error failure => ∃ source value, t = .invert source ∧ source.Exceeds g value ∧
      failure = .grid (.colorOutOfRange 0 0 (UInt8.ofNat (min value 255)))
  | .ok tile => (∀ source value, t = .invert source → ¬source.Exceeds g value) ∧
      (t.LiesAcross g n ∧ tile.shape = g.shape.swap ∨ ¬t.LiesAcross g n ∧ tile.shape = g.shape)

theorem liesAcross_iff_of_sequence? {states : TileSequence} (h : t.sequence? g = some states) :
    t.LiesAcross g n ↔ states.kind = .rotate ∧ (states.drop n).phase % 2 = 1 := by
  constructor
  · intro hlies
    cases hlies with
    | rot90 | swapAxes => cases h
    | sequence h' hkind hphase =>
      rw [h] at h'
      cases h'
      exact ⟨hkind, hphase⟩
  · rintro ⟨hkind, hphase⟩
    exact .sequence h hkind hphase

/-- Every state of a sequence is a grid; a turning one lies across at its odd phases. -/
theorem makes_current {states : TileSequence} (h : t.sequence? g = some states) :
    Makes g n t (.ok (states.drop n).current) := by
  have hkind : (states.drop n).kind = states.kind := rfl
  refine ⟨fun source value ht => (by subst ht; cases h), ?_⟩
  rw [liesAcross_iff_of_sequence? h, TileSequence.current, grid_drop_of_sequence? h, hkind]
  cases states.kind with
  | rotate =>
    rcases Int.emod_two_eq_zero_or_one (states.drop n).phase with hphase | hphase
    · exact .inr ⟨by simp [hphase], Grid.shape_turn_of_even hphase⟩
    · exact .inl ⟨⟨rfl, hphase⟩, Grid.shape_turn_of_odd hphase⟩
  | flip =>
    refine .inr ⟨by simp, ?_⟩
    dsimp only
    split <;> rfl

theorem not_liesAcross_of_pure (h : t.isSequence = false) (hrot : ∀ k, t ≠ .rot90 k)
    (hswap : t ≠ .swapAxes) : ¬t.LiesAcross g n := by
  intro hlies
  cases hlies with
  | rot90 => exact hrot _ rfl
  | swapAxes => exact hswap rfl
  | sequence hstates => rw [sequence?_of_pure h] at hstates; cases hstates

theorem not_liesAcross_invert {source : ColorSource} : ¬(invert source).LiesAcross g n := by
  intro hlies
  cases hlies with
  | sequence hstates => cases hstates

theorem liesAcross_rot90_iff {k : UInt8} : (rot90 k).LiesAcross g n ↔ k.toNat % 2 = 1 := by
  constructor
  · intro hlies
    cases hlies with
    | rot90 h => exact h
    | sequence h => cases h
  · exact .rot90

theorem makes_apply (hg : g.InPalette) (h : t.isSequence = false) : Makes g n t (t.apply g) := by
  cases t with
  | rotateLoop | rotateLoopRows | rotateLoopCols | flipLoop | flipLoopRows | flipLoopCols => cases h
  | identity => exact ⟨nofun, .inr ⟨not_liesAcross_of_pure h nofun nofun, rfl⟩⟩
  | flip axis => exact ⟨nofun, .inr ⟨not_liesAcross_of_pure h nofun nofun, Grid.shape_flip⟩⟩
  | roll shift axis => exact ⟨nofun, .inr ⟨not_liesAcross_of_pure h nofun nofun, Grid.shape_roll⟩⟩
  | swapAxes => exact ⟨nofun, .inl ⟨.swapAxes, rfl⟩⟩
  | rot90 k =>
    refine ⟨nofun, ?_⟩
    rw [liesAcross_rot90_iff]
    by_cases hk : k.toNat % 2 = 1
    · exact .inl ⟨hk, Grid.shape_turn_of_odd (by omega)⟩
    · exact .inr ⟨hk, Grid.shape_turn_of_even (by omega)⟩
  | invertColor =>
    -- the most frequent color is always one of the palette
    obtain ⟨value, hvalue, hlt⟩ := ColorSource.exists_figure_lt (s := .maxColor) hg nofun nofun
    show Makes g n _ ((ColorSource.maxColor.resolve g).map g.invert)
    rw [ColorSource.resolve_of_figure hvalue, if_pos hlt]
    exact ⟨nofun, .inr ⟨not_liesAcross_of_pure h nofun nofun, rfl⟩⟩
  | invert source =>
    show Makes g n _ ((source.resolve g).map g.invert)
    cases hresolve : source.resolve g with
    | error failure =>
      obtain ⟨value, hexceeds, hfail⟩ := (ColorSource.resolve_error_iff hg).mp hresolve
      exact ⟨source, value, rfl, hexceeds, hfail⟩
    | ok color =>
      refine ⟨?_, .inr ⟨not_liesAcross_invert, rfl⟩⟩
      rintro source' value heq hexceeds
      cases heq
      have herror := (ColorSource.resolve_error_iff hg).mpr ⟨value, hexceeds, rfl⟩
      rw [hresolve] at herror
      cases herror

theorem makes_nth (hg : g.InPalette) : Makes g n t ((t.tiles g).nth n) := by
  cases hseq : t.isSequence with
  | false =>
    rw [nth_tiles_of_pure hseq]
    exact makes_apply hg hseq
  | true =>
    obtain ⟨states, hstates⟩ := isSequence_iff.mp hseq
    rw [tiles_of_sequence? hstates, TileSource.nth_sequence]
    exact makes_current hstates

end Transform

/-! ### Tiles -/

namespace TileSource

variable {t : Transform} {working : Grid} {selects : Nat → Nat → Bool} {across i : Nat}
  {failure : TrialFailure}

theorem content_error_iff (hw : working.InPalette) :
    (t.tiles working).content selects working across i = .error failure ↔
      selects (i / across) (i % across) = true ∧
        t.Fault working (selectedBefore selects across i) failure := by
  cases hs : selects (i / across) (i % across) with
  | false =>
    rw [content_of_not_selected hs]
    simp
  | true =>
    rw [content, if_pos hs, and_iff_right rfl]
    have hmakes := Transform.makes_nth (t := t) (n := selectedBefore selects across i) hw
    cases hnth : (t.tiles working).nth (selectedBefore selects across i) with
    | error failure' =>
      rw [hnth] at hmakes
      obtain ⟨source, value, rfl, hexceeds, rfl⟩ := hmakes
      constructor
      · intro h
        cases h
        exact .color rfl hexceeds
      · intro hfault
        cases hfault with
        | color ht hexceeds' =>
          cases ht
          cases hexceeds <;> cases hexceeds' <;> rfl
        | shape hsquare hlies => exact absurd hlies Transform.not_liesAcross_invert
    | ok tile =>
      rw [hnth] at hmakes
      obtain ⟨hpalette, hshape⟩ := hmakes
      dsimp only
      constructor
      · intro h
        split at h
        · cases h
        · rename_i hne
          cases h
          rcases hshape with ⟨hlies, hswap⟩ | ⟨-, hsame⟩
          · rw [hswap] at hne ⊢
            exact .shape (mt Grid.shape_swap_eq_iff.mpr hne) hlies
          · exact absurd hsame hne
      · intro hfault
        cases hfault with
        | color ht hexceeds => exact absurd hexceeds (hpalette _ _ ht)
        | shape hsquare hlies =>
          rcases hshape with ⟨-, hswap⟩ | ⟨hnot, -⟩
          · rw [hswap, if_neg (mt Grid.shape_swap_eq_iff.mp hsquare)]
          · exact absurd hlies hnot

end TileSource
end Mosaic

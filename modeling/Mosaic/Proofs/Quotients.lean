import Mathlib.Algebra.Group.Nat.Defs
import Mathlib.Data.Nat.Log
import Mosaic.Task

/-!
# Quotients of numbers that binary64 holds exactly

The quotient of two natural numbers below `2 ^ 53` is rounded by less than would carry it to or over a
whole number. So it compares with every whole number as the exact quotient does (`le_ratio_iff`,
`ratio_le_iff`): its whole part is the whole part of the exact quotient, and it is whole when that is.
-/

namespace Mosaic

/-- What is rounded away is at most half the divisor, whichever way it goes. -/
theorem roundHalfEven_error (num : Nat) {den : Nat} (hden : 0 < den) :
    2 * (roundHalfEven num den * den) ≤ 2 * num + den ∧
      2 * num ≤ 2 * (roundHalfEven num den * den) + den := by
  have hdiv : num / den * den + num % den = num := Nat.div_add_mod' num den
  have hnext : (num / den + 1) * den = num / den * den + den := Nat.succ_mul ..
  have hmod : num % den < den := Nat.mod_lt num hden
  unfold roundHalfEven
  dsimp only
  split
  · omega
  · split
    · omega
    · split <;> omega

namespace Binary64

variable {num den q k m : Nat} {e : Int}

theorem log2_le_of_lt (h : num < 2 ^ precision) : num.log2 ≤ 52 := by
  by_cases hzero : num = 0
  · subst hzero
    decide
  · exact Nat.le_of_lt_succ ((Nat.log2_lt hzero).mpr h)

theorem ratio_snd_pos (x : Binary64) : 0 < x.ratio.2 := by
  rw [ratio]
  split
  · exact Nat.one_pos
  · rw [Nat.one_shiftLeft]
    exact Nat.two_pow_pos _

theorem wholePart_pos {x : Binary64} (h : x.atLeastOne = true) : 0 < x.wholePart :=
  Nat.div_pos (of_decide_eq_true h) x.ratio_snd_pos

/-- Scaled by its exponent, a quotient keeps as many binary places as its divisor has digits. -/
theorem exponentOf_le (hnum : num < 2 ^ precision) (hden : den < 2 ^ precision) :
    exponentOf num den ≤ -(den.log2 : Int) := by
  have hn : (num.log2 : Int) ≤ 52 := by exact_mod_cast log2_le_of_lt hnum
  have hd : (den.log2 : Int) ≤ 52 := by exact_mod_cast log2_le_of_lt hden
  have hlead : (num.log2 : Int) - den.log2 - (precision - 1) ≤ -den.log2 := by
    rw [precision]
    omega
  unfold exponentOf
  dsimp only
  refine max_le ?_ ?_
  · rw [minExponent]
    omega
  · split <;> omega

theorem scaled_of_nonpos (h : e ≤ 0) : scaled num den e = (num * 2 ^ (-e).toNat, den) := by
  rw [scaled]
  split
  · obtain rfl : e = 0 := by omega
    simp
  · rw [Nat.shiftLeft_eq]

theorem ratio_of_nonpos (h : e ≤ 0) : ratio ⟨m, e⟩ = (m, 2 ^ (-e).toNat) := by
  rw [ratio]
  dsimp only
  split
  · obtain rfl : e = 0 := by omega
    simp
  · rw [Nat.one_shiftLeft]

/-- A significand that has one digit too many is halved, and its exponent carries. -/
theorem ratio_carry (h : e ≤ 0) : let r := ratio ⟨2 ^ (precision - 1), e + 1⟩
    r.1 * 2 ^ (-e).toNat = 2 ^ precision * r.2 := by
  by_cases hzero : e = 0
  · subst hzero
    decide
  · obtain ⟨k, hk⟩ : ∃ k : Nat, (-e).toNat = k + 1 := ⟨(-e).toNat - 1, by omega⟩
    have hk' : (-(e + 1)).toNat = k := by omega
    rw [ratio_of_nonpos (by omega), hk, hk']
    dsimp only
    rw [← Nat.pow_add, ← Nat.pow_add, precision]
    congr 1
    omega

/-- The rounded quotient is `m / 2 ^ k`, and `m` is the exact quotient times `2 ^ k` up to half a unit. -/
structure Rounds (num den : Nat) (x : Binary64) (k m : Nat) : Prop where
  den_lt : den < 2 ^ (k + 1)
  ratio_eq : x.ratio.1 * 2 ^ k = m * x.ratio.2
  not_above : 2 * (m * den) ≤ 2 * (num * 2 ^ k) + den
  not_below : 2 * (num * 2 ^ k) ≤ 2 * (m * den) + den

theorem exists_rounds (hpos : 0 < den) (hnum : num < 2 ^ precision) (hden : den < 2 ^ precision) :
    ∃ k m, Rounds num den (ofRatio num den) k m := by
  have he : exponentOf num den ≤ -(den.log2 : Int) := exponentOf_le hnum hden
  have hnonpos : exponentOf num den ≤ 0 := by omega
  obtain ⟨hup, hdown⟩ := roundHalfEven_error (num * 2 ^ (-exponentOf num den).toNat) hpos
  have hlt : den < 2 ^ ((-exponentOf num den).toNat + 1) :=
    Nat.lt_of_lt_of_le Nat.lt_log2_self (Nat.pow_le_pow_right (by decide) (by omega))
  have hratio : let r := (ofRatio num den).ratio
      r.1 * 2 ^ (-exponentOf num den).toNat =
        roundHalfEven (num * 2 ^ (-exponentOf num den).toNat) den * r.2 := by
    simp only [ofRatio, scaled_of_nonpos hnonpos, Nat.one_shiftLeft]
    split
    · rename_i hcarry
      rw [hcarry]
      exact ratio_carry hnonpos
    · rw [ratio_of_nonpos hnonpos]
  exact ⟨_, _, hlt, hratio, hup, hdown⟩

namespace Rounds

variable {x : Binary64}

theorem le_ratio_iff (h : Rounds num den x k m) : q * x.ratio.2 ≤ x.ratio.1 ↔ q * 2 ^ k ≤ m := by
  rw [← Nat.mul_le_mul_right_iff (Nat.two_pow_pos k), h.ratio_eq, Nat.mul_right_comm,
    Nat.mul_le_mul_right_iff x.ratio_snd_pos]

theorem ratio_le_iff (h : Rounds num den x k m) : x.ratio.1 ≤ q * x.ratio.2 ↔ m ≤ q * 2 ^ k := by
  rw [← Nat.mul_le_mul_right_iff (Nat.two_pow_pos k), h.ratio_eq, Nat.mul_right_comm,
    Nat.mul_le_mul_right_iff x.ratio_snd_pos]

theorem le_of_mul_lt_add {a b c : Nat} (h : a * c < b * c + c) : a ≤ b :=
  Nat.le_of_lt_succ (Nat.lt_of_mul_lt_mul_right (Nat.succ_mul b c ▸ h))

/-- Rounding carries no quotient up to a whole number. -/
theorem le_iff (hpos : 0 < den) (h : Rounds num den x k m) : q * 2 ^ k ≤ m ↔ q * den ≤ num := by
  have hlt : den < 2 * 2 ^ k := Nat.pow_succ' ▸ h.den_lt
  have hup := h.not_above
  have hdown := h.not_below
  -- half a unit is less than `2 ^ k` on the one side, and than `den` on the other
  constructor
  · intro hle
    have hscaled : q * 2 ^ k * den ≤ m * den := Nat.mul_le_mul_right den hle
    rw [Nat.mul_right_comm] at hscaled
    exact le_of_mul_lt_add (show q * den * 2 ^ k < num * 2 ^ k + 2 ^ k by omega)
  · intro hle
    have hscaled : q * den * 2 ^ k ≤ num * 2 ^ k := Nat.mul_le_mul_right _ hle
    rw [Nat.mul_right_comm] at hscaled
    exact le_of_mul_lt_add (show q * 2 ^ k * den < m * den + den by omega)

/-- Rounding carries no quotient down to a whole number. -/
theorem ge_iff (hpos : 0 < den) (h : Rounds num den x k m) : m ≤ q * 2 ^ k ↔ num ≤ q * den := by
  have hlt : den < 2 * 2 ^ k := Nat.pow_succ' ▸ h.den_lt
  have hup := h.not_above
  have hdown := h.not_below
  constructor
  · intro hle
    have hscaled : m * den ≤ q * 2 ^ k * den := Nat.mul_le_mul_right den hle
    rw [Nat.mul_right_comm] at hscaled
    exact le_of_mul_lt_add (show num * 2 ^ k < q * den * 2 ^ k + 2 ^ k by omega)
  · intro hle
    have hscaled : num * 2 ^ k ≤ q * den * 2 ^ k := Nat.mul_le_mul_right _ hle
    rw [Nat.mul_right_comm] at hscaled
    exact le_of_mul_lt_add (show m * den < q * 2 ^ k * den + den by omega)

end Rounds

/-! ### Whole numbers -/

section

variable (hpos : 0 < den) (hnum : num < 2 ^ precision) (hden : den < 2 ^ precision)
include hpos hnum hden

theorem le_ratio_iff : q * (ofRatio num den).ratio.2 ≤ (ofRatio num den).ratio.1 ↔ q * den ≤ num := by
  obtain ⟨k, m, h⟩ := exists_rounds hpos hnum hden
  exact h.le_ratio_iff.trans (h.le_iff hpos)

theorem ratio_le_iff : (ofRatio num den).ratio.1 ≤ q * (ofRatio num den).ratio.2 ↔ num ≤ q * den := by
  obtain ⟨k, m, h⟩ := exists_rounds hpos hnum hden
  exact h.ratio_le_iff.trans (h.ge_iff hpos)

theorem ratio_eq_iff : (ofRatio num den).ratio.1 = q * (ofRatio num den).ratio.2 ↔ num = q * den := by
  rw [Nat.le_antisymm_iff, Nat.le_antisymm_iff, ratio_le_iff hpos hnum hden, le_ratio_iff hpos hnum hden]

theorem wholePart_ofRatio : (ofRatio num den).wholePart = num / den := by
  refine eq_of_forall_le_iff fun q => ?_
  rw [wholePart, Nat.le_div_iff_mul_le (ratio_snd_pos _), Nat.le_div_iff_mul_le hpos,
    le_ratio_iff hpos hnum hden]

theorem isWhole_ofRatio : (ofRatio num den).isWhole = true ↔ den ∣ num := by
  have hwhole := ratio_eq_iff (q := num / den) hpos hnum hden
  rw [← wholePart_ofRatio hpos hnum hden, wholePart] at hwhole
  rw [isWhole, beq_iff_eq, ← Nat.dvd_iff_mod_eq_zero, Nat.dvd_iff_div_mul_eq, eq_comm, hwhole,
    ← wholePart, wholePart_ofRatio hpos hnum hden, eq_comm, ← Nat.dvd_iff_div_mul_eq]

theorem atLeastOne_ofRatio : (ofRatio num den).atLeastOne = true ↔ den ≤ num := by
  have h := le_ratio_iff (q := 1) hpos hnum hden
  rw [Nat.one_mul, Nat.one_mul] at h
  rw [atLeastOne, decide_eq_true_iff, h]

theorem isOne_ofRatio : (ofRatio num den).isOne = true ↔ num = den := by
  have h := ratio_eq_iff (q := 1) hpos hnum hden
  rw [Nat.one_mul, Nat.one_mul] at h
  rw [isOne, beq_iff_eq, h]

end

end Binary64

/-! ### Shapes of a pair -/

namespace TrainingPair

variable {pair : TrainingPair}

/-- Binary64 holds the numbers of rows and columns. -/
structure ExactShapes (pair : TrainingPair) : Prop where
  inputRows : pair.input.rows < 2 ^ Binary64.precision
  inputCols : pair.input.cols < 2 ^ Binary64.precision
  outputRows : pair.output.rows < 2 ^ Binary64.precision
  outputCols : pair.output.cols < 2 ^ Binary64.precision

def factors (pair : TrainingPair) : Nat × Nat :=
  (pair.shapeRatio.1.wholePart, pair.shapeRatio.2.wholePart)

theorem factors_pos (h : pair.isMultiple = true) : 0 < pair.factors.1 ∧ 0 < pair.factors.2 := by
  simp only [isMultiple, isWholeFactor, Bool.and_eq_true] at h
  exact ⟨Binary64.wholePart_pos h.1.1, Binary64.wholePart_pos h.2.1⟩

theorem factors_eq (hexact : pair.ExactShapes) :
    pair.factors = (pair.output.rows / pair.input.rows, pair.output.cols / pair.input.cols) := by
  rw [factors, shapeRatio, Binary64.wholePart_ofRatio pair.input.rows_pos hexact.outputRows hexact.inputRows,
    Binary64.wholePart_ofRatio pair.input.cols_pos hexact.outputCols hexact.inputCols]

theorem isWhole_iff (hexact : pair.ExactShapes) :
    pair.shapeRatio.1.isWhole = true ∧ pair.shapeRatio.2.isWhole = true ↔
      pair.output.shape = (pair.input.rows * pair.factors.1, pair.input.cols * pair.factors.2) := by
  rw [factors_eq hexact, Grid.shape, Prod.mk.injEq, shapeRatio,
    Binary64.isWhole_ofRatio pair.input.rows_pos hexact.outputRows hexact.inputRows,
    Binary64.isWhole_ofRatio pair.input.cols_pos hexact.outputCols hexact.inputCols]
  simp only [Nat.dvd_iff_div_mul_eq, Nat.mul_comm, eq_comm]

theorem shape_output (h : pair.isMultiple = true) (hexact : pair.ExactShapes) :
    pair.output.shape = (pair.input.rows * pair.factors.1, pair.input.cols * pair.factors.2) := by
  simp only [isMultiple, isWholeFactor, Bool.and_eq_true] at h
  exact (isWhole_iff hexact).mp ⟨h.1.2, h.2.2⟩

end TrainingPair

theorem Task.outputRatio?_eq {t : Task} : t.outputRatio? = t.train.head?.map (·.factors) := rfl

end Mosaic

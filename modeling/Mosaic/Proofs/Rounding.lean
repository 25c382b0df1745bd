import Mathlib.Algebra.Order.Field.Power
import Mathlib.Algebra.Order.Floor.Semifield
import Mathlib.Data.Rat.Cast.Order
import Mathlib.Data.Rat.Floor
import Mathlib.Tactic.Linarith
import Mathlib.Tactic.LinearCombination
import Mathlib.Tactic.Positivity
import Mathlib.Tactic.Ring
import Mosaic.Proofs.Gates

/-!
# Ratios of shapes, rounded and exact

A ratio of shapes is the quotient of two numbers below `2 ^ 53`, correctly rounded: no number of the format is nearer
to it, and of two that are as near it is the one with the even significand. What is asked of the ratio is answered as
for the exact quotient all the same, since a quotient of such numbers that is not whole is farther from every whole
number than it is rounded.
-/

namespace Mosaic

/-! ### The nearest natural number -/

/-- `m` is at most one half away from `w`, and even if it is as much as that. -/
structure RoundsEven (m : Nat) (w : ℚ) : Prop where
  error_le : |(m : ℚ) - w| ≤ 1 / 2
  even_of_error_eq : |(m : ℚ) - w| = 1 / 2 → m % 2 = 0

namespace RoundsEven

variable {m t : Nat} {w : ℚ}

theorem half_le (h : RoundsEven m w) (hne : t ≠ m) : 1 / 2 ≤ |(t : ℚ) - w| := by
  have hint : (1 : ℤ) ≤ |(t : ℤ) - m| := Int.one_le_abs (by omega)
  have hone : (1 : ℚ) ≤ |(t : ℚ) - m| := by exact_mod_cast hint
  have htriangle := abs_sub_le (t : ℚ) w m
  rw [abs_sub_comm w] at htriangle
  have herror := h.error_le
  linarith

theorem le (h : RoundsEven m w) (t : Nat) : |(m : ℚ) - w| ≤ |(t : ℚ) - w| := by
  by_cases heq : t = m
  · rw [heq]
  · exact h.error_le.trans (h.half_le heq)

theorem even_of_tie (h : RoundsEven m w) (hne : t ≠ m) (htie : |(t : ℚ) - w| = |(m : ℚ) - w|) : m % 2 = 0 :=
  h.even_of_error_eq (le_antisymm h.error_le (htie ▸ h.half_le hne))

/-- Rounding does not cross a natural number. -/
theorem le_of_le (h : RoundsEven m w) (ht : (t : ℚ) ≤ w) : t ≤ m := by
  by_contra hlt
  have hnext : (m : ℚ) + 1 ≤ t := by exact_mod_cast Nat.lt_of_not_le hlt
  have herror := (abs_le.mp h.error_le).1
  linarith

theorem ge_of_ge (h : RoundsEven m w) (ht : w ≤ t) : m ≤ t := by
  by_contra hlt
  have hnext : (t : ℚ) + 1 ≤ m := by exact_mod_cast Nat.lt_of_not_le hlt
  have herror := (abs_le.mp h.error_le).2
  linarith

end RoundsEven

theorem roundHalfEven_even {num den : Nat} (hden : 0 < den)
    (h : 2 * (roundHalfEven num den * den) = 2 * num + den ∨ 2 * num = 2 * (roundHalfEven num den * den) + den) :
    roundHalfEven num den % 2 = 0 := by
  have hdiv : num / den * den + num % den = num := Nat.div_add_mod' num den
  have hnext : (num / den + 1) * den = num / den * den + den := Nat.succ_mul ..
  have hmod : num % den < den := Nat.mod_lt num hden
  unfold roundHalfEven at h ⊢
  dsimp only at h ⊢
  split
  · rename_i hless
    rw [if_pos hless] at h
    omega
  · rename_i hless
    rw [if_neg hless] at h
    split
    · rename_i hmore
      rw [if_pos hmore] at h
      omega
    · split
      · assumption
      · omega

theorem roundsEven_roundHalfEven (num : Nat) {den : Nat} (hden : 0 < den) :
    RoundsEven (roundHalfEven num den) (num / den) := by
  obtain ⟨hup, hdown⟩ := roundHalfEven_error num hden
  have heven := @roundHalfEven_even num den hden
  generalize roundHalfEven num den = m at hup hdown heven
  have hpos : (0 : ℚ) < den := by exact_mod_cast hden
  have hnum : (num : ℚ) / den * den = num := div_mul_cancel₀ _ hpos.ne'
  generalize (num : ℚ) / den = w at hnum ⊢
  have hup' : 2 * ((m : ℚ) * den) ≤ 2 * (w * den) + den := by rw [hnum]; exact_mod_cast hup
  have hdown' : 2 * (w * den) ≤ 2 * ((m : ℚ) * den) + den := by rw [hnum]; exact_mod_cast hdown
  constructor
  · have habove : 2 * (m : ℚ) ≤ 2 * w + 1 := le_of_mul_le_mul_right (by linarith) hpos
    have hbelow : 2 * w ≤ 2 * (m : ℚ) + 1 := le_of_mul_le_mul_right (by linarith) hpos
    exact abs_le.mpr ⟨by linarith, by linarith⟩
  · intro htie
    refine heven ?_
    rcases (abs_eq (by norm_num)).mp htie with h | h
    · left
      have hcast : 2 * ((m : ℚ) * den) = 2 * num + den := by rw [← hnum]; linear_combination 2 * (den : ℚ) * h
      exact_mod_cast hcast
    · right
      have hcast : 2 * (num : ℚ) = 2 * (m * den) + den := by rw [← hnum]; linear_combination -2 * (den : ℚ) * h
      exact_mod_cast hcast

namespace Binary64

variable {x y : Binary64} {num den m : Nat} {e : Int} {w : ℚ}

/-! ### The nearest number of the format -/

def value (x : Binary64) : ℚ := x.significand * 2 ^ x.exponent

structure InFormat (x : Binary64) : Prop where
  significand_lt : x.significand < 2 ^ precision
  minExponent_le : minExponent ≤ x.exponent
  fits : x.overflows = false

/-- `x` is `q` correctly rounded: no number of the format is nearer to `q`, and if another is as near, the significand
of `x`, written with all its digits, is even. -/
structure IsNearest (x : Binary64) (q : ℚ) : Prop where
  inFormat : x.InFormat
  normal : 2 ^ (precision - 1) ≤ x.significand ∨ x.exponent = minExponent
  le : ∀ y : Binary64, y.InFormat → |x.value - q| ≤ |y.value - q|
  even_of_tie : ∀ y : Binary64, y.InFormat → y.value ≠ x.value → |y.value - q| = |x.value - q| →
    x.significand % 2 = 0

/-- A number of the format is a multiple of a power of two, or it is less than every number that has all its digits
from this power on. -/
theorem InFormat.value_cases (hy : y.InFormat) (e : Int) :
    (∃ t : Nat, y.value = t * 2 ^ e) ∨ y.value < 2 ^ (precision - 1) * 2 ^ e := by
  rcases le_or_gt e y.exponent with he | he
  · left
    refine ⟨y.significand * 2 ^ (y.exponent - e).toNat, ?_⟩
    have hpow : (2 : ℚ) ^ y.exponent = 2 ^ (y.exponent - e).toNat * 2 ^ e := by
      rw [← zpow_natCast, ← zpow_add₀ two_ne_zero]
      congr 1
      omega
    rw [value, hpow]
    push_cast
    ring
  · right
    have hlt : (y.significand : ℚ) < 2 ^ precision := by exact_mod_cast hy.significand_lt
    have hpow : (2 : ℚ) ^ y.exponent ≤ 2 ^ (e - 1) := zpow_le_zpow_right₀ (by norm_num) (by omega)
    calc y.value < 2 ^ precision * 2 ^ y.exponent := mul_lt_mul_of_pos_right hlt (by positivity)
      _ ≤ 2 ^ precision * 2 ^ (e - 1) := mul_le_mul_of_nonneg_left hpow (by positivity)
      _ = 2 ^ (precision - 1) * 2 ^ e := by
        rw [zpow_sub_one₀ two_ne_zero, precision]
        ring

/-- A natural number times a power of two is nearest among the numbers of the format if it is nearest among the
multiples of this power, and the number to be rounded is one of those that have all digits there. -/
theorem isNearest_of_roundsEven (hw : 2 ^ (precision - 1) ≤ w) (hm : RoundsEven m w) (hx : x.value = m * 2 ^ e)
    (hformat : x.InFormat) (hnormal : 2 ^ (precision - 1) ≤ x.significand)
    (heven : m % 2 = 0 → x.significand % 2 = 0) : x.IsNearest (w * 2 ^ e) := by
  have hunit : (0 : ℚ) < 2 ^ e := by positivity
  have hdist : ∀ t : ℚ, |t * 2 ^ e - w * 2 ^ e| = |t - w| * 2 ^ e := by
    intro t
    rw [← sub_mul, abs_mul, abs_of_pos hunit]
  -- what has fewer digits than the power asks for is farther away than the least number that has them all
  have hsmall : ∀ y : Binary64, y.value < 2 ^ (precision - 1) * 2 ^ e →
      |x.value - w * 2 ^ e| < |y.value - w * 2 ^ e| := by
    intro y hy
    have hlead := hm.le (2 ^ (precision - 1))
    push_cast at hlead
    rw [abs_of_nonpos (sub_nonpos.mpr hw)] at hlead
    have hle : (2 : ℚ) ^ (precision - 1) * 2 ^ e ≤ w * 2 ^ e := mul_le_mul_of_nonneg_right hw hunit.le
    rw [hx, hdist, abs_of_neg (a := y.value - w * 2 ^ e) (by linarith)]
    have hscaled := mul_le_mul_of_nonneg_right hlead hunit.le
    linarith
  refine ⟨hformat, .inl hnormal, fun y hy => ?_, fun y hy hne htie => ?_⟩
  · rcases hy.value_cases e with ⟨t, ht⟩ | hlt
    · rw [hx, ht, hdist, hdist]
      exact mul_le_mul_of_nonneg_right (hm.le t) hunit.le
    · exact (hsmall y hlt).le
  · rcases hy.value_cases e with ⟨t, ht⟩ | hlt
    · have htm : t ≠ m := by
        rintro rfl
        exact hne (ht.trans hx.symm)
      rw [hx, ht, hdist, hdist] at htie
      exact heven (hm.even_of_tie htm (mul_right_cancel₀ hunit.ne' htie))
    · exact absurd htie (hsmall y hlt).ne'

/-! ### Quotients of numbers that the format holds -/

/-- The same where the power of two itself may need one digit less. -/
theorem isNearest_carried (hw : 2 ^ (precision - 1) ≤ w) (hw' : w < 2 ^ precision) (hm : RoundsEven m w)
    (hmin : minExponent ≤ e) (hmax : e ≤ 0) :
    (if m = 2 ^ precision then (⟨2 ^ (precision - 1), e + 1⟩ : Binary64) else ⟨m, e⟩).IsNearest (w * 2 ^ e) := by
  have hlow : 2 ^ (precision - 1) ≤ m := hm.le_of_le (by exact_mod_cast hw)
  have hhigh : m ≤ 2 ^ precision := hm.ge_of_ge (by exact_mod_cast hw'.le)
  split
  · rename_i hcarry
    refine isNearest_of_roundsEven hw hm ?_ ⟨?_, ?_, ?_⟩ le_rfl fun _ => ?_
    · rw [value, hcarry, zpow_add_one₀ two_ne_zero, precision]
      push_cast
      ring
    · show 2 ^ (precision - 1) < 2 ^ precision
      decide
    · show minExponent ≤ e + 1
      omega
    · exact decide_eq_false (show ¬971 < e + 1 by omega)
    · show 2 ^ (precision - 1) % 2 = 0
      decide
  · rename_i hcarry
    have hfits : overflows ⟨m, e⟩ = false := decide_eq_false (show ¬971 < e by omega)
    exact isNearest_of_roundsEven hw hm rfl ⟨lt_of_le_of_ne hhigh hcarry, hmin, hfits⟩ hlow id

theorem ofRatio_eq (h : exponentOf num den ≤ 0) :
    ofRatio num den = if roundHalfEven (num * 2 ^ (-exponentOf num den).toNat) den = 2 ^ precision then
        ⟨2 ^ (precision - 1), exponentOf num den + 1⟩
      else ⟨roundHalfEven (num * 2 ^ (-exponentOf num den).toNat) den, exponentOf num den⟩ := by
  simp only [ofRatio, scaled_of_nonpos h, Nat.one_shiftLeft]

theorem div_eq_scaled (h : e ≤ 0) :
    (num : ℚ) / den = ((num * 2 ^ (-e).toNat : Nat) : ℚ) / den * 2 ^ e := by
  have hunit : (2 : ℚ) ^ (-e).toNat * 2 ^ e = 1 := by
    rw [← zpow_natCast, ← zpow_add₀ two_ne_zero, Int.toNat_of_nonneg (by omega), neg_add_cancel, zpow_zero]
  push_cast
  rw [div_mul_eq_mul_div, mul_assoc, hunit, mul_one]

/-- The first guess of the exponent is right, or one too great. -/
theorem exponentOf_eq {k : Nat} (hk : num.log2 + k = precision - 1 + den.log2) (hle : k ≤ 104) : exponentOf num den =
    if num * 2 ^ k < den * 2 ^ (precision - 1) then -(k : Int) - 1 else -(k : Int) := by
  have hguess : (num.log2 : Int) - den.log2 - ((precision : Int) - 1) = -(k : Int) := by
    rw [precision] at hk ⊢
    omega
  have hscaled : scaled num den (-(k : Int)) = (num * 2 ^ k, den) := by
    rw [scaled_of_nonpos (by omega), show (- -(k : Int)).toNat = k by omega]
  unfold exponentOf
  rw [hguess]
  dsimp only
  rw [hscaled]
  dsimp only
  rw [Nat.shiftLeft_eq]
  refine max_eq_right ?_
  rw [minExponent]
  split <;> omega

section

variable (hnumPos : 0 < num) (hpos : 0 < den) (hnum : num < 2 ^ precision) (hden : den < 2 ^ precision)
include hnumPos hpos hnum hden

/-- Scaled by its exponent, a quotient has all its digits before the point. -/
theorem normal_scaled :
    2 ^ (precision - 1) * den ≤ num * 2 ^ (-exponentOf num den).toNat ∧
      num * 2 ^ (-exponentOf num den).toNat < 2 ^ precision * den := by
  have hlogNum := log2_le_of_lt hnum
  have hlogDen := log2_le_of_lt hden
  obtain ⟨k, hk⟩ : ∃ k, num.log2 + k = 52 + den.log2 := ⟨52 + den.log2 - num.log2, by omega⟩
  have hpow : 2 ^ num.log2 * 2 ^ k = 2 ^ 52 * 2 ^ den.log2 := by rw [← Nat.pow_add, ← Nat.pow_add, hk]
  have hlow : 2 ^ num.log2 * 2 ^ k ≤ num * 2 ^ k := Nat.mul_le_mul_right _ (Nat.log2_self_le hnumPos.ne')
  have hhigh : num * 2 ^ k < 2 * (2 ^ num.log2 * 2 ^ k) := by
    rw [← Nat.mul_assoc, ← Nat.pow_succ']
    exact Nat.mul_lt_mul_of_pos_right Nat.lt_log2_self (Nat.two_pow_pos k)
  have hdenLow : 2 ^ den.log2 ≤ den := Nat.log2_self_le hpos.ne'
  have hdenHigh : den < 2 * 2 ^ den.log2 := Nat.pow_succ' ▸ Nat.lt_log2_self
  rw [exponentOf_eq hk (by omega), precision]
  split
  · have htoNat : (-(-(k : Int) - 1)).toNat = k + 1 := by omega
    rw [htoNat, Nat.pow_succ' (n := k), Nat.mul_left_comm]
    omega
  · have htoNat : (- -(k : Int)).toNat = k := by omega
    rw [htoNat]
    omega

/-- The quotient is correctly rounded. -/
theorem isNearest_ofRatio : (ofRatio num den).IsNearest (num / den) := by
  obtain ⟨hlow, hhigh⟩ := normal_scaled hnumPos hpos hnum hden
  have hmin : minExponent ≤ exponentOf num den := le_max_left _ _
  have hmax : exponentOf num den ≤ 0 := (exponentOf_le hnum hden).trans (by omega)
  have hden' : (0 : ℚ) < den := by exact_mod_cast hpos
  rw [ofRatio_eq hmax, div_eq_scaled hmax]
  refine isNearest_carried ?_ ?_ (roundsEven_roundHalfEven _ hpos) hmin hmax
  · exact (le_div_iff₀ hden').mpr (by exact_mod_cast hlow)
  · exact (div_lt_iff₀ hden').mpr (by exact_mod_cast hhigh)

end

/-! ### What is asked of a number -/

theorem div_ratio (x : Binary64) : (x.ratio.1 : ℚ) / x.ratio.2 = x.value := by
  rw [ratio, value]
  split
  · rename_i h
    rw [Nat.shiftLeft_eq, Nat.cast_one, div_one, ← Int.toNat_of_nonneg h]
    push_cast
    rw [zpow_natCast, Int.toNat_natCast]
  · rename_i h
    obtain ⟨k, hk⟩ : ∃ k : Nat, x.exponent = -(k : Int) := ⟨(-x.exponent).toNat, by omega⟩
    rw [Nat.one_shiftLeft, hk, neg_neg, Int.toNat_natCast, zpow_neg, zpow_natCast, div_eq_mul_inv]
    push_cast
    rfl

/-- What is asked of a number is asked of its value. -/
structure ReadsValue (x : Binary64) : Prop where
  isWhole_iff : x.isWhole = true ↔ ∃ n : Nat, x.value = n
  atLeastOne_iff : x.atLeastOne = true ↔ 1 ≤ x.value
  isOne_iff : x.isOne = true ↔ x.value = 1
  wholePart_eq : x.wholePart = ⌊x.value⌋₊

theorem readsValue (x : Binary64) : x.ReadsValue := by
  have hpos : (0 : ℚ) < x.ratio.2 := by exact_mod_cast x.ratio_snd_pos
  have hvalue := x.div_ratio
  refine ⟨?_, ?_, ?_, ?_⟩
  · rw [isWhole, beq_iff_eq, ← Nat.dvd_iff_mod_eq_zero]
    constructor
    · rintro ⟨n, hn⟩
      refine ⟨n, ?_⟩
      rw [← hvalue, hn, Nat.cast_mul, mul_div_cancel_left₀ _ hpos.ne']
    · rintro ⟨n, hn⟩
      refine ⟨n, ?_⟩
      rw [← hvalue, div_eq_iff hpos.ne', mul_comm] at hn
      exact_mod_cast hn
  · rw [atLeastOne, decide_eq_true_iff, ← hvalue, one_le_div hpos, Nat.cast_le]
  · rw [isOne, beq_iff_eq, ← hvalue, div_eq_one_iff_eq hpos.ne', Nat.cast_inj]
  · rw [wholePart, ← hvalue, Nat.floor_div_eq_div]

/-- `x` is `num / den` correctly rounded, and what is asked of it has the answer that the exact quotient gives. -/
structure ExactRatio (x : Binary64) (num den : Nat) : Prop where
  isNearest : x.IsNearest (num / den)
  isWhole_iff : x.isWhole = true ↔ den ∣ num
  atLeastOne_iff : x.atLeastOne = true ↔ den ≤ num
  isOne_iff : x.isOne = true ↔ num = den
  wholePart_eq : x.wholePart = num / den

theorem exactRatio_ofRatio (hnumPos : 0 < num) (hpos : 0 < den) (hnum : num < 2 ^ precision)
    (hden : den < 2 ^ precision) : (ofRatio num den).ExactRatio num den where
  isNearest := isNearest_ofRatio hnumPos hpos hnum hden
  isWhole_iff := isWhole_ofRatio hpos hnum hden
  atLeastOne_iff := atLeastOne_ofRatio hpos hnum hden
  isOne_iff := isOne_ofRatio hpos hnum hden
  wholePart_eq := wholePart_ofRatio hpos hnum hden

/-- Of the next numbers after those, two that differ are rounded to the ratio one. -/
example : (ofRatio (2 ^ 53 - 1) (2 ^ 53 - 2)).isOne = false ∧ (ofRatio (2 ^ 53 + 1) (2 ^ 53)).isOne = true := by
  decide +kernel

end Binary64

namespace TrainingPair

variable {pair : TrainingPair}

theorem exactRatio_shapeRatio (h : pair.ExactShapes) :
    pair.shapeRatio.1.ExactRatio pair.output.rows pair.input.rows ∧
      pair.shapeRatio.2.ExactRatio pair.output.cols pair.input.cols := by
  have hrows := Binary64.exactRatio_ofRatio pair.output.rows_pos pair.input.rows_pos h.outputRows h.inputRows
  have hcols := Binary64.exactRatio_ofRatio pair.output.cols_pos pair.input.cols_pos h.outputCols h.inputCols
  rw [shapeRatio]
  dsimp only
  exact ⟨hrows, hcols⟩

theorem isScaled_iff_dvd (hexact : pair.ExactShapes) : pair.isScaled = true ↔
    pair.input.rows ∣ pair.output.rows ∧ pair.input.cols ∣ pair.output.cols ∧
      pair.input.upscale? (pair.output.rows / pair.input.rows) (pair.output.cols / pair.input.cols) =
        some pair.output := by
  obtain ⟨hrows, hcols⟩ := Prod.mk.inj (factors_eq hexact)
  simp only [isScaled, Bool.and_eq_true, beq_iff_eq, hrows, hcols, and_assoc]
  rw [shapeRatio, Binary64.isWhole_ofRatio pair.input.rows_pos hexact.outputRows hexact.inputRows,
    Binary64.isWhole_ofRatio pair.input.cols_pos hexact.outputCols hexact.inputCols]

end TrainingPair

namespace Task

/-- Where the numbers of rows and columns are below `2 ^ 53`, each ratio of a training pair is the exact quotient
correctly rounded, and whether it is whole, at least one or one, and its whole part, are as for the exact quotient. So
the tests of a task on its shapes, the ratio that sizes new outputs and the factors of scaling are those of whole
numbers. -/
theorem shape_tests_exact (task : Task) (hexact : ∀ pair ∈ task.train, pair.ExactShapes) :
    (∀ x : Binary64, x.ReadsValue) ∧
    (∀ pair ∈ task.train, pair.shapeRatio.1.ExactRatio pair.output.rows pair.input.rows ∧
      pair.shapeRatio.2.ExactRatio pair.output.cols pair.input.cols) ∧
    (task.keepsShape = true ↔
      task.train ≠ [] ∧ ∀ pair ∈ task.train, pair.output.shape = pair.input.shape) ∧
    (task.isMultiple = true ↔ ∀ pair ∈ task.train,
      pair.input.rows ∣ pair.output.rows ∧ pair.input.cols ∣ pair.output.cols) ∧
    task.outputRatio? = task.train.head?.map (fun pair =>
      (pair.output.rows / pair.input.rows, pair.output.cols / pair.input.cols)) ∧
    ∀ pair ∈ task.train, (pair.isScaled = true ↔
      pair.input.rows ∣ pair.output.rows ∧ pair.input.cols ∣ pair.output.cols ∧
        pair.input.upscale? (pair.output.rows / pair.input.rows) (pair.output.cols / pair.input.cols) =
          some pair.output) := by
  refine ⟨Binary64.readsValue, fun pair hpair => ?_, ?_, ?_, ?_, fun pair hpair => ?_⟩
  · exact TrainingPair.exactRatio_shapeRatio (hexact pair hpair)
  · simp only [keepsShape, Bool.and_eq_true, List.all_eq_true, Bool.not_eq_true', List.isEmpty_eq_false_iff]
    exact and_congr_right fun _ => forall₂_congr fun pair hpair => TrainingPair.keepsShape_iff (hexact pair hpair)
  · rw [isMultiple, List.all_eq_true]
    exact forall₂_congr fun pair hpair => TrainingPair.isMultiple_iff (hexact pair hpair)
  · rw [outputRatio?_eq]
    exact Option.map_congr fun pair hpair => TrainingPair.factors_eq (hexact pair (List.mem_of_head? hpair))
  · exact TrainingPair.isScaled_iff_dvd (hexact pair hpair)

/-- One row becomes two, and three columns become four: four thirds is rounded, and it is not taken for whole. -/
theorem shape_tests_exact_thirds :
    let pair : TrainingPair :=
      ⟨⟨1, 3, #[1, 2, 3], by decide, by decide, rfl⟩,
        ⟨2, 4, #[1, 2, 3, 0, 1, 2, 3, 0], by decide, by decide, rfl⟩⟩
    let task : Task := { train := [pair], test := [], id := "a" }
    (∀ pair ∈ task.train, pair.ExactShapes) ∧ pair.shapeRatio.2.ExactRatio 4 3 ∧
      pair.shapeRatio.2.value ≠ 4 / 3 ∧ task.isMultiple = false ∧ task.outputRatio? = some (2, 1) := by
  intro pair task
  have hexact : ∀ pair ∈ task.train, pair.ExactShapes := by
    simp only [task, List.forall_mem_singleton]
    exact ⟨by decide, by decide, by decide, by decide⟩
  obtain ⟨-, hratios, -, hmultiple, hratio, -⟩ := shape_tests_exact task hexact
  have hthirds : pair.shapeRatio.2 = ⟨6004799503160661, -52⟩ := by decide +kernel
  refine ⟨hexact, (hratios pair List.mem_cons_self).2, ?_, ?_, hratio.trans (by decide)⟩
  · rw [hthirds, Binary64.value]
    norm_num
  · refine Bool.eq_false_iff.mpr fun h => ?_
    have hdvd := (hmultiple.mp h pair List.mem_cons_self).2
    exact absurd hdvd (by decide)

end Task
end Mosaic

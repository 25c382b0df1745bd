/-!
# Words

Places of cells and lengths are words of 64 bits. What becomes of a sum or a product that is greater than
any word is a choice of the build: the computation stops, or it goes on with the low bits. Statements about
words are made for every `WordArithmetic` that is `Exact`, or for one of the two.
-/

namespace Mosaic

/-- The bound of words, two to the power 64. -/
def wordLimit : Nat := 18446744073709551616

/-- The bound of the number of cells that a grid can be given, half of `wordLimit`. -/
def cellLimit : Nat := 9223372036854775808

/-- How sums and products of words are computed. There is no result where the computation stops. -/
structure WordArithmetic where
  add : Nat → Nat → Option Nat
  mul : Nat → Nat → Option Nat

namespace WordArithmetic

/-- A number that fits no word stops the computation. -/
def checked : WordArithmetic where
  add a b := if a + b < wordLimit then some (a + b) else none
  mul a b := if a * b < wordLimit then some (a * b) else none

/-- Of a number that fits no word, the low 64 bits remain. -/
def wrapping : WordArithmetic where
  add a b := some ((a + b) % wordLimit)
  mul a b := some (a * b % wordLimit)

/-- Numbers that fit a word are computed as they are. -/
structure Exact (w : WordArithmetic) : Prop where
  add_eq : ∀ a b, a + b < wordLimit → w.add a b = some (a + b)
  mul_eq : ∀ a b, a * b < wordLimit → w.mul a b = some (a * b)

theorem exact_wrapping : wrapping.Exact :=
  ⟨fun _ _ h => congrArg some (Nat.mod_eq_of_lt h), fun _ _ h => congrArg some (Nat.mod_eq_of_lt h)⟩

/-- No other number is computed than the sum or the product. -/
structure Sound (w : WordArithmetic) : Prop where
  eq_add : ∀ a b n, w.add a b = some n → n = a + b
  eq_mul : ∀ a b n, w.mul a b = some n → n = a * b

end WordArithmetic
end Mosaic

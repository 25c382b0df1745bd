/-!
# Binary64

Finite nonnegative numbers of the binary64 format, as exact natural numbers times powers of two.
`Binary64.ofRatio` rounds a quotient to the nearest one, a tie to the even significand; what is asked
of a number afterwards (is it whole, what is its whole part) is answered exactly.
-/

namespace Mosaic

/-- `num / den` rounded to the nearest natural number, a half to the even one. -/
def roundHalfEven (num den : Nat) : Nat :=
  let q := num / den
  let r := num % den
  if 2 * r < den then q
  else if den < 2 * r then q + 1
  else if q % 2 = 0 then q else q + 1

/-- The number `significand * 2 ^ exponent`. -/
structure Binary64 where
  significand : Nat
  exponent : Int
deriving DecidableEq, Repr

namespace Binary64

/-- The number of binary digits of a significand. -/
def precision : Nat := 53

/-- The exponent of the least positive number. -/
def minExponent : Int := -1074

/-- `num / den / 2 ^ e` as a quotient of natural numbers. -/
def scaled (num den : Nat) (e : Int) : Nat × Nat :=
  if 0 ≤ e then (num, den <<< e.toNat) else (num <<< (-e).toNat, den)

/-- The exponent at which the whole part of `num / den` has `precision` digits, or the least exponent
if that is greater. -/
def exponentOf (num den : Nat) : Int :=
  let e : Int := (num.log2 : Int) - den.log2 - (precision - 1)
  let (n, d) := scaled num den e
  max minExponent (if n < d <<< (precision - 1) then e - 1 else e)

/-- The number nearest to `num / den`, a tie going to the even significand. -/
def ofRatio (num den : Nat) : Binary64 :=
  let e := exponentOf num den
  let (n, d) := scaled num den e
  let m := roundHalfEven n d
  if m = 1 <<< precision then ⟨1 <<< (precision - 1), e + 1⟩ else ⟨m, e⟩

/-- The number as a quotient of natural numbers. -/
def ratio (x : Binary64) : Nat × Nat :=
  if 0 ≤ x.exponent then (x.significand <<< x.exponent.toNat, 1)
  else (x.significand, 1 <<< (-x.exponent).toNat)

/-- The part of the number before the binary point. -/
def wholePart (x : Binary64) : Nat := x.ratio.1 / x.ratio.2

/-- There is nothing after the binary point. -/
def isWhole (x : Binary64) : Bool := x.ratio.1 % x.ratio.2 == 0

/-- The number is at least one. -/
def atLeastOne (x : Binary64) : Bool := x.ratio.2 ≤ x.ratio.1

def isOne (x : Binary64) : Bool := x.ratio.1 == x.ratio.2

/-- The number is too great for the format. -/
def overflows (x : Binary64) : Bool := 971 < x.exponent

/-- The 64 bits of the number in the interchange format. -/
def bits (x : Binary64) : Nat :=
  let lead := 1 <<< (precision - 1)
  if x.significand < lead then x.significand
  else (x.exponent - minExponent + 1).toNat * lead + (x.significand - lead)

/-- The bits as sixteen hexadecimal digits. -/
def hex (x : Binary64) : String :=
  let digits := Nat.toDigits 16 x.bits
  String.ofList (List.replicate (16 - digits.length) '0' ++ digits)

end Binary64
end Mosaic

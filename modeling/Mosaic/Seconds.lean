import Mosaic.Binary64
import Mosaic.Search.Budget

/-!
# Numbers of seconds

A length of time is given as a decimal number of seconds. The number is first rounded to binary64 and
then to whole nanoseconds, each time to the nearest, a tie to the even one.
-/

namespace Mosaic

/-- What a decimal text stands for. -/
inductive Decimal
  /-- `digits * 10 ^ exponent`, or that with the sign changed. -/
  | finite (negative : Bool) (digits : Nat) (exponent : Int)
  | infinite (negative : Bool)
  | notANumber
deriving DecidableEq, Repr

namespace Decimal

/-- A run of digits, and what follows it. -/
def splitDigits (cs : List Char) : List Char × List Char :=
  (cs.takeWhile Char.isDigit, cs.dropWhile Char.isDigit)

/-- A sign in front of a text, if there is one; `true` is minus. -/
def splitSign : List Char → Bool × List Char
  | '-' :: cs => (true, cs)
  | '+' :: cs => (false, cs)
  | cs => (false, cs)

/-- The exponent that a text consists of, which may be missing. -/
def exponent? : List Char → Option Int
  | [] => some 0
  | c :: cs =>
    if c = 'e' || c = 'E' then
      let (negative, cs) := splitSign cs
      match splitDigits cs with
      | ([], _) => none
      | (digits, []) =>
        let n : Int := Nat.ofDigitChars 10 digits 0
        some (if negative then -n else n)
      | (_, _ :: _) => none
    else none

/-- A number without its sign: digits with at most one point, at least one digit, and an exponent. -/
def unsigned? (negative : Bool) (cs : List Char) : Option Decimal :=
  let (whole, rest) := splitDigits cs
  let (fraction, rest) :=
    match rest with
    | '.' :: rest => splitDigits rest
    | rest => ([], rest)
  if whole.isEmpty && fraction.isEmpty then none
  else (exponent? rest).map fun e =>
    finite negative (Nat.ofDigitChars 10 (whole ++ fraction) 0) (e - fraction.length)

def parse? (text : String) : Option Decimal :=
  let (negative, cs) := splitSign text.toList
  let word := cs.map Char.toLower
  if word = "inf".toList || word = "infinity".toList then some (infinite negative)
  else if word = "nan".toList then some notANumber
  else unsigned? negative cs

/-- The binary64 number nearest to `digits * 10 ^ exponent`, or none when it is too great. -/
def nearest? (digits : Nat) (exponent : Int) : Option Binary64 :=
  let magnitude := (Nat.toDigits 10 digits).length + exponent
  if digits = 0 ∨ magnitude < -400 then some ⟨0, Binary64.minExponent⟩
  else if 400 < magnitude then none
  else
    let x :=
      if 0 ≤ exponent then Binary64.ofRatio (digits * Nat.pow 10 exponent.toNat) 1
      else Binary64.ofRatio digits (Nat.pow 10 (-exponent).toNat)
    if x.overflows then none else some x

end Decimal

namespace Seconds

inductive ParseError
  | notANumber
  | outOfRange
deriving DecidableEq, Repr

def ParseError.message (text : String) : ParseError → String
  | notANumber => s!"'{text}' is not a number of seconds"
  | outOfRange => s!"'{text}' must be a finite, non-negative number of seconds"

/-- The number of seconds to the nearest nanosecond, below `2 ^ 64` seconds. -/
def ofBinary64? (x : Binary64) : Option Duration :=
  let (num, den) := x.ratio
  let d := Duration.ofNanos 0 (roundHalfEven (num * 1000000000) den)
  if d.seconds < wordLimit then some d else none

/-- The length of time that a text gives. A negative number is refused unless it rounds to zero. -/
def parse (text : String) : Except ParseError Duration :=
  match Decimal.parse? text with
  | none => .error .notANumber
  | some (.finite negative digits exponent) =>
    match Decimal.nearest? digits exponent with
    | none => .error .outOfRange
    | some x =>
      if negative && x.significand != 0 then .error .outOfRange
      else
        match ofBinary64? x with
        | some d => .ok d
        | none => .error .outOfRange
  | some _ => .error .outOfRange

end Seconds
end Mosaic

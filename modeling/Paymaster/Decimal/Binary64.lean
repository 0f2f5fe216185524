/-!
# Binary floating point numbers

The finite numbers of the 64-bit binary format, as a mantissa below `2 ^ 53` times a power of two.
Rounding a fraction goes to the nearest number and, half way, to the one with the even mantissa. All
is done in exact arithmetic on natural numbers.
-/

namespace Paymaster.Decimal

/-- A number of the 64-bit binary format. -/
inductive Binary64 where
  /-- The number `± mantissa * 2 ^ exponent`. -/
  | finite (negative : Bool) (mantissa : Nat) (exponent : Int)
  /-- Larger than all finite numbers, or smaller. -/
  | infinite (negative : Bool)
  /-- No number. -/
  | nan
  deriving DecidableEq, Repr

namespace Binary64

/-- The least exponent. -/
def minExponent : Int := -1074

/-- The greatest exponent. -/
def maxExponent : Int := 971

/-- The least mantissa above the least exponent; the greatest lies below its double. -/
def leastMantissa : Nat := 1 <<< 52

/-- Zero with a sign. -/
def zero (negative : Bool) : Binary64 := .finite negative 0 minExponent

/-- The whole part and the rest of `num / (den * 2 ^ e)`, as quotient, remainder and divisor. -/
def scaled (num den : Nat) (e : Int) : Nat × Nat × Nat :=
  let n := if e < 0 then num <<< (-e).toNat else num
  let d := if e < 0 then den else den <<< e.toNat
  (n / d, n % d, d)

/-- The quotient rounded to the nearest integer, half way to the even one. -/
def roundHalfEven (quotient remainder divisor : Nat) : Nat :=
  if 2 * remainder < divisor then quotient
  else if 2 * remainder = divisor ∧ quotient % 2 = 0 then quotient
  else quotient + 1

/-- The number nearest to `num / den`. -/
def ofRatio (negative : Bool) (num den : Nat) : Binary64 :=
  if num = 0 ∨ den = 0 then zero negative
  else
    let e := max ((num.log2 : Int) - den.log2 - 53) minExponent
    let e := if (scaled num den e).1 < 2 * leastMantissa then e else e + 1
    let (q, r, d) := scaled num den e
    let m := roundHalfEven q r d
    let (m, e) := if m < 2 * leastMantissa then (m, e) else (leastMantissa, e + 1)
    if maxExponent < e then .infinite negative else .finite negative m e

/-- The number nearest to a natural number. -/
def ofNat (n : Nat) : Binary64 := ofRatio false n 1

/-- The number nearest to `digits * 10 ^ power`; powers far out of range are not computed. -/
def ofDecimal (negative : Bool) (digits : Nat) (power : Int) : Binary64 :=
  if digits = 0 then zero negative
  else if 400 < power then .infinite negative
  else if power + digits.log2 < -1200 then zero negative
  else if power < 0 then ofRatio negative digits (Nat.pow 10 (-power).toNat)
  else ofRatio negative (digits * Nat.pow 10 power.toNat) 1

/-- The number is neither infinite nor missing. -/
def isFinite : Binary64 → Bool
  | .finite .. => true
  | _ => false

/-- The value of a finite number is zero. -/
def isZero : Binary64 → Bool
  | .finite _ m _ => m == 0
  | _ => false

/-- The absolute value of a finite number as a fraction. -/
def toRatio (m : Nat) (e : Int) : Nat × Nat :=
  if e < 0 then (m, 1 <<< (-e).toNat) else (m <<< e.toNat, 1)

/-- The rounded product of a number and a power of ten that was rounded before. -/
def timesPowerOfTen (x : Binary64) (power : Nat) : Binary64 :=
  match x, ofDecimal false 1 power with
  | .finite s m e, .finite _ m' e' =>
    let (a, b) := toRatio m e
    let (c, d) := toRatio m' e'
    ofRatio s (a * c) (b * d)
  | x, _ => x

/-- The rounded quotient of a number by a power of ten that was rounded before. -/
def overPowerOfTen (x : Binary64) (power : Nat) : Binary64 :=
  match x, ofDecimal false 1 power with
  | .finite s m e, .finite _ m' e' =>
    let (a, b) := toRatio m e
    let (c, d) := toRatio m' e'
    ofRatio s (a * d) (b * c)
  | x, _ => x

/-- The number with the other sign. -/
def neg : Binary64 → Binary64
  | .finite s m e => .finite (!s) m e
  | .infinite s => .infinite (!s)
  | .nan => .nan

end Binary64
end Paymaster.Decimal

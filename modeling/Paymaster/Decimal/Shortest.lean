import Paymaster.Decimal.Binary64
/-!
# The shortest decimal form of a number

Among the decimals that round to a given binary number, the one with the fewest digits is written,
and of those the nearest. A number is then laid out in one of two ways: always positional, or with a
power of ten when it is very large or very small.
-/

namespace Paymaster.Decimal

/-- A decimal `digits * 10 ^ power`; the digits do not end in zero unless they are zero. -/
structure Scientific where
  /-- The significant digits as a number. -/
  digits : Nat
  /-- The power of ten of the last digit. -/
  power : Int
  deriving DecidableEq, Repr

/-- The fraction `a / b` is less than `c / d`. -/
def ratioLt (x y : Nat × Nat) : Bool := x.1 * y.2 < y.1 * x.2

/-- The open or closed interval of fractions that round to a binary number. -/
structure Rounding where
  /-- The number itself. -/
  value : Nat × Nat
  /-- The lower end. -/
  low : Nat × Nat
  /-- The upper end. -/
  high : Nat × Nat
  /-- The ends belong to the interval. -/
  closed : Bool

/-- The interval of fractions that round to `m * 2 ^ e`. -/
def Rounding.of (m : Nat) (e : Int) : Rounding where
  value := Binary64.toRatio m e
  low :=
    if m = Binary64.leastMantissa ∧ Binary64.minExponent < e then Binary64.toRatio (4 * m - 1) (e - 2)
    else Binary64.toRatio (2 * m - 1) (e - 1)
  high := Binary64.toRatio (2 * m + 1) (e - 1)
  closed := m % 2 = 0

/-- The fraction rounds to the number. -/
def Rounding.contains (r : Rounding) (x : Nat × Nat) : Bool :=
  if r.closed then !ratioLt x r.low && !ratioLt r.high x else ratioLt r.low x && ratioLt x r.high

/-- The fraction `n * 10 ^ power`. -/
def decimalRatio (n : Nat) (power : Int) : Nat × Nat :=
  if power < 0 then (n, Nat.pow 10 (-power).toNat) else (n * Nat.pow 10 power.toNat, 1)

/-- The better of the two neighbours of the number on the grid of multiples of `10 ^ power`. -/
def Rounding.onGrid (r : Rounding) (power : Int) : Option Nat :=
  let (a, b) := r.value
  let (a, b) :=
    if power < 0 then (a * Nat.pow 10 (-power).toNat, b) else (a, b * Nat.pow 10 power.toNat)
  let below := a / b
  let nearUp := b < 2 * (a % b) || (2 * (a % b) == b && below % 2 == 1)
  let first := if nearUp then below + 1 else below
  let second := if nearUp then below else below + 1
  if r.contains (decimalRatio first power) then some first
  else if r.contains (decimalRatio second power) then some second
  else none

/-- Searches finer and finer grids for a decimal that rounds to the number. -/
def Rounding.search (r : Rounding) : Nat → Int → Scientific
  | 0, power => ⟨(r.onGrid power).getD 0, power⟩
  | tries + 1, power =>
    match r.onGrid power with
    | some n => ⟨n, power⟩
    | none => r.search tries (power - 1)

/-- A decimal without zeros at its end. -/
def Scientific.trim : Nat → Scientific → Scientific
  | 0, x => x
  | tries + 1, x =>
    if x.digits ≠ 0 ∧ x.digits % 10 = 0 then trim tries ⟨x.digits / 10, x.power + 1⟩ else x

/-- The power of ten of the first digit of a positive fraction, or one more. -/
def magnitude (x : Nat × Nat) : Int :=
  (((x.1.log2 : Int) - x.2.log2) * 30103).ediv 100000 + 1

/-- The shortest decimal that rounds to `m * 2 ^ e`. -/
def shortest (m : Nat) (e : Int) : Scientific :=
  if m = 0 then ⟨0, 0⟩
  else
    let r := Rounding.of m e
    (r.search 24 (magnitude r.value)).trim 24

/-- The digits of a decimal as text. -/
def Scientific.text (x : Scientific) : List Char := Nat.toDigits 10 x.digits

/-- The power of ten of the first digit. -/
def Scientific.leading (x : Scientific) : Int := x.power + x.text.length - 1

/-- A decimal without a power of ten: all zeros are written out; a whole number has no point. -/
def Scientific.positional (x : Scientific) : String :=
  let ds := x.text
  if 0 ≤ x.power then String.ofList (ds ++ List.replicate x.power.toNat '0')
  else
    let point := (ds.length : Int) + x.power
    if 0 < point then
      String.ofList (ds.take point.toNat ++ '.' :: ds.drop point.toNat)
    else String.ofList ('0' :: '.' :: (List.replicate (-point).toNat '0' ++ ds))

/-- A decimal with one digit before the point and a power of ten of at least two digits. -/
def Scientific.exponential (x : Scientific) : String :=
  let ds := x.text
  let lead := x.leading
  let fraction := if ds.length = 1 then [] else '.' :: ds.drop 1
  let power := Nat.toDigits 10 lead.natAbs
  let power := if power.length < 2 then '0' :: power else power
  String.ofList (ds.take 1 ++ fraction ++ 'e' :: (if lead < 0 then '-' else '+') :: power)

/-- The sign of a negative number. -/
def sign (negative : Bool) : String := if negative then "-" else ""

namespace Binary64

/-- The number as gauges show it: positional, whole numbers without a point. -/
def plain : Binary64 → String
  | .finite s m e => sign s ++ (shortest m e).positional
  | .infinite s => sign s ++ "inf"
  | .nan => "NaN"

/-- The number as a message about settings shows it: positional, whole numbers with `.0`. -/
def pointed : Binary64 → String
  | .finite s m e =>
    let x := shortest m e
    sign s ++ x.positional ++ (if 0 ≤ x.power then ".0" else "")
  | x => x.plain

/-- The number as JSON shows it: positional with a point when its first digit stands between
`10 ^ -5` and `10 ^ 15`, else with a power of ten. -/
def json : Binary64 → String
  | .finite s m e =>
    let x := shortest m e
    if m = 0 ∨ (-5 ≤ x.leading ∧ x.leading < 16) then (Binary64.finite s m e).pointed
    else sign s ++ x.exponential
  | x => x.plain

end Binary64
end Paymaster.Decimal

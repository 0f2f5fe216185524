import Paymaster.Document.Tree
import Paymaster.Text.Unsigned
/-!
# JSON numbers

A number without fraction and power is whole if it fits 64 bits, signed or not. Every other number
is binary floating point: the leading digits that fit 64 bits are rounded, and the result is
multiplied or divided by one rounded power of ten. This may miss the nearest number by a last bit.
-/

namespace Paymaster.Json

open Decimal (Binary64)
open Document (Tree)

/-- The parts of a number in a text. -/
structure NumberParts where
  /-- A minus sign is in front. -/
  negative : Bool
  /-- The digits before the point. -/
  whole : List Char
  /-- The digits after the point, if there is one. -/
  fraction : Option (List Char)
  /-- The sign and the digits of the power, if there is one. -/
  power : Option (Bool × List Char)
  deriving DecidableEq, Repr

/-- Numbers that fit 64 bits lie below this. -/
def significandBound : Nat := UInt64.size

/-- Appends digits to a number while it fits 64 bits; also the count of digits appended. -/
def appendDigits (n : Nat) : List Char → Nat × Nat
  | [] => (n, 0)
  | c :: rest =>
    let m := 10 * n + (c.toNat - 48)
    if m < significandBound then
      let (value, used) := appendDigits m rest
      (value, used + 1)
    else (n, 0)

/-- The largest power of ten that is a finite number. -/
def maxPower : Nat := 308

/-- The floating point number `significand * 10 ^ power`, scaled in steps; none if it is too
large. -/
def scale : Nat → Binary64 → Int → Option Binary64
  | 0, x, _ => some x
  | tries + 1, x, power =>
    if power.natAbs ≤ maxPower then
      if 0 ≤ power then
        let y := x.timesPowerOfTen power.natAbs
        if y.isFinite then some y else none
      else some (x.overPowerOfTen power.natAbs)
    else if x.isZero then some x
    else if 0 ≤ power then none
    else scale tries (x.overPowerOfTen maxPower) (power + maxPower)

/-- Steps of scaling after which every number is zero. -/
def maxSteps : Nat := 8

/-- The number with a sign. -/
def signed (negative : Bool) (x : Binary64) : Binary64 := if negative then x.neg else x

/-- The floating point number from its significant digits and its power of ten. -/
def floatOf (negative : Bool) (significand : Nat) (power : Int) : Tree :=
  match scale maxSteps (Binary64.ofNat significand) power with
  | some x => .float (signed negative x)
  | none => .unreadable .numberOutOfRange

/-- The largest power that is read as it stands. -/
def powerBound : Nat := 1 <<< 31

/-- The value of a number from its parts. -/
def NumberParts.value (p : NumberParts) : Tree :=
  let (head, used) := appendDigits 0 p.whole
  let dropped := p.whole.length - used
  match p.fraction, p.power with
  | none, none =>
    if dropped ≠ 0 then floatOf p.negative head dropped
    else if !p.negative then .int head
    else if head = 0 ∨ 1 <<< 63 < head then .float (Binary64.ofNat head).neg
    else .int (-(head : Int))
  | fraction, power =>
    let (significand, after) := appendDigits head (fraction.getD [])
    let start : Int := (dropped : Int) - after
    match power with
    | none => floatOf p.negative significand start
    | some (down, digits) =>
      let n := Text.digitsValue digits
      if n < powerBound then
        floatOf p.negative significand (if down then start - n else start + n)
      else if significand ≠ 0 ∧ !down then .unreadable .numberOutOfRange
      else .float (signed p.negative (Binary64.zero false))

end Paymaster.Json

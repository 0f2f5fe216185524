/-!
# The field of Ed25519

Arithmetic modulo the prime `2 ^ 255 - 19`, on natural numbers below it.
-/

namespace Paymaster.Ed25519

/-- The prime of the field. -/
def prime : Nat := (1 <<< 255) - 19

/-- The prime order of the base point. -/
def order : Nat := (1 <<< 252) + 27742317777372353535851937790883648493

/-- The sum of two field elements. -/
def add (a b : Nat) : Nat := (a + b) % prime

/-- The difference of two field elements below the prime. -/
def sub (a b : Nat) : Nat := (a + (prime - b)) % prime

/-- The product of two field elements. -/
def mul (a b : Nat) : Nat := a * b % prime

/-- A power of a field element, by squaring; `bits` bounds the length of the exponent. -/
def powBits : Nat → Nat → Nat → Nat
  | 0, _, _ => 1
  | bits + 1, a, e =>
    let half := powBits bits (mul a a) (e / 2)
    if e % 2 = 1 then mul a half else half

/-- A power of a field element with an exponent below `2 ^ 256`. -/
def pow (a e : Nat) : Nat := powBits 256 a e

/-- The inverse of a non-zero field element. -/
def inv (a : Nat) : Nat := pow a (prime - 2)

/-- The constant `d` of the curve `-x² + y² = 1 + d x² y²`. -/
def curveD : Nat := sub 0 (mul 121665 (inv 121666))

/-- A square root of minus one. -/
def rootOfMinusOne : Nat := pow 2 ((prime - 1) / 4)

/-- The even square root of `u / v`, if there is one. -/
def rootOfRatio? (u v : Nat) : Option Nat :=
  let v3 := mul (mul v v) v
  let v7 := mul (mul v3 v3) v
  let r := mul (mul u v3) (pow (mul u v7) ((prime - 5) / 8))
  let check := mul v (mul r r)
  let found :=
    if check = u then some r
    else if check = sub 0 u then some (mul r rootOfMinusOne)
    else none
  found.map fun r => if r % 2 = 1 then sub 0 r else r

end Paymaster.Ed25519

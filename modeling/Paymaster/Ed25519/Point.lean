import Paymaster.Ed25519.Field
import Paymaster.Word
/-!
# Points of Ed25519

A point of the twisted Edwards curve in extended coordinates: `x = X / Z`, `y = Y / Z` and
`X * Y = Z * T`. A point is written as the 32 bytes of `y`, least significant first, with the lowest
bit of `x` in the highest bit.
-/

namespace Paymaster.Ed25519

/-- A point in extended coordinates. -/
structure Point where
  /-- The numerator of `x`. -/
  X : Nat
  /-- The numerator of `y`. -/
  Y : Nat
  /-- The common denominator. -/
  Z : Nat
  /-- The numerator of `x * y`. -/
  T : Nat
  deriving Repr

namespace Point

/-- The neutral point. -/
def zero : Point := ⟨0, 1, 1, 0⟩

/-- The sum of two points by the complete addition law. -/
def add (p q : Point) : Point :=
  let a := mul (sub p.Y p.X) (sub q.Y q.X)
  let b := mul (Ed25519.add p.Y p.X) (Ed25519.add q.Y q.X)
  let c := mul (mul p.T (mul 2 curveD)) q.T
  let d := mul (mul p.Z 2) q.Z
  let e := sub b a
  let f := sub d c
  let g := Ed25519.add d c
  let h := Ed25519.add b a
  ⟨mul e f, mul g h, mul f g, mul e h⟩

/-- A point added to itself. -/
def double (p : Point) : Point := p.add p

/-- The opposite point. -/
def neg (p : Point) : Point := ⟨sub 0 p.X, p.Y, p.Z, sub 0 p.T⟩

/-- A multiple of a point; `bits` bounds the length of the factor. -/
def timesBits : Nat → Nat → Point → Point
  | 0, _, _ => zero
  | bits + 1, n, p =>
    let rest := timesBits bits (n / 2) p.double
    if n % 2 = 1 then p.add rest else rest

/-- A multiple of a point by a factor below `2 ^ 256`. -/
def times (n : Nat) (p : Point) : Point := timesBits 256 n p

/-- The number that some bytes denote, least significant first. -/
def ofLittleEndian (bytes : List UInt8) : Nat := ofBigEndian bytes.reverse

/-- The 32 bytes of a number, least significant first. -/
def littleEndian32 (n : Nat) : List UInt8 := (bigEndian 32 n).reverse

/-- The written form of a point. -/
def encode (p : Point) : List UInt8 :=
  let z := inv p.Z
  littleEndian32 (mul p.Y z + (mul p.X z % 2) <<< 255)

/-- Reads a point; the 255 low bits are taken modulo the prime. -/
def decode? (bytes : List UInt8) : Option Point :=
  let n := ofLittleEndian bytes
  let y := n % (1 <<< 255) % prime
  let yy := mul y y
  match rootOfRatio? (sub yy 1) (Ed25519.add (mul yy curveD) 1) with
  | none => none
  | some r =>
    let x := if (n >>> 255) % 2 = 1 then sub 0 r else r
    some ⟨x, y, 1, mul x y⟩

/-- The base point: `y` is four fifths and `x` is even. -/
def base : Point := (decode? (littleEndian32 (mul 4 (inv 5)))).getD zero

end Point
end Paymaster.Ed25519

import Paymaster.Digest.Sha512
import Paymaster.Ed25519.Point
/-!
# Signatures of Ed25519

A key is a secret of 32 bytes. Its digest gives a scalar, whose multiple of the base point is the
public key, and a nonce seed. A signature is 64 bytes: a written point and a scalar below the order.
A signature is checked without clearing the cofactor: the recomputed point has to have the same
written form.
-/

namespace Paymaster.Ed25519

/-- A secret key. -/
structure SecretKey where
  /-- The 32 secret bytes. -/
  bytes : List UInt8

/-- A public key, with its written form kept as it was read. -/
structure PublicKey where
  /-- The 32 bytes of the written form. -/
  bytes : List UInt8
  /-- The point they denote. -/
  point : Point

namespace SecretKey

/-- The digest from which scalar and nonce seed are taken. -/
def expanded (k : SecretKey) : List UInt8 := Digest.Sha512.hash k.bytes

/-- The secret scalar: a multiple of eight with its highest bit at place 254. -/
def scalar (k : SecretKey) : Nat :=
  let n := Point.ofLittleEndian (k.expanded.take 32)
  n % (1 <<< 254) / 8 * 8 + (1 <<< 254)

/-- The public key of a secret key. -/
def publicKey (k : SecretKey) : PublicKey :=
  let p := Point.base.times k.scalar
  ⟨p.encode, p⟩

/-- The signature of a message. -/
def sign (k : SecretKey) (message : List UInt8) : List UInt8 :=
  let nonce := Point.ofLittleEndian (Digest.Sha512.hash (k.expanded.drop 32 ++ message)) % order
  let r := (Point.base.times nonce).encode
  let challenge :=
    Point.ofLittleEndian (Digest.Sha512.hash (r ++ k.publicKey.bytes ++ message)) % order
  r ++ Point.littleEndian32 ((nonce + challenge * k.scalar) % order)

end SecretKey

namespace PublicKey

/-- Reads a public key. -/
def ofBytes? (bytes : List UInt8) : Option PublicKey :=
  if bytes.length = 32 then (Point.decode? bytes).map fun p => ⟨bytes, p⟩ else none

/-- The signature belongs to the message under this key. -/
def verify (k : PublicKey) (message signature : List UInt8) : Bool :=
  let r := signature.take 32
  let s := Point.ofLittleEndian (signature.drop 32)
  if signature.length = 64 ∧ s < order then
    let challenge := Point.ofLittleEndian (Digest.Sha512.hash (r ++ k.bytes ++ message)) % order
    ((k.point.neg.times challenge).add (Point.base.times s)).encode == r
  else false

end PublicKey
end Paymaster.Ed25519

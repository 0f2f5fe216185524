import Paymaster.Text.Hex
/-!
# Words and amounts

A rollup value is a word of 256 bits. It travels as 32 bytes, most significant first, and is shown
as `0x` and 64 digits. An amount of money is a word of 128 bits; inside a 256-bit word it takes the
low half.
-/

namespace Paymaster

/-- A 256-bit word of the rollup. -/
abbrev Word := BitVec 256

/-- An amount of a token in base units, below `2 ^ 128`. -/
abbrev Amount := BitVec 128

/-- All amounts lie below this. -/
abbrev Amount.bound : Nat := 1 <<< 128

theorem Amount.toNat_lt_bound (a : Amount) : a.toNat < Amount.bound := by
  have := a.isLt
  rwa [Amount.bound, Nat.one_shiftLeft]

theorem Amount.toNat_ofNat {n : Nat} (h : n < bound) : (BitVec.ofNat 128 n).toNat = n := by
  rw [BitVec.toNat_ofNat]
  exact Nat.mod_eq_of_lt (by rwa [bound, Nat.one_shiftLeft] at h)

/-- The bytes of a number, most significant first, in a field of the given width. -/
def bigEndian : Nat → Nat → List UInt8
  | 0, _ => []
  | width + 1, n => bigEndian width (n / 256) ++ [UInt8.ofNat (n % 256)]

/-- The number that some bytes denote, most significant first. -/
def ofBigEndian (bytes : List UInt8) : Nat := bytes.foldl (fun n b => 256 * n + b.toNat) 0

theorem length_bigEndian (width n : Nat) : (bigEndian width n).length = width := by
  induction width generalizing n with
  | zero => rfl
  | succ width ih => simp [bigEndian, ih]

theorem ofBigEndian_append (bytes : List UInt8) (b : UInt8) :
    ofBigEndian (bytes ++ [b]) = 256 * ofBigEndian bytes + b.toNat := by
  simp [ofBigEndian]

theorem ofBigEndian_bigEndian (width n : Nat) (h : n < 1 <<< (8 * width)) :
    ofBigEndian (bigEndian width n) = n := by
  induction width generalizing n with
  | zero =>
    have : n = 0 := by simpa using h
    simp [bigEndian, ofBigEndian, this]
  | succ width ih =>
    have hdiv : n / 256 < 1 <<< (8 * width) := by
      apply Nat.div_lt_of_lt_mul
      rw [Nat.mul_succ, Nat.one_shiftLeft, Nat.pow_add, Nat.mul_comm] at h
      rwa [Nat.one_shiftLeft]
    rw [bigEndian, ofBigEndian_append, ih _ hdiv]
    have hlt : n % 256 < 256 := Nat.mod_lt _ (by decide)
    have : (UInt8.ofNat (n % 256)).toNat = n % 256 := by
      simp [UInt8.toNat_ofNat']
    rw [this]
    omega

namespace Word

/-- The 32 bytes of a word, most significant first. -/
def toBytes (w : Word) : List UInt8 := bigEndian 32 w.toNat

/-- The word that 32 bytes denote; of a longer list the low 256 bits count. -/
def ofBytes (bytes : List UInt8) : Word := BitVec.ofNat 256 (ofBigEndian bytes)

/-- The 64 digits of a word. -/
def digits (w : Word) : String := Text.Hex.encode w.toBytes

/-- A word as `0x` and 64 digits. -/
def toHex (w : Word) : String := "0x" ++ w.digits

/-- An amount in the low half of a word. -/
def ofAmount (a : Amount) : Word := BitVec.ofNat 256 a.toNat

/-- A 64-bit number in the low quarter of a word. -/
def ofUInt64 (n : UInt64) : Word := BitVec.ofNat 256 n.toNat

/-- The amount a word holds, if its high half is zero. -/
def toAmount? (w : Word) : Option Amount :=
  if w.toNat < Amount.bound then some (BitVec.ofNat 128 w.toNat) else none

theorem length_toBytes (w : Word) : w.toBytes.length = 32 := length_bigEndian 32 _

theorem ofBytes_toBytes (w : Word) : ofBytes w.toBytes = w := by
  have h : w.toNat < 1 <<< (8 * 32) := by
    have hw := w.isLt
    rwa [Nat.one_shiftLeft]
  rw [ofBytes, toBytes, ofBigEndian_bigEndian _ _ h]
  simp

theorem toAmount?_ofAmount (a : Amount) : (ofAmount a).toAmount? = some a := by
  have ha := a.isLt
  have h : (ofAmount a).toNat = a.toNat := by
    simp only [ofAmount, BitVec.toNat_ofNat]
    exact Nat.mod_eq_of_lt (by omega)
  simp [toAmount?, h, a.toNat_lt_bound]

end Word

namespace Amount

/-- The amount with a given value, if it lies below the bound. -/
def ofNat? (n : Nat) : Option Amount :=
  if n < bound then some (BitVec.ofNat 128 n) else none

/-- The largest amount. -/
def max : Amount := BitVec.allOnes 128

/-- The sum of two amounts, or the largest amount if it is smaller. -/
def satAdd (a b : Amount) : Amount := BitVec.ofNat 128 (Nat.min (a.toNat + b.toNat) max.toNat)

/-- The decimal digits of an amount. -/
def toDecimal (a : Amount) : String := toString a.toNat

end Amount

end Paymaster

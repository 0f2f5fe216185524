import Paymaster.Word
/-!
# The SHA-2 family

The hash functions of the family differ in the width of their words, in their constants and in how
words are spread. A message is padded by one set bit, zeros and its length in bits to whole blocks
of sixteen words, and each block is mixed into a state of eight words.
-/

namespace Paymaster.Digest.Sha2

/-- The eight words of a state. -/
structure State (α : Type) where
  /-- The first word. -/
  a : α
  /-- The second word. -/
  b : α
  /-- The third word. -/
  c : α
  /-- The fourth word. -/
  d : α
  /-- The fifth word. -/
  e : α
  /-- The sixth word. -/
  f : α
  /-- The seventh word. -/
  g : α
  /-- The eighth word. -/
  h : α
  deriving DecidableEq, Repr

/-- The words of a state in order. -/
def State.toList {α : Type} (s : State α) : List α := [s.a, s.b, s.c, s.d, s.e, s.f, s.g, s.h]

/-- The sum of two states, word by word. -/
def State.add {α : Type} [Add α] (s t : State α) : State α :=
  ⟨s.a + t.a, s.b + t.b, s.c + t.c, s.d + t.d, s.e + t.e, s.f + t.f, s.g + t.g, s.h + t.h⟩

/-- A member of the family. -/
structure Variant (α : Type) where
  /-- The bytes of a word. -/
  wordSize : Nat
  /-- The word with a given value. -/
  ofNat : Nat → α
  /-- The value of a word. -/
  toNat : α → Nat
  /-- The state before the first block. -/
  initial : State α
  /-- The constants, one for each round. -/
  constants : Array α
  /-- Spreads the word of the schedule that lies fifteen places back. -/
  spreadEarly : α → α
  /-- Spreads the word of the schedule that lies two places back. -/
  spreadLate : α → α
  /-- Spreads the first word of the state. -/
  spreadFirst : α → α
  /-- Spreads the fifth word of the state. -/
  spreadFifth : α → α

namespace Variant

variable {α : Type} [Add α] [XorOp α] [AndOp α] [Complement α] (v : Variant α)

/-- The bytes of a block. -/
def blockSize (v : Variant α) : Nat := 16 * v.wordSize

/-- The message with its padding, a whole number of blocks. -/
def pad (message : List UInt8) : List UInt8 :=
  let lengthSize := 2 * v.wordSize
  let zeros := (2 * v.blockSize - 1 - lengthSize - message.length % v.blockSize) % v.blockSize
  message ++ 0x80 :: List.replicate zeros 0 ++ bigEndian lengthSize (8 * message.length)

/-- The words that some bytes denote; a shorter rest is dropped. -/
def wordsOf (bytes : List UInt8) : List α :=
  (List.range (bytes.length / v.wordSize)).map fun i =>
    v.ofNat (ofBigEndian ((bytes.drop (v.wordSize * i)).take v.wordSize))

/-- Extends the message schedule by words that depend on the sixteen before them. -/
def extend : Nat → Array α → Array α
  | 0, w => w
  | k + 1, w =>
    let back (places : Nat) : α := w.getD (w.size - places) (v.ofNat 0)
    extend k (w.push (back 16 + v.spreadEarly (back 15) + back 7 + v.spreadLate (back 2)))

/-- One round with the sum of its message word and its constant. -/
def round (s : State α) (wk : α) : State α :=
  let choice := (s.e &&& s.f) ^^^ (~~~s.e &&& s.g)
  let t := s.h + v.spreadFifth s.e + choice + wk
  let majority := (s.a &&& s.b) ^^^ (s.a &&& s.c) ^^^ (s.b &&& s.c)
  ⟨t + v.spreadFirst s.a + majority, s.a, s.b, s.c, s.d + t, s.e, s.f, s.g⟩

/-- Mixes one block of sixteen words into the state. -/
def compress (state : State α) (block : List α) : State α :=
  let schedule := v.extend (v.constants.size - 16) block.toArray
  state.add ((schedule.zipWith (· + ·) v.constants).foldl v.round state)

/-- The digest of a message. -/
def hash (message : List UInt8) : List UInt8 :=
  let padded := v.pad message
  let blocks := (List.range (padded.length / v.blockSize)).map fun i =>
    v.wordsOf ((padded.drop (v.blockSize * i)).take v.blockSize)
  (blocks.foldl v.compress v.initial).toList.flatMap fun w => bigEndian v.wordSize (v.toNat w)

theorem length_hash (message : List UInt8) : (v.hash message).length = 8 * v.wordSize := by
  simp [hash, State.toList, length_bigEndian]
  omega

end Variant
end Paymaster.Digest.Sha2

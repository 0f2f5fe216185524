import Paymaster.Text.Quoted
/-!
# Hexadecimal text

Bytes are written as two lower-case digits each and read from digits of either case. Reading works
on the UTF-8 bytes of a text, so a position in an error counts bytes, and the offending byte is
shown as the character with that code.
-/

namespace Paymaster.Text.Hex

/-- The digit of a value below sixteen. -/
def digit (n : Nat) : Char :=
  if n < 10 then Char.ofNat (48 + n) else Char.ofNat (87 + n)

/-- The value of a digit byte of either case. -/
def value? (b : UInt8) : Option Nat :=
  if 48 ≤ b ∧ b ≤ 57 then some (b.toNat - 48)
  else if 65 ≤ b ∧ b ≤ 70 then some (b.toNat - 55)
  else if 97 ≤ b ∧ b ≤ 102 then some (b.toNat - 87)
  else none

/-- The two digits of a byte, high half first. -/
def encodeByte (b : UInt8) : List Char := [digit (b.toNat / 16), digit (b.toNat % 16)]

/-- The digits of some bytes. -/
def encode (bytes : List UInt8) : String := String.ofList (bytes.flatMap encodeByte)

/-- Why a text is not the hexadecimal form of any bytes. -/
inductive Error where
  /-- The text has an odd number of bytes. -/
  | oddLength
  | badDigit (byte : UInt8) (position : Nat)
  deriving DecidableEq, Repr

/-- The wording of a reading error. -/
def Error.message : Error → String
  | .oddLength => "Odd number of digits"
  | .badDigit b i => s!"Invalid character {quoteChar (Char.ofNat b.toNat)} at position {i}"

/-- Reads digit pairs; `position` is the place of the first byte. -/
def decodeFrom (position : Nat) : List UInt8 → Except Error (List UInt8)
  | [] => .ok []
  | [_] => .error .oddLength
  | a :: b :: rest =>
    match value? a, value? b with
    | none, _ => .error (.badDigit a position)
    | some _, none => .error (.badDigit b (position + 1))
    | some x, some y => (decodeFrom (position + 2) rest).map (UInt8.ofNat (16 * x + y) :: ·)

/-- Reads the bytes of a text of digit pairs. -/
def decodeBytes (bytes : List UInt8) : Except Error (List UInt8) :=
  if bytes.length % 2 = 1 then .error .oddLength else decodeFrom 0 bytes

/-- Reads a text of digit pairs. -/
def decode (s : String) : Except Error (List UInt8) := decodeBytes s.toUTF8.data.toList

end Paymaster.Text.Hex

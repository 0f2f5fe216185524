/-!
# UTF-8

Texts are kept in files and sent over the wire as bytes. Reading is strict where a text is required;
where any answer is better than none, each run of bytes that cannot be continued to a character
becomes the replacement character.
-/

namespace Paymaster.Text.Utf8

/-- The bytes of a text. -/
def encode (s : String) : List UInt8 := s.toUTF8.data.toList

/-- The text that some bytes encode, if they encode one. -/
def decode? (bytes : List UInt8) : Option String := String.fromUTF8? ⟨bytes.toArray⟩

theorem decode?_encode (s : String) : decode? (encode s) = some s := by
  have h : ByteArray.mk (encode s).toArray = s.toUTF8 := by simp [encode]
  rw [decode?, h, String.fromUTF8?, String.toUTF8_eq_toByteArray, dif_pos s.isValidUTF8]
  rfl

theorem encode_of_decode? {bytes : List UInt8} {s : String} (h : decode? bytes = some s) :
    encode s = bytes := by
  rw [decode?, String.fromUTF8?] at h
  split at h
  · cases h
    rw [encode, String.toUTF8_eq_toByteArray]
    simp [String.fromUTF8]
  · contradiction

/-- The character that stands for bytes that are no text. -/
def replacement : Char := '\ufffd'

/-- The byte continues a character. -/
def isTail (b : UInt8) : Bool := 0x80 ≤ b && b ≤ 0xbf

/-- How many bytes follow the first byte of a character, and between which bounds the second
lies. -/
def tailsOf (b : UInt8) : Option (Nat × UInt8 × UInt8) :=
  if b < 0x80 then some (0, 0, 0)
  else if 0xc2 ≤ b ∧ b ≤ 0xdf then some (1, 0x80, 0xbf)
  else if b = 0xe0 then some (2, 0xa0, 0xbf)
  else if b = 0xed then some (2, 0x80, 0x9f)
  else if 0xe1 ≤ b ∧ b ≤ 0xef then some (2, 0x80, 0xbf)
  else if b = 0xf0 then some (3, 0x90, 0xbf)
  else if 0xf1 ≤ b ∧ b ≤ 0xf3 then some (3, 0x80, 0xbf)
  else if b = 0xf4 then some (3, 0x80, 0x8f)
  else none

/-- The bytes, at most `tails`, by which a character can go on whose second byte is bounded. -/
def continuation (tails : Nat) (low high : UInt8) : List UInt8 → List UInt8
  | [] => []
  | b :: rest => if low ≤ b ∧ b ≤ high then b :: (rest.take (tails - 1)).takeWhile isTail else []

/-- The code point of a character from the payload bits of its bytes. -/
def assemble (first : UInt8) (tails : List UInt8) : Char :=
  let lead :=
    match tails.length with
    | 0 => first.toNat
    | 1 => first.toNat % 32
    | 2 => first.toNat % 16
    | _ => first.toNat % 8
  Char.ofNat (tails.foldl (fun n b => 64 * n + b.toNat % 64) lead)

/-- The first character of some bytes, and how many bytes after the first one it takes. -/
def firstChar (b : UInt8) (rest : List UInt8) : Char × Nat :=
  match tailsOf b with
  | none => (replacement, 0)
  | some (0, _, _) => (assemble b [], 0)
  | some (n, low, high) =>
    let tails := continuation n low high rest
    if tails.length = n then (assemble b tails, n) else (replacement, tails.length)

/-- The characters of some bytes, with replacements. -/
def lossyChars : List UInt8 → List Char
  | [] => []
  | b :: rest => (firstChar b rest).1 :: lossyChars (rest.drop (firstChar b rest).2)
termination_by bytes => bytes.length
decreasing_by simp only [List.length_drop, List.length_cons]; omega

/-- The text that some bytes encode, or nearly encode. -/
def decodeLossy (bytes : List UInt8) : String :=
  match decode? bytes with
  | some s => s
  | none => String.ofList (lossyChars bytes)

theorem decodeLossy_encode (s : String) : decodeLossy (encode s) = s := by
  simp [decodeLossy, decode?_encode]

end Paymaster.Text.Utf8

import Paymaster.Address
import Paymaster.Reserve.Record
/-!
# Numbers and words read back

A number that is written in decimal digits is read back from them, and a word is read back from its
hexadecimal digits. Both readers refuse much that the writers never write, so each lemma here says
that the reader accepts what was written and finds the same value.
-/

namespace Paymaster

/-! ## UTF-8 -/

namespace Text.Utf8

theorem encode_append (s t : String) : encode (s ++ t) = encode s ++ encode t := by
  simp [encode, String.toUTF8_eq_toByteArray]

theorem encode_ofList (cs : List Char) :
    encode (String.ofList cs) = cs.flatMap String.utf8EncodeChar := by
  simp [encode, String.toUTF8_eq_toByteArray, List.utf8Encode]

/-- The bytes of a text of ASCII characters are their codes. -/
theorem encode_ascii (cs : List Char) (h : ∀ c ∈ cs, c.toNat < 128) :
    encode (String.ofList cs) = cs.map Char.toUInt8 := by
  rw [encode_ofList]
  induction cs with
  | nil => rfl
  | cons c rest ih =>
    have hsize : c.utf8Size = 1 := by
      have hlt : c.val.toNat < 128 := h c (by simp)
      rw [Char.utf8Size_eq_one_iff, UInt32.le_iff_toNat_le]
      exact Nat.le_of_lt_succ hlt
    rw [List.flatMap_cons, List.map_cons, String.utf8EncodeChar_eq_singleton hsize,
      ih fun d hd => h d (List.mem_cons_of_mem c hd)]
    rfl

theorem utf8ByteSize_eq (s : String) : s.utf8ByteSize = (encode s).length := by
  rw [encode, String.toUTF8_eq_toByteArray, Array.length_toList]
  rfl

end Text.Utf8

/-! ## Decimal digits -/

namespace Text

theorem isDigit_of_mem_toDigits {n : Nat} {c : Char} (h : c ∈ Nat.toDigits 10 n) :
    isDigit c = true := by
  have hc := Nat.isDigit_of_mem_toDigits (by decide) (by decide) h
  simpa [isDigit, Char.isDigit, Char.le_def] using hc

theorem le_ofDigitChars (n : Nat) (cs : List Char) : n ≤ Nat.ofDigitChars 10 cs n := by
  induction cs generalizing n with
  | nil => simp
  | cons c rest ih =>
    rw [Nat.ofDigitChars_cons]
    exact Nat.le_trans (by omega) (ih _)

/-- Digits are read up to the end if the value they add up to lies below the bound. -/
theorem readDigits_eq {bound n : Nat} {cs : List Char} (hcs : ∀ c ∈ cs, isDigit c = true)
    (hlt : Nat.ofDigitChars 10 cs n < bound) :
    readDigits bound n cs = .ok (Nat.ofDigitChars 10 cs n) := by
  induction cs generalizing n with
  | nil => simp [readDigits]
  | cons c rest ih =>
    rw [Nat.ofDigitChars_cons] at hlt ⊢
    have hm : 10 * n + (c.toNat - 48) < bound := Nat.lt_of_le_of_lt (le_ofDigitChars _ rest) hlt
    rw [readDigits, if_pos (hcs c (by simp))]
    simp only [if_pos hm]
    exact ih (fun d hd => hcs d (List.mem_cons_of_mem c hd)) hlt

theorem readUnsigned_toString {bound n : Nat} (h : n < bound) :
    readUnsigned bound (toString n) = .ok n := by
  have hread : readDigits bound 0 (Nat.toDigits 10 n) = .ok n := by
    rw [readDigits_eq (fun _ => isDigit_of_mem_toDigits), Nat.ofDigitChars_ten_toDigits]
    rwa [Nat.ofDigitChars_ten_toDigits]
  rw [readUnsigned, Nat.toString_eq_ofList_toDigits, String.toList_ofList]
  split
  · exact absurd ‹_› Nat.toDigits_ne_nil
  · rename_i heq
    have := isDigit_of_mem_toDigits (n := n) (c := '+') (by simp [heq])
    exact absurd this (by decide)
  · exact hread

end Text

/-- A decimal string below the bound is read back. -/
theorem Reserve.readDecimal_toString {bound n : Nat} (field : String) (h : n < bound) :
    readDecimal bound field (toString n) = .ok n := by
  have hne : (toString n).isEmpty = false := by
    rw [Nat.toString_eq_ofList_toDigits]
    simp [Nat.toDigits_ne_nil]
  have hall : (toString n).toList.all Text.isDigit = true := by
    rw [Nat.toString_eq_ofList_toDigits, String.toList_ofList, List.all_eq_true]
    exact fun _ => Text.isDigit_of_mem_toDigits
  rw [readDecimal, Text.readUnsigned_toString h, if_neg (by rw [hne, hall]; decide)]

/-! ## Hexadecimal digits -/

namespace Text.Hex

theorem value?_digit {n : Nat} (h : n < 16) : value? (digit n).toUInt8 = some n := by
  revert n
  decide

theorem toNat_digit_lt {n : Nat} (h : n < 16) : (digit n).toNat < 128 := by
  revert n
  decide

theorem isBlank_digit {n : Nat} (h : n < 16) : isBlank (digit n) = false := by
  revert n
  decide

theorem exists_of_mem_encode {bytes : List UInt8} {c : Char}
    (h : c ∈ bytes.flatMap encodeByte) : ∃ n < 16, c = digit n := by
  obtain ⟨b, -, hc⟩ := List.mem_flatMap.mp h
  have hb := b.toNat_lt
  rcases List.mem_cons.mp hc with rfl | hc
  · exact ⟨b.toNat / 16, by omega, rfl⟩
  · exact ⟨b.toNat % 16, by omega, List.mem_singleton.mp hc⟩

theorem length_flatMap_encodeByte (bytes : List UInt8) :
    (bytes.flatMap encodeByte).length = 2 * bytes.length := by
  induction bytes with
  | nil => rfl
  | cons b rest ih =>
    rw [List.flatMap_cons, List.length_append, ih, encodeByte, List.length_cons]
    simp
    omega

theorem decodeFrom_encode (position : Nat) (bytes : List UInt8) :
    decodeFrom position ((bytes.flatMap encodeByte).map Char.toUInt8) = .ok bytes := by
  induction bytes generalizing position with
  | nil => rfl
  | cons b rest ih =>
    have hb := b.toNat_lt
    have hvalue : 16 * (b.toNat / 16) + b.toNat % 16 = b.toNat := by omega
    have hhigh : value? (digit (b.toNat / 16)).toUInt8 = some (b.toNat / 16) :=
      value?_digit (by omega)
    have hlow : value? (digit (b.toNat % 16)).toUInt8 = some (b.toNat % 16) :=
      value?_digit (by omega)
    simp [encodeByte, decodeFrom, hhigh, hlow, hvalue, ih, Except.map]

/-- The bytes that digits were written for are read back from them. -/
theorem decode_encode (bytes : List UInt8) : decode (encode bytes) = .ok bytes := by
  have hascii : ∀ c ∈ bytes.flatMap encodeByte, c.toNat < 128 := by
    intro c hc
    obtain ⟨n, hn, rfl⟩ := exists_of_mem_encode hc
    exact toNat_digit_lt hn
  have hbytes : (encode bytes).toUTF8.data.toList = (bytes.flatMap encodeByte).map Char.toUInt8 :=
    Utf8.encode_ascii _ hascii
  rw [decode, hbytes, decodeBytes, if_neg, decodeFrom_encode]
  rw [List.length_map, length_flatMap_encodeByte]
  omega

end Text.Hex

/-! ## Words -/

namespace Word

theorem toList_digits (w : Word) : w.digits.toList = w.toBytes.flatMap Text.Hex.encodeByte := by
  rw [digits, Text.Hex.encode, String.toList_ofList]

theorem length_digits (w : Word) : w.digits.toList.length = 64 := by
  rw [toList_digits, Text.Hex.length_flatMap_encodeByte, length_toBytes]

theorem exists_of_mem_digits {w : Word} {c : Char} (h : c ∈ w.digits.toList) :
    ∃ n < 16, c = Text.Hex.digit n :=
  Text.Hex.exists_of_mem_encode (toList_digits w ▸ h)

theorem encode_digits (w : Word) :
    Text.Utf8.encode w.digits = w.digits.toList.map Char.toUInt8 := by
  have h := Text.Utf8.encode_ascii w.digits.toList fun c hc => by
    obtain ⟨n, hn, rfl⟩ := exists_of_mem_digits hc
    exact Text.Hex.toNat_digit_lt hn
  rwa [String.ofList_toList] at h

theorem utf8ByteSize_digits (w : Word) : w.digits.utf8ByteSize = 64 := by
  rw [Text.Utf8.utf8ByteSize_eq, encode_digits, List.length_map, length_digits]

theorem toList_toHex (w : Word) : w.toHex.toList = '0' :: 'x' :: w.digits.toList := by
  simp [toHex]

end Word

namespace Text

/-- A text with no blank at either end is not trimmed. -/
theorem trimChars_eq {cs : List Char} (hhead : ∀ c, cs.head? = some c → isBlank c = false)
    (hlast : ∀ c, cs.getLast? = some c → isBlank c = false) : trimChars cs = cs := by
  have hfront {ds : List Char} (h : ∀ c, ds.head? = some c → isBlank c = false) :
      ds.dropWhile isBlank = ds := by
    cases ds with
    | nil => rfl
    | cons d ds => rw [List.dropWhile_cons_of_neg (by simp [h d rfl])]
  rw [trimChars, hfront hhead, hfront (by simpa using hlast), List.reverse_reverse]

end Text

theorem Address.ofDigits_digits (w : Word) : Address.ofDigits w.digits.toList = .ok ⟨w⟩ := by
  have hpad : List.replicate (64 - w.digits.toList.length) '0' ++ w.digits.toList
      = w.digits.toList := by
    simp [Word.length_digits]
  rw [Address.ofDigits]
  simp only [String.ofList_toList, Word.utf8ByteSize_digits, hpad]
  rw [if_neg (by decide), if_neg (by decide), Word.digits, Text.Hex.decode_encode]
  simp [Word.ofBytes_toBytes]

/-- An address is read back from its full notation. -/
theorem Address.ofText_toHex (a : Address) : ofText a.toHex = .ok a := by
  have hblank : ∀ c ∈ a.word.toHex.toList, Text.isBlank c = false := by
    rw [Word.toList_toHex]
    intro c hc
    rcases List.mem_cons.mp hc with rfl | hc
    · decide
    rcases List.mem_cons.mp hc with rfl | hc
    · decide
    · obtain ⟨n, hn, rfl⟩ := Word.exists_of_mem_digits hc
      exact Text.Hex.isBlank_digit hn
  have htrim : Text.trimChars a.word.toHex.toList = '0' :: 'x' :: a.word.digits.toList := by
    rw [Text.trimChars_eq (fun c h => hblank c (List.mem_of_mem_head? h))
      (fun c h => hblank c (List.mem_of_getLast? h)), Word.toList_toHex]
  rw [ofText, toHex, htrim]
  exact ofDigits_digits a.word

theorem Word.ofText_toHex (w : Word) : Word.ofText w.toHex = .ok w := by
  have h := Address.ofText_toHex ⟨w⟩
  rw [Address.toHex] at h
  rw [Word.ofText, h]
  rfl

theorem Reserve.readWord_toHex (field : String) (w : Word) :
    readWord field w.toHex = .ok w := by
  have hsize : w.toHex.utf8ByteSize = writtenWordLength := by
    rw [Word.toHex, String.utf8ByteSize_append, Word.utf8ByteSize_digits]
    rfl
  have hstart : (Text.stripPrefix? "0x" w.toHex).isNone = false := by
    simp [Text.stripPrefix?, Word.toList_toHex]
  rw [readWord, if_neg (by simp [hsize, hstart]), Word.ofText_toHex]

end Paymaster

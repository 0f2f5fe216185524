import Mathlib.Data.List.Induction
import Mathlib.Data.List.TakeWhile
import Paymaster.Proofs.Text.ReadBack
/-!
# What the readers of numbers accept

A decimal number is a run of digits below a bound; an address is a marker and up to 64 hexadecimal
digits. The readers check this on the way, the one number by number and the other byte by byte, so
each lemma here says for which texts a reader succeeds and what it finds.
-/

namespace Paymaster

namespace Text

/-! ## Blanks at the ends -/

section Trim

variable {front back middle cs : List Char}

/-- What is left of a text between blanks is the part between them. -/
theorem trimChars_append (hfront : ∀ c ∈ front, isBlank c = true)
    (hback : ∀ c ∈ back, isBlank c = true)
    (hhead : ∀ c, middle.head? = some c → isBlank c = false)
    (hlast : ∀ c, middle.getLast? = some c → isBlank c = false) (hne : middle ≠ []) :
    trimChars (front ++ (middle ++ back)) = middle := by
  have hdrop : (front ++ (middle ++ back)).dropWhile isBlank = middle ++ back := by
    rw [List.dropWhile_append_of_pos hfront]
    cases middle with
    | nil => exact absurd rfl hne
    | cons c rest =>
      have hc : ¬isBlank c = true := by simp [hhead c rfl]
      rw [List.cons_append, List.dropWhile_cons_of_neg hc]
  have hdrop' : (middle ++ back).reverse.dropWhile isBlank = middle.reverse := by
    rw [List.reverse_append, List.dropWhile_append_of_pos (by simpa using hback)]
    cases hback' : middle.reverse with
    | nil => rfl
    | cons c rest =>
      have hc : isBlank c = false :=
        hlast c (by rw [← List.head?_reverse, hback', List.head?_cons])
      rw [List.dropWhile_cons_of_neg (by simp [hc])]
  rw [trimChars, hdrop, hdrop', List.reverse_reverse]

/-- A text is what is left of it between blanks. -/
theorem exists_trimChars (cs : List Char) : ∃ front back, cs = front ++ (trimChars cs ++ back) ∧
    (∀ c ∈ front, isBlank c = true) ∧ ∀ c ∈ back, isBlank c = true := by
  refine ⟨cs.takeWhile isBlank, ((cs.dropWhile isBlank).reverse.takeWhile isBlank).reverse,
    ?_, ?_, ?_⟩
  · rw [trimChars, ← List.reverse_append, List.takeWhile_append_dropWhile, List.reverse_reverse,
      List.takeWhile_append_dropWhile]
  · intro c hc
    exact List.mem_takeWhile_imp hc
  · intro c hc
    exact List.mem_takeWhile_imp (List.mem_reverse.mp hc)

end Trim

/-! ## Decimal digits -/

theorem readDigits_eq_ok {bound n m : Nat} {cs : List Char} (hn : n < bound) :
    readDigits bound n cs = .ok m ↔
      (∀ c ∈ cs, isDigit c = true) ∧ Nat.ofDigitChars 10 cs n = m ∧ m < bound := by
  constructor
  · intro h
    induction cs generalizing n with
    | nil =>
      cases h
      exact ⟨by simp, by simp, hn⟩
    | cons c rest ih =>
      rw [readDigits] at h
      split at h
      · rename_i hc
        simp only at h
        split at h
        · rename_i hlt
          obtain ⟨hrest, hvalue, hm⟩ := ih hlt h
          refine ⟨?_, ?_, hm⟩
          · intro d hd
            rcases List.mem_cons.mp hd with rfl | hd
            · exact hc
            · exact hrest d hd
          · rw [Nat.ofDigitChars_cons]
            exact hvalue
        · cases h
      · cases h
  · rintro ⟨hcs, rfl, hlt⟩
    exact readDigits_eq hcs hlt

theorem readUnsigned_eq_ok {bound n : Nat} {s : String} (hne : s.toList ≠ [])
    (hs : ∀ c ∈ s.toList, isDigit c = true) :
    readUnsigned bound s = .ok n ↔ digitsValue s.toList = n ∧ n < bound := by
  have hread : readUnsigned bound s = readDigits bound 0 s.toList := by
    rw [readUnsigned]
    split
    · exact absurd ‹_› hne
    · rename_i hplus
      exact absurd (hs '+' (by simp [hplus])) (by decide)
    · rfl
  have hvalue : Nat.ofDigitChars 10 s.toList 0 = digitsValue s.toList := rfl
  rw [hread]
  by_cases hbound : 0 < bound
  · rw [readDigits_eq_ok hbound, hvalue]
    exact ⟨fun h => h.2, fun h => ⟨hs, h⟩⟩
  · constructor
    · intro h
      cases hcs : s.toList with
      | nil => exact absurd hcs hne
      | cons c rest =>
        rw [hcs, readDigits, if_pos (hs c (by simp [hcs]))] at h
        simp only at h
        rw [if_neg (by omega)] at h
        cases h
    · rintro ⟨-, hlt⟩
      omega

/-! ## Hexadecimal digits -/

namespace Hex

/-- The character is a hexadecimal digit of either case. -/
def isDigit (c : Char) : Bool :=
  ('0' ≤ c && c ≤ '9') || ('A' ≤ c && c ≤ 'F') || ('a' ≤ c && c ≤ 'f')

/-- The value of a digit. -/
def digitValue (c : Char) : Nat :=
  if c ≤ '9' then c.toNat - 48 else if c ≤ 'F' then c.toNat - 55 else c.toNat - 87

/-- The value of a run of digits, the most significant first. -/
def digitsValue (cs : List Char) : Nat := cs.foldl (fun n c => 16 * n + digitValue c) 0

variable {c : Char} {cs : List Char} {raw : List UInt8}

theorem isDigit_iff : isDigit c = true ↔
    (48 ≤ c.toNat ∧ c.toNat ≤ 57) ∨ (65 ≤ c.toNat ∧ c.toNat ≤ 70) ∨
      (97 ≤ c.toNat ∧ c.toNat ≤ 102) := by
  simp [isDigit, Char.le_def, UInt32.le_iff_toNat_le, or_assoc]

theorem toNat_lt_of_isDigit (h : isDigit c = true) : c.toNat < 128 := by
  have hc := isDigit_iff.mp h
  omega

theorem isBlank_of_isDigit (h : isDigit c = true) : isBlank c = false := by
  have hc := isDigit_iff.mp h
  rw [Bool.eq_false_iff]
  intro hblank
  simp only [isBlank, Bool.or_eq_true, Bool.and_eq_true, decide_eq_true_eq, beq_iff_eq] at hblank
  omega

/-- A byte has a value if it is the code of a digit. -/
theorem value?_eq (b : UInt8) : value? b =
    if 48 ≤ b.toNat ∧ b.toNat ≤ 57 then some (b.toNat - 48)
    else if 65 ≤ b.toNat ∧ b.toNat ≤ 70 then some (b.toNat - 55)
    else if 97 ≤ b.toNat ∧ b.toNat ≤ 102 then some (b.toNat - 87)
    else none := by
  simp [value?, UInt8.le_iff_toNat_le]

theorem value?_of_isDigit (h : isDigit c = true) :
    value? c.toUInt8 = some (digitValue c) ∧ digitValue c < 16 := by
  have hc := isDigit_iff.mp h
  have hbyte : c.toUInt8.toNat = c.toNat := by
    have hmod : c.toUInt8.toNat = c.toNat % 256 := rfl
    omega
  have hvalue : digitValue c = if c.toNat ≤ 57 then c.toNat - 48
      else if c.toNat ≤ 70 then c.toNat - 55 else c.toNat - 87 := by
    simp [digitValue, Char.le_def, UInt32.le_iff_toNat_le]
  rw [value?_eq, hbyte, hvalue]
  rcases hc with hc | hc | hc
  · rw [if_pos hc, if_pos hc.2]
    exact ⟨rfl, by omega⟩
  · rw [if_neg (by omega), if_pos hc, if_neg (by omega), if_pos hc.2]
    exact ⟨rfl, by omega⟩
  · rw [if_neg (by omega), if_neg (by omega), if_pos hc, if_neg (by omega), if_neg (by omega)]
    exact ⟨rfl, by omega⟩

/-- A character that is no digit has a byte that is none. -/
theorem exists_byte_of_not_isDigit (h : isDigit c = false) :
    ∃ b ∈ String.utf8EncodeChar c, value? b = none := by
  have hc : ¬isDigit c = true := by simp [h]
  rw [isDigit_iff] at hc
  have hnone : ∀ n, ¬((48 ≤ n ∧ n ≤ 57) ∨ (65 ≤ n ∧ n ≤ 70) ∨ (97 ≤ n ∧ n ≤ 102)) → n < 256 →
      value? (UInt8.ofNat n) = none := by
    intro n hn hlt
    have htoNat : (UInt8.ofNat n).toNat = n := by
      rw [UInt8.toNat_ofNat']
      exact Nat.mod_eq_of_lt hlt
    rw [value?_eq, htoNat, if_neg (by omega), if_neg (by omega), if_neg (by omega)]
  -- beyond ASCII the first byte is too large for a digit
  have hval : c.val.toNat = c.toNat := rfl
  rw [String.utf8EncodeChar, hval]
  split_ifs
  · exact ⟨_, List.mem_cons_self, hnone _ hc (by omega)⟩
  · exact ⟨_, List.mem_cons_self, hnone _ (by omega) (by omega)⟩
  · exact ⟨_, List.mem_cons_self, hnone _ (by omega) (by omega)⟩
  · exact ⟨_, List.mem_cons_self, hnone _ (by omega) (by omega)⟩

theorem digits_of_decodeFrom {position : Nat} {bytes : List UInt8}
    (h : decodeFrom position bytes = .ok raw) : ∀ b ∈ bytes, value? b ≠ none := by
  fun_induction decodeFrom position bytes generalizing raw with
  | case1 => simp
  | case2 => cases h
  | case3 => cases h
  | case4 => cases h
  | case5 position a b rest x y hlow hhigh ih =>
    cases hrest : decodeFrom (position + 2) rest with
    | error why =>
      rw [hrest] at h
      cases h
    | ok more =>
      intro d hd
      rcases List.mem_cons.mp hd with rfl | hd
      · simp [hhigh]
      rcases List.mem_cons.mp hd with rfl | hd
      · simp [hlow]
      · exact ih hrest d hd

theorem length_of_decodeFrom {position : Nat} {bytes : List UInt8}
    (h : decodeFrom position bytes = .ok raw) : bytes.length = 2 * raw.length := by
  fun_induction decodeFrom position bytes generalizing raw with
  | case1 =>
    cases h
    rfl
  | case2 => cases h
  | case3 => cases h
  | case4 => cases h
  | case5 position a b rest x y hlow hhigh ih =>
    cases hrest : decodeFrom (position + 2) rest with
    | error why =>
      rw [hrest] at h
      cases h
    | ok more =>
      rw [hrest] at h
      cases h
      have hlength := ih hrest
      simp only [List.length_cons]
      omega

/-- Pairs of digits are read as bytes of the same value. -/
theorem decodeFrom_digits (position n : Nat) (hcs : ∀ c ∈ cs, isDigit c = true)
    (heven : cs.length % 2 = 0) : ∃ raw, decodeFrom position (cs.map Char.toUInt8) = .ok raw ∧
      raw.foldl (fun n b => 256 * n + b.toNat) n = cs.foldl (fun n c => 16 * n + digitValue c) n := by
  induction cs using List.twoStepInduction generalizing position n with
  | nil => exact ⟨[], rfl, rfl⟩
  | singleton c => simp at heven
  | cons_cons a b rest ih _ =>
    obtain ⟨ha, hlt⟩ := value?_of_isDigit (hcs a (by simp))
    obtain ⟨hb, hlt'⟩ := value?_of_isDigit (hcs b (by simp))
    have hrest : ∀ c ∈ rest, isDigit c = true := fun c hc => hcs c (by simp [hc])
    have heven' : rest.length % 2 = 0 := by
      rw [List.length_cons, List.length_cons] at heven
      omega
    obtain ⟨raw, hread, hvalue⟩ :=
      ih (position + 2) (16 * (16 * n + digitValue a) + digitValue b) hrest heven'
    refine ⟨UInt8.ofNat (16 * digitValue a + digitValue b) :: raw, ?_, ?_⟩
    · simp [decodeFrom, ha, hb, hread, Except.map]
    · have hbyte : (UInt8.ofNat (16 * digitValue a + digitValue b)).toNat =
          16 * digitValue a + digitValue b := by
        rw [UInt8.toNat_ofNat']
        exact Nat.mod_eq_of_lt (by omega)
      have hsum : 256 * n + (16 * digitValue a + digitValue b) =
          16 * (16 * n + digitValue a) + digitValue b := by omega
      rw [List.foldl_cons, List.foldl_cons, List.foldl_cons, hbyte, hsum]
      exact hvalue

/-- A text of an even number of digits is read, as bytes of the same value. -/
theorem decode_digits (hcs : ∀ c ∈ cs, isDigit c = true) (heven : cs.length % 2 = 0) :
    ∃ raw, decode (String.ofList cs) = .ok raw ∧ ofBigEndian raw = digitsValue cs := by
  have hbytes : (String.ofList cs).toUTF8.data.toList = cs.map Char.toUInt8 :=
    Utf8.encode_ascii cs fun c hc => toNat_lt_of_isDigit (hcs c hc)
  obtain ⟨raw, hread, hvalue⟩ := decodeFrom_digits 0 0 hcs heven
  refine ⟨raw, ?_, hvalue⟩
  rw [decode, hbytes, decodeBytes, if_neg (by rw [List.length_map]; omega), hread]

/-- Nothing but digits is read. -/
theorem isDigit_of_decode (h : decode (String.ofList cs) = .ok raw) :
    ∀ c ∈ cs, isDigit c = true := by
  intro c hc
  by_contra hnot
  obtain ⟨b, hb, hnone⟩ := exists_byte_of_not_isDigit (Bool.eq_false_iff.mpr hnot)
  have hbytes : (String.ofList cs).toUTF8.data.toList = cs.flatMap String.utf8EncodeChar :=
    Utf8.encode_ofList cs
  rw [decode, hbytes, decodeBytes] at h
  split_ifs at h
  exact digits_of_decodeFrom h b (List.mem_flatMap.mpr ⟨c, hc, hb⟩) hnone

/-- Two digits are read as one byte. -/
theorem length_of_decode (h : decode (String.ofList cs) = .ok raw) : cs.length = 2 * raw.length := by
  have hbytes : (String.ofList cs).toUTF8.data.toList = cs.map Char.toUInt8 :=
    Utf8.encode_ascii cs fun c hc => toNat_lt_of_isDigit (isDigit_of_decode h c hc)
  rw [decode, hbytes, decodeBytes] at h
  split at h
  · cases h
  · rw [← List.length_map Char.toUInt8]
    exact length_of_decodeFrom h

theorem digitsValue_zeros (n : Nat) (cs : List Char) :
    digitsValue (List.replicate n '0' ++ cs) = digitsValue cs := by
  induction n with
  | zero => rfl
  | succ n ih =>
    rw [List.replicate_succ, List.cons_append, digitsValue, List.foldl_cons]
    exact ih

end Hex
end Text

/-! ## Addresses and words -/

section Address

variable {s : String} {a : Address} {digits : List Char}

/-- A text has no fewer bytes than characters. -/
theorem length_le_utf8ByteSize (s : String) : s.toList.length ≤ s.utf8ByteSize := by
  have hchars : ∀ cs : List Char, cs.length ≤ (cs.flatMap String.utf8EncodeChar).length := by
    intro cs
    induction cs with
    | nil => simp
    | cons c rest ih =>
      have hpos := c.utf8Size_pos
      rw [List.flatMap_cons, List.length_append, List.length_cons, String.length_utf8EncodeChar]
      omega
  have hbytes := hchars s.toList
  rwa [← Text.Utf8.encode_ofList, String.ofList_toList, ← Text.Utf8.utf8ByteSize_eq] at hbytes

theorem utf8ByteSize_digits (h : ∀ c ∈ digits, Text.Hex.isDigit c = true) :
    (String.ofList digits).utf8ByteSize = digits.length := by
  rw [Text.Utf8.utf8ByteSize_eq,
    Text.Utf8.encode_ascii digits fun c hc => Text.Hex.toNat_lt_of_isDigit (h c hc), List.length_map]

/-- Digits that are filled up to 64 characters are read as 32 bytes of the same value. -/
theorem decode_padded (hlength : digits.length ≤ 64)
    (hdigits : ∀ c ∈ digits, Text.Hex.isDigit c = true) : ∃ raw,
      Text.Hex.decode (String.ofList (List.replicate (64 - digits.length) '0' ++ digits)) = .ok raw ∧
        Word.ofBytes raw = BitVec.ofNat 256 (Text.Hex.digitsValue digits) := by
  have hpadded : ∀ c ∈ List.replicate (64 - digits.length) '0' ++ digits,
      Text.Hex.isDigit c = true := by
    intro c hc
    rcases List.mem_append.mp hc with hc | hc
    · rw [List.eq_of_mem_replicate hc]
      decide
    · exact hdigits c hc
  have heven : (List.replicate (64 - digits.length) '0' ++ digits).length % 2 = 0 := by
    rw [List.length_append, List.length_replicate]
    omega
  obtain ⟨raw, hread, hvalue⟩ := Text.Hex.decode_digits hpadded heven
  refine ⟨raw, hread, ?_⟩
  rw [Word.ofBytes, hvalue, Text.Hex.digitsValue_zeros]

/-- Up to 64 digits denote the address of their value, and nothing else denotes one. -/
theorem Address.ofDigits_eq_ok : ofDigits digits = .ok a ↔ digits ≠ [] ∧ digits.length ≤ 64 ∧
    (∀ c ∈ digits, Text.Hex.isDigit c = true) ∧
      a = ⟨BitVec.ofNat 256 (Text.Hex.digitsValue digits)⟩ := by
  constructor
  · intro h
    rw [ofDigits] at h
    simp only at h
    split_ifs at h with hempty hlong
    split at h
    · rename_i raw hread
      cases h
      have hdigits : ∀ c ∈ digits, Text.Hex.isDigit c = true := fun c hc =>
        Text.Hex.isDigit_of_decode hread c (List.mem_append_right _ hc)
      rw [utf8ByteSize_digits hdigits] at hempty hlong
      have hlength : digits.length ≤ 64 := by omega
      obtain ⟨raw', hread', hvalue⟩ := decode_padded hlength hdigits
      rw [hread] at hread'
      cases hread'
      refine ⟨?_, hlength, hdigits, by rw [hvalue]⟩
      rintro rfl
      exact hempty rfl
    · cases h
  · rintro ⟨hne, hlength, hdigits, rfl⟩
    obtain ⟨raw, hread, hvalue⟩ := decode_padded hlength hdigits
    have hpos : digits.length ≠ 0 := fun hzero => hne (List.eq_nil_of_length_eq_zero hzero)
    rw [ofDigits]
    simp only [utf8ByteSize_digits hdigits]
    rw [if_neg hpos, if_neg (by omega), hread]
    simp only [hvalue]

/-- An address is written behind a marker, with blanks around it or none. -/
theorem Address.ofText_eq_ok : ofText s = .ok a ↔ ∃ mark digits,
    Text.trimChars s.toList = '0' :: mark :: digits ∧ (mark = 'x' ∨ mark = 'X') ∧
      ofDigits digits = .ok a := by
  rw [ofText]
  constructor
  · intro h
    split at h
    · cases h
    · rename_i digits htrim
      exact ⟨'x', digits, htrim, .inl rfl, h⟩
    · rename_i digits htrim
      exact ⟨'X', digits, htrim, .inr rfl, h⟩
    · cases h
  · rintro ⟨mark, digits, htrim, rfl | rfl, h⟩
    · rw [htrim]
      exact h
    · rw [htrim]
      exact h

end Address

end Paymaster

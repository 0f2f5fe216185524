import Mathlib.Algebra.GroupWithZero.Nat
import Paymaster.Proofs.Json.ReadBack
import Paymaster.Proofs.Text.Accepted
/-!
# Texts of addresses

An address is written as a marker and up to 64 hexadecimal digits. The reader never looks at single
characters: it counts bytes, fills up characters, and leaves it to the reader of digit pairs to refuse
all else. Here the outcome is told by the characters of the text, for every text: each text has
exactly one reading, and the outcome is that of the reading.

The bytes that the digits stand for go into a field of 32. Characters of several bytes make the
filled-up text longer than 64 bytes, so it has to be shown that whatever is read fits: a reader that
stops short when it does not is the same reader.
-/

namespace Paymaster

/-- The word that bytes denote, if there are exactly 32 of them. -/
def Word.ofBytes? (bytes : List UInt8) : Option Word :=
  if bytes.length = 32 then some (ofBytes bytes) else none

namespace Address

variable {s : String} {t rest digits : List Char} {a : Address}

/-- Reads the digits behind a marker; there is no answer if their bytes do not fill the field of an
address. -/
def ofDigits? (digits : List Char) : Option (Except AddressError Address) :=
  let bytes := (String.ofList digits).utf8ByteSize
  if bytes = 0 then some (.error .empty)
  else if 64 < bytes then some (.error (.tooLong bytes))
  else
    let padded := List.replicate (64 - digits.length) '0' ++ digits
    match Text.Hex.decode (String.ofList padded) with
    | .ok raw => (Word.ofBytes? raw).map fun word => .ok ⟨word⟩
    | .error e => some (.error (.invalidHex e))

/-- Reads an address; there is no answer if the bytes that are read do not fill its field. -/
def ofText? (s : String) : Option (Except AddressError Address) :=
  match Text.trimChars s.toList with
  | [] => some (.error .empty)
  | '0' :: 'x' :: digits => ofDigits? digits
  | '0' :: 'X' :: digits => ofDigits? digits
  | _ => some (.error .missingMarker)

/-- A text without blanks at its ends is a marker and the rest behind it. -/
def Marked (t rest : List Char) : Prop := ∃ mark, (mark = 'x' ∨ mark = 'X') ∧ t = '0' :: mark :: rest

/-- The bytes that some characters take. -/
abbrev byteCount (cs : List Char) : Nat := (String.ofList cs).utf8ByteSize

/-- What a text without blanks at its ends is read as. -/
inductive Reading (t : List Char) : Except AddressError Address → Prop
  | blank (h : t = []) : Reading t (.error .empty)
  | unmarked (hne : t ≠ []) (h : ∀ rest, ¬Marked t rest) : Reading t (.error .missingMarker)
  | bare (h : Marked t []) : Reading t (.error .empty)
  | long {rest : List Char} (h : Marked t rest) (hlong : 64 < byteCount rest) :
      Reading t (.error (.tooLong (byteCount rest)))
  | foreign {rest : List Char} {why : Text.Hex.Error} (h : Marked t rest) (hne : rest ≠ [])
      (hshort : byteCount rest ≤ 64) (hforeign : ∃ c ∈ rest, Text.Hex.isDigit c = false) :
      Reading t (.error (.invalidHex why))
  | digits {rest : List Char} (h : Marked t rest) (hne : rest ≠ []) (hlength : rest.length ≤ 64)
      (hdigits : ∀ c ∈ rest, Text.Hex.isDigit c = true) :
      Reading t (.ok ⟨BitVec.ofNat 256 (Text.Hex.digitsValue rest)⟩)

theorem Marked.ne_nil (h : Marked t rest) : t ≠ [] := by
  obtain ⟨mark, -, rfl⟩ := h
  exact List.cons_ne_nil _ _

/-- What follows a marker is determined by the text. -/
theorem Marked.iff (h : Marked t rest) {rest' : List Char} : Marked t rest' ↔ rest' = rest := by
  constructor
  · rintro ⟨mark', -, heq⟩
    obtain ⟨mark, -, rfl⟩ := h
    simp only [List.cons.injEq] at heq
    exact heq.2.2.symm
  · rintro rfl
    exact h

theorem length_le_byteCount (cs : List Char) : cs.length ≤ byteCount cs := by
  have hle := length_le_utf8ByteSize (String.ofList cs)
  rwa [String.toList_ofList] at hle

theorem byteCount_eq_zero : byteCount digits = 0 ↔ digits = [] := by
  constructor
  · intro h
    exact List.eq_nil_of_length_eq_zero (Nat.le_zero.mp (h ▸ length_le_byteCount digits))
  · rintro rfl
    rfl

theorem ne_nil_of_long (h : 64 < byteCount digits) : digits ≠ [] := fun hempty => by
  have hzero := byteCount_eq_zero.mpr hempty
  omega

/-! ## One reading for each text -/

/-- Behind a marker, the outcome is decided by the number of bytes and by the digits. -/
theorem reading_ofDigits (h : Marked t digits) : Reading t (ofDigits digits) := by
  by_cases hempty : digits = []
  · subst hempty
    exact .bare h
  have hpos : byteCount digits ≠ 0 := fun hzero => hempty (byteCount_eq_zero.mp hzero)
  by_cases hlong : 64 < byteCount digits
  · have heq : ofDigits digits = .error (.tooLong (byteCount digits)) := by
      rw [ofDigits]
      simp only
      rw [if_neg hpos, if_pos hlong]
    rw [heq]
    exact .long h hlong
  · cases hread : ofDigits digits with
    | ok a =>
      obtain ⟨hne, hlength, hdigits, rfl⟩ := ofDigits_eq_ok.mp hread
      exact .digits h hne hlength hdigits
    | error why =>
      -- digits of any number would have been read, so there is something else among them
      have hlength : digits.length ≤ 64 :=
        (length_le_byteCount digits).trans (Nat.le_of_not_lt hlong)
      have hforeign : ∃ c ∈ digits, Text.Hex.isDigit c = false := by
        by_contra hnone
        have hdigits : ∀ c ∈ digits, Text.Hex.isDigit c = true := fun c hc =>
          Bool.of_not_eq_false fun hfalse => hnone ⟨c, hc, hfalse⟩
        have hok := ofDigits_eq_ok.mpr ⟨hempty, hlength, hdigits, rfl⟩
        rw [hread] at hok
        cases hok
      rw [ofDigits] at hread
      simp only at hread
      rw [if_neg hpos, if_neg hlong] at hread
      split at hread
      · cases hread
      · cases hread
        exact .foreign h hempty (Nat.le_of_not_lt hlong) hforeign

theorem reading_ofText (s : String) : Reading (Text.trimChars s.toList) (ofText s) := by
  rw [ofText]
  split
  · rename_i htrim
    exact .blank htrim
  · rename_i digits htrim
    exact reading_ofDigits ⟨'x', .inl rfl, htrim⟩
  · rename_i digits htrim
    exact reading_ofDigits ⟨'X', .inr rfl, htrim⟩
  · rename_i hne hsmall hlarge
    refine .unmarked hne ?_
    rintro rest ⟨mark, rfl | rfl, htrim⟩
    · exact hsmall rest htrim
    · exact hlarge rest htrim

/-! ## The number of the digits -/

theorem digitsValue_lt (h : ∀ c ∈ digits, Text.Hex.isDigit c = true) :
    Text.Hex.digitsValue digits < 16 ^ digits.length := by
  induction digits using List.reverseRecOn with
  | nil => decide
  | append_singleton digits c ih =>
    have hc := (Text.Hex.value?_of_isDigit (h c (by simp))).2
    have hrest := ih fun d hd => h d (List.mem_append_left _ hd)
    rw [Text.Hex.digitsValue, List.foldl_append, List.length_append, List.length_singleton,
      Nat.pow_succ]
    simp only [List.foldl_cons, List.foldl_nil]
    rw [Text.Hex.digitsValue] at hrest
    omega

/-- The 32 bytes of an address denote its number. -/
theorem ofBigEndian_toBytes (w : Word) : ofBigEndian w.toBytes = w.toNat := by
  have hw : w.toNat < 1 <<< (8 * 32) := by
    rw [Nat.one_shiftLeft]
    exact w.isLt
  exact ofBigEndian_bigEndian 32 w.toNat hw

/-- Up to 64 digits denote the address whose bytes have their value. -/
theorem eq_ofNat_digitsValue_iff (hlength : digits.length ≤ 64)
    (hdigits : ∀ c ∈ digits, Text.Hex.isDigit c = true) :
    a = ⟨BitVec.ofNat 256 (Text.Hex.digitsValue digits)⟩ ↔
      ofBigEndian a.word.toBytes = Text.Hex.digitsValue digits := by
  have hlt : Text.Hex.digitsValue digits < 2 ^ 256 :=
    calc Text.Hex.digitsValue digits < 16 ^ digits.length := digitsValue_lt hdigits
      _ ≤ 16 ^ 64 := Nat.pow_le_pow_right (by decide) hlength
      _ = 2 ^ 256 := by decide
  have hnat : (BitVec.ofNat 256 (Text.Hex.digitsValue digits)).toNat =
      Text.Hex.digitsValue digits := by
    rw [BitVec.toNat_ofNat]
    exact Nat.mod_eq_of_lt hlt
  rw [ofBigEndian_toBytes]
  constructor
  · rintro rfl
    exact hnat
  · intro h
    obtain ⟨word⟩ := a
    exact congrArg Address.mk (BitVec.eq_of_toNat_eq (h.trans hnat.symm))

/-! ## Each outcome by the text -/

theorem ofText_eq_ok_iff : ofText s = .ok a ↔ ∃ digits, Marked (Text.trimChars s.toList) digits ∧
    1 ≤ digits.length ∧ digits.length ≤ 64 ∧ (∀ c ∈ digits, Text.Hex.isDigit c = true) ∧
      ofBigEndian a.word.toBytes = Text.Hex.digitsValue digits := by
  have hread := reading_ofText s
  generalize ofText s = outcome at hread
  cases hread with
  | blank h => simp [h, Marked]
  | unmarked hne h => simp [h]
  | bare h => simp [h.iff]
  | long h hlong =>
    simp only [h.iff, exists_eq_left, reduceCtorEq, false_iff]
    rintro ⟨-, hlength, hdigits, -⟩
    rw [byteCount, utf8ByteSize_digits hdigits] at hlong
    omega
  | foreign h hne hshort hforeign =>
    simp only [h.iff, exists_eq_left, reduceCtorEq, false_iff]
    rintro ⟨-, -, hdigits, -⟩
    obtain ⟨c, hc, hfalse⟩ := hforeign
    simp [hdigits c hc] at hfalse
  | digits h hne hlength hdigits =>
    have hpos : 1 ≤ (List.length _) := List.length_pos_iff.mpr hne
    simp only [h.iff, exists_eq_left, Except.ok.injEq]
    rw [eq_comm, eq_ofNat_digitsValue_iff hlength hdigits]
    exact ⟨fun hvalue => ⟨hpos, hlength, hdigits, hvalue⟩, fun hall => hall.2.2.2⟩

theorem ofText_eq_empty : ofText s = .error .empty ↔
    Text.trimChars s.toList = [] ∨ Marked (Text.trimChars s.toList) [] := by
  have hread := reading_ofText s
  generalize ofText s = outcome at hread
  cases hread with
  | blank h => simp [h]
  | unmarked hne h => simp [hne, h]
  | bare h => simp [h]
  | long h hlong => simp [h.ne_nil, h.iff, (ne_nil_of_long hlong).symm]
  | foreign h hne => simp [h.ne_nil, h.iff, hne.symm]
  | digits h hne => simp [h.ne_nil, h.iff, hne.symm]

theorem ofText_eq_missingMarker : ofText s = .error .missingMarker ↔
    Text.trimChars s.toList ≠ [] ∧ ∀ rest, ¬Marked (Text.trimChars s.toList) rest := by
  have hread := reading_ofText s
  generalize ofText s = outcome at hread
  cases hread with
  | blank h => simp [h]
  | unmarked hne h => simp [hne, h]
  | bare h => simp [h.iff]
  | long h => simp [h.iff]
  | foreign h => simp [h.iff]
  | digits h => simp [h.iff]

theorem ofText_eq_tooLong {n : Nat} : ofText s = .error (.tooLong n) ↔
    ∃ rest, Marked (Text.trimChars s.toList) rest ∧ byteCount rest = n ∧ 64 < n := by
  have hread := reading_ofText s
  generalize ofText s = outcome at hread
  cases hread with
  | blank h => simp [h, Marked]
  | unmarked hne h => simp [h]
  | bare h =>
    simp only [h.iff, exists_eq_left, byteCount_eq_zero.mpr rfl, reduceCtorEq, Except.error.injEq,
      false_iff]
    omega
  | long h hlong =>
    simp only [h.iff, exists_eq_left, Except.error.injEq, AddressError.tooLong.injEq]
    exact ⟨fun heq => ⟨heq, heq ▸ hlong⟩, fun hall => hall.1⟩
  | foreign h hne hshort =>
    simp only [h.iff, exists_eq_left, reduceCtorEq, Except.error.injEq, false_iff]
    omega
  | digits h hne hlength hdigits =>
    simp only [h.iff, exists_eq_left, reduceCtorEq, false_iff, byteCount,
      utf8ByteSize_digits hdigits]
    omega

theorem exists_ofText_eq_invalidHex : (∃ why, ofText s = .error (.invalidHex why)) ↔
    ∃ rest, Marked (Text.trimChars s.toList) rest ∧ rest ≠ [] ∧ byteCount rest ≤ 64 ∧
      ∃ c ∈ rest, Text.Hex.isDigit c = false := by
  have hread := reading_ofText s
  generalize ofText s = outcome at hread
  cases hread with
  | blank h => simp [h, Marked]
  | unmarked hne h => simp [h]
  | bare h => simp [h.iff]
  | long h hlong =>
    simp only [h.iff, exists_eq_left, Except.error.injEq, reduceCtorEq, exists_false, false_iff]
    omega
  | foreign h hne hshort hforeign =>
    simp only [h.iff, exists_eq_left, Except.error.injEq, AddressError.invalidHex.injEq,
      exists_eq', true_iff]
    exact ⟨hne, hshort, hforeign⟩
  | digits h hne hlength hdigits =>
    simp only [h.iff, exists_eq_left, reduceCtorEq, exists_false, false_iff]
    rintro ⟨-, -, c, hc, hfalse⟩
    simp [hdigits c hc] at hfalse

/-! ## The field of 32 bytes -/

/-- Whatever is read of filled-up digits fills the field. -/
theorem ofDigits?_eq (digits : List Char) : ofDigits? digits = some (ofDigits digits) := by
  rw [ofDigits?, ofDigits]
  simp only
  by_cases hempty : byteCount digits = 0
  · rw [if_pos hempty, if_pos hempty]
  by_cases hlong : 64 < byteCount digits
  · rw [if_neg hempty, if_neg hempty, if_pos hlong, if_pos hlong]
  rw [if_neg hempty, if_neg hempty, if_neg hlong, if_neg hlong]
  have hchars := length_le_byteCount digits
  cases hread : Text.Hex.decode
      (String.ofList (List.replicate (64 - digits.length) '0' ++ digits)) with
  | error why => rfl
  | ok raw =>
    have hpairs := Text.Hex.length_of_decode hread
    rw [List.length_append, List.length_replicate] at hpairs
    have hfull : raw.length = 32 := by omega
    simp only [Word.ofBytes?, if_pos hfull, Option.map_some]

theorem ofText?_eq (s : String) : ofText? s = some (ofText s) := by
  rw [ofText?, ofText]
  generalize Text.trimChars s.toList = t
  split
  · rfl
  · exact ofDigits?_eq _
  · exact ofDigits?_eq _
  · simp_all

/-! ## Addresses in documents -/

/-- An address is read back from the JSON text that it is written as. -/
theorem decode_toJson (a : Address) :
    Json.decode decoder (Text.Utf8.encode a.toJson.compact) = .ok a := by
  have hplain : Json.isPlain a.toJson = true := by
    rw [toJson, Json.isPlain]
    exact Json.isPlainText_toHex a.word
  have hpretty : a.toJson.compact = a.toJson.pretty := by
    simp [toJson, Json.pretty, Json.indented]
  have htree : a.toJson.toTree = .text a.toHex := by rw [toJson, Json.toTree]
  have hdecode : decoder (.text a.toHex) = .ok a :=
    Document.Decoder.parsed_text (ofText_toHex a)
  rw [hpretty, Json.decode, Json.readDocument_pretty hplain, htree]
  simp only [hdecode]
  rfl

/-- A text is an address exactly if it is, without the blanks at its ends, a marker and 1 to 64
hexadecimal digits, and then the 32 bytes of the address have the value of the digits; every other
text is refused for what is wrong with it, and nothing that is read fails to fit. Addresses are read
back from their own texts and from JSON. -/
theorem reads_grammar :
    (∀ s : String,
      (∀ a, ofText s = .ok a ↔ ∃ digits, Marked (Text.trimChars s.toList) digits ∧
        1 ≤ digits.length ∧ digits.length ≤ 64 ∧ (∀ c ∈ digits, Text.Hex.isDigit c = true) ∧
          ofBigEndian a.word.toBytes = Text.Hex.digitsValue digits) ∧
      (ofText s = .error .empty ↔
        Text.trimChars s.toList = [] ∨ Marked (Text.trimChars s.toList) []) ∧
      (ofText s = .error .missingMarker ↔
        Text.trimChars s.toList ≠ [] ∧ ∀ rest, ¬Marked (Text.trimChars s.toList) rest) ∧
      (∀ n, ofText s = .error (.tooLong n) ↔
        ∃ rest, Marked (Text.trimChars s.toList) rest ∧ byteCount rest = n ∧ 64 < n) ∧
      ((∃ why, ofText s = .error (.invalidHex why)) ↔
        ∃ rest, Marked (Text.trimChars s.toList) rest ∧ rest ≠ [] ∧ byteCount rest ≤ 64 ∧
          ∃ c ∈ rest, Text.Hex.isDigit c = false) ∧
      ofText? s = some (ofText s)) ∧
    ∀ a : Address, ofText a.toHex = .ok a ∧ a.word.toBytes.length = 32 ∧
      Json.decode decoder (Text.Utf8.encode a.toJson.compact) = .ok a := by
  refine ⟨fun s => ⟨fun a => ofText_eq_ok_iff, ofText_eq_empty, ofText_eq_missingMarker,
    fun n => ofText_eq_tooLong, exists_ofText_eq_invalidHex, ofText?_eq s⟩, fun a => ?_⟩
  exact ⟨ofText_toHex a, Word.length_toBytes a.word, decode_toJson a⟩

end Address
end Paymaster

import Paymaster.Proofs.Reserve.RecordRoundTrip
import Paymaster.Proofs.Text.Accepted
/-!
# The format of the state file

The six strings of a record are read in their order, and the first that has no value decides which
error is reported. A number is a run of decimal digits below its bound. A word is told by its first
two characters and its length in bytes and then read as an address is, blanks at its end ignored and
digits filled up with zeros; so blanks may stand in for digits at the end of a word.
-/

namespace Paymaster.Reserve

/-! ## Numbers -/

/-- A text is a run of decimal digits of a value below a bound. -/
structure IsDecimal (bound : Nat) (s : String) (n : Nat) : Prop where
  ne_nil : s.toList ≠ []
  digits : ∀ c ∈ s.toList, Text.isDigit c = true
  value : Text.digitsValue s.toList = n
  lt : n < bound

variable {bound n : Nat} {field s : String} {word : Word} {e : RecordError}

theorem readDecimal_eq_ok : readDecimal bound field s = .ok n ↔ IsDecimal bound s n := by
  constructor
  · intro h
    rw [readDecimal] at h
    split at h
    · cases h
    · rename_i hform
      have hne : s.toList ≠ [] := by
        intro hnil
        exact hform (.inl (by simpa using hnil))
      have hdigits : ∀ c ∈ s.toList, Text.isDigit c = true := by
        by_contra hnot
        exact hform (.inr (by simpa [List.all_eq_true] using hnot))
      split at h
      · rename_i m hread
        cases h
        obtain ⟨hvalue, hlt⟩ := (Text.readUnsigned_eq_ok hne hdigits).mp hread
        exact ⟨hne, hdigits, hvalue, hlt⟩
      · cases h
  · rintro ⟨hne, hdigits, hvalue, hlt⟩
    have hform : ¬(s.isEmpty = true ∨ (!s.toList.all Text.isDigit) = true) := by
      rintro (hempty | hdigit)
      · exact hne (by simpa using hempty)
      · rw [List.all_eq_true.mpr hdigits] at hdigit
        cases hdigit
    rw [readDecimal, if_neg hform, (Text.readUnsigned_eq_ok hne hdigits).mpr ⟨hvalue, hlt⟩]

theorem readDecimal_eq_error (h : readDecimal bound field s = .error e) :
    ∃ reason, e = .invalidField field reason := by
  rw [readDecimal] at h
  split at h
  · cases h
    exact ⟨_, rfl⟩
  · split at h
    · cases h
    · cases h
      exact ⟨_, rfl⟩

theorem readDecimal_cases (bound : Nat) (field s : String) :
    (∃ reason, readDecimal bound field s = .error (.invalidField field reason) ∧
      ¬∃ n, IsDecimal bound s n) ∨
      ∃ n, readDecimal bound field s = .ok n ∧ IsDecimal bound s n := by
  cases h : readDecimal bound field s with
  | error e =>
    left
    obtain ⟨reason, rfl⟩ := readDecimal_eq_error h
    refine ⟨reason, rfl, ?_⟩
    rintro ⟨n, hn⟩
    rw [readDecimal_eq_ok.mpr hn] at h
    cases h
  | ok n => exact .inr ⟨n, rfl, readDecimal_eq_ok.mp h⟩

/-! ## Words -/

/-- A text of 66 bytes holds a marker, one digit or more, and blanks in the place of the digits that
are missing. -/
def IsWord (s : String) (word : Word) : Prop :=
  ∃ digits blanks, s.toList = '0' :: 'x' :: (digits ++ blanks) ∧
    s.utf8ByteSize = writtenWordLength ∧ digits ≠ [] ∧
    (∀ c ∈ digits, Text.Hex.isDigit c = true) ∧ (∀ c ∈ blanks, Text.isBlank c = true) ∧
    word = BitVec.ofNat 256 (Text.Hex.digitsValue digits)

theorem marked_of_stripPrefix? (h : ¬(Text.stripPrefix? "0x" s).isNone = true) :
    ∃ rest, s.toList = '0' :: 'x' :: rest := by
  rw [Text.stripPrefix?] at h
  split at h
  · rename_i hprefix
    obtain ⟨rest, hrest⟩ := List.isPrefixOf_iff_prefix.mp hprefix
    exact ⟨rest, hrest.symm⟩
  · exact absurd rfl h

theorem readWord_eq_ok : readWord field s = .ok word ↔ IsWord s word := by
  constructor
  · intro h
    rw [readWord] at h
    split_ifs at h with hform
    obtain ⟨hmark, hsize⟩ := not_or.mp hform
    obtain ⟨rest, hrest⟩ := marked_of_stripPrefix? hmark
    split at h
    · rename_i w hread
      cases h
      cases haddress : Address.ofText s with
      | error why =>
        rw [Word.ofText, haddress] at hread
        cases hread
      | ok a =>
        rw [Word.ofText, haddress] at hread
        cases hread
        obtain ⟨mark, digits, htrim, -, hdigits⟩ := Address.ofText_eq_ok.mp haddress
        obtain ⟨hne, hlength, hall, rfl⟩ := Address.ofDigits_eq_ok.mp hdigits
        obtain ⟨front, blanks, hcut, hfront, hblanks⟩ := Text.exists_trimChars s.toList
        rw [htrim] at hcut
        -- the text begins with its marker, so nothing was trimmed in front of it
        have hfront' : front = [] := by
          cases front with
          | nil => rfl
          | cons c more =>
            rw [hrest] at hcut
            obtain ⟨rfl, -⟩ := List.cons.inj hcut
            exact absurd (hfront '0' List.mem_cons_self) (by decide)
        subst hfront'
        rw [hrest] at hcut
        obtain ⟨-, hcut⟩ := List.cons.inj hcut
        obtain ⟨-, rfl⟩ := List.cons.inj hcut
        exact ⟨digits, blanks, hrest, not_not.mp hsize, hne, hall, hblanks, rfl⟩
    · cases h
  · rintro ⟨digits, blanks, hs, hsize, hne, hall, hblanks, rfl⟩
    have hmark : (Text.stripPrefix? "0x" s).isNone = false := by
      simp [Text.stripPrefix?, hs]
    have hlength : digits.length ≤ 64 := by
      have hbytes := length_le_utf8ByteSize s
      rw [hs, hsize, writtenWordLength, List.length_cons, List.length_cons,
        List.length_append] at hbytes
      omega
    have htrim : Text.trimChars s.toList = '0' :: 'x' :: digits := by
      have hlast : ∀ c, ('0' :: 'x' :: digits).getLast? = some c → Text.isBlank c = false := by
        intro c hc
        obtain ⟨d, more, rfl⟩ := List.exists_cons_of_ne_nil hne
        rw [List.getLast?_cons_cons, List.getLast?_cons_cons] at hc
        exact Text.Hex.isBlank_of_isDigit (hall c (List.mem_of_getLast? hc))
      have hhead : ∀ c, ('0' :: 'x' :: digits).head? = some c → Text.isBlank c = false := by
        rintro c ⟨⟩
        decide
      have hfront : ∀ c ∈ ([] : List Char), Text.isBlank c = true := by simp
      rw [hs]
      exact Text.trimChars_append hfront hblanks hhead hlast (by simp)
    have hread : Address.ofText s = .ok ⟨BitVec.ofNat 256 (Text.Hex.digitsValue digits)⟩ :=
      Address.ofText_eq_ok.mpr
        ⟨'x', digits, htrim, .inl rfl, Address.ofDigits_eq_ok.mpr ⟨hne, hlength, hall, rfl⟩⟩
    rw [readWord, if_neg (by simp [hmark, hsize]), Word.ofText, hread]
    rfl

/-- A text is the marker and 64 digits of a word, as words are written. -/
def IsFullWord (s : String) (word : Word) : Prop :=
  ∃ digits, s.toList = '0' :: 'x' :: digits ∧ digits.length = 64 ∧
    (∀ c ∈ digits, Text.Hex.isDigit c = true) ∧
    word = BitVec.ofNat 256 (Text.Hex.digitsValue digits)

/-- The last character of a text is no blank. -/
def EndsPlain (s : String) : Prop := ∀ c, s.toList.getLast? = some c → Text.isBlank c = false

/-- A text that does not end in a blank holds a word if it is the marker and 64 digits. -/
theorem isWord_iff_of_last (hlast : EndsPlain s) : IsWord s word ↔ IsFullWord s word := by
  have hbytes : ∀ digits, s.toList = '0' :: 'x' :: digits →
      (∀ c ∈ digits, Text.Hex.isDigit c = true) → s.utf8ByteSize = digits.length + 2 := by
    intro digits hs hall
    have heq : s = "0x" ++ String.ofList digits := by
      rw [← String.toList_inj, hs]
      simp
    have hmark : "0x".utf8ByteSize = 2 := rfl
    rw [heq, String.utf8ByteSize_append, utf8ByteSize_digits hall]
    omega
  constructor
  · rintro ⟨digits, blanks, hs, hsize, -, hall, hblanks, rfl⟩
    have hnone : blanks = [] := by
      by_contra hne
      obtain ⟨c, hc⟩ : ∃ c, blanks.getLast? = some c :=
        Option.isSome_iff_exists.mp (by simp [hne])
      have hend : s.toList.getLast? = some c := by
        rw [hs]
        simp [List.getLast?_append, List.getLast?_cons, hc]
      have hblank := hblanks c (List.mem_of_getLast? hc)
      rw [hlast c hend] at hblank
      cases hblank
    rw [hnone, List.append_nil] at hs
    have hlength := hbytes digits hs hall
    rw [hsize, writtenWordLength] at hlength
    exact ⟨digits, hs, by omega, hall, rfl⟩
  · rintro ⟨digits, hs, hlength, hall, rfl⟩
    refine ⟨digits, [], by simpa using hs, ?_, ?_, hall, by simp, rfl⟩
    · rw [hbytes digits hs hall, hlength]
      rfl
    · rintro rfl
      cases hlength

theorem readWord_eq_error (h : readWord field s = .error e) :
    ∃ reason, e = .invalidField field reason := by
  rw [readWord] at h
  split at h
  · cases h
    exact ⟨_, rfl⟩
  · split at h
    · cases h
    · cases h
      exact ⟨_, rfl⟩

theorem readWord_cases (field s : String) :
    (∃ reason, readWord field s = .error (.invalidField field reason) ∧ ¬∃ word, IsWord s word) ∨
      ∃ word, readWord field s = .ok word ∧ IsWord s word := by
  cases h : readWord field s with
  | error e =>
    left
    obtain ⟨reason, rfl⟩ := readWord_eq_error h
    refine ⟨reason, rfl, ?_⟩
    rintro ⟨word, hword⟩
    rw [readWord_eq_ok.mpr hword] at h
    cases h
  | ok word => exact .inr ⟨word, rfl, readWord_eq_ok.mp h⟩

/-! ## Records -/

/-- Six strings denote a record. -/
structure WrittenRecord.Denotes (w : WrittenRecord) (r : BridgeRecord) : Prop where
  baseline : IsDecimal Amount.bound w.baseline r.baseline.toNat
  amount : IsDecimal Amount.bound w.amount r.amount.toNat
  secretHash : IsWord w.secretHash r.secretHash
  messageHash : IsWord w.messageHash r.messageHash
  leafIndex : IsDecimal UInt64.size w.leafIndex r.leafIndex.toNat
  submittedAt : IsDecimal UInt64.size w.submittedAt r.submittedAt.toNat

/-- The fields of a record in their order, and for each that its string has a value. -/
def WrittenRecord.fields (w : WrittenRecord) : List (String × Prop) :=
  [("bridge.baselineBalance", ∃ n, IsDecimal Amount.bound w.baseline n),
    ("bridge.amount", ∃ n, IsDecimal Amount.bound w.amount n),
    ("bridge.claimSecretHash", ∃ word, IsWord w.secretHash word),
    ("bridge.messageHash", ∃ word, IsWord w.messageHash word),
    ("bridge.messageLeafIndex", ∃ n, IsDecimal UInt64.size w.leafIndex n),
    ("bridge.submittedAtMs", ∃ n, IsDecimal UInt64.size w.submittedAt n)]

/-- The first of some fields that has no value. -/
inductive FirstInvalid : List (String × Prop) → String → Prop
  | here {field : String} {valid : Prop} {rest : List (String × Prop)} (h : ¬valid) :
      FirstInvalid ((field, valid) :: rest) field
  | later {first field : String} {valid : Prop} {rest : List (String × Prop)} (h : valid)
      (hrest : FirstInvalid rest field) : FirstInvalid ((first, valid) :: rest) field

variable {w : WrittenRecord} {r : BridgeRecord}

theorem BridgeRecord.ofWritten_of_denotes (h : w.Denotes r) : ofWritten w = .ok r := by
  rw [ofWritten, readDecimal_eq_ok.mpr h.baseline, readDecimal_eq_ok.mpr h.amount,
    readWord_eq_ok.mpr h.secretHash, readWord_eq_ok.mpr h.messageHash,
    readDecimal_eq_ok.mpr h.leafIndex, readDecimal_eq_ok.mpr h.submittedAt]
  simp only [bind, Except.bind, pure, Except.pure, BitVec.ofNat_toNat, BitVec.setWidth_eq,
    UInt64.ofNat_toNat]

theorem IsDecimal.amount (h : IsDecimal Amount.bound s n) :
    IsDecimal Amount.bound s (BitVec.ofNat 128 n).toNat := by
  rwa [Amount.toNat_ofNat h.lt]

theorem IsDecimal.uint64 (h : IsDecimal UInt64.size s n) :
    IsDecimal UInt64.size s (UInt64.ofNat n).toNat := by
  rwa [UInt64.toNat_ofNat', Nat.mod_eq_of_lt h.lt]

/-- Six strings denote a record, or the first of them that has no value is reported. -/
theorem BridgeRecord.ofWritten_cases (w : WrittenRecord) :
    (∃ field reason, ofWritten w = .error (.invalidField field reason) ∧
      FirstInvalid w.fields field) ∨ ∃ r, ofWritten w = .ok r ∧ w.Denotes r := by
  rcases readDecimal_cases Amount.bound "bridge.baselineBalance" w.baseline with
    ⟨reason, hread, hnot⟩ | ⟨baseline, hbaseline, baseline_ok⟩
  · refine .inl ⟨_, reason, ?_, .here hnot⟩
    rw [ofWritten, hread]
    rfl
  rcases readDecimal_cases Amount.bound "bridge.amount" w.amount with
    ⟨reason, hread, hnot⟩ | ⟨amount, hamount, amount_ok⟩
  · refine .inl ⟨_, reason, ?_, .later ⟨_, baseline_ok⟩ (.here hnot)⟩
    rw [ofWritten, hbaseline, hread]
    rfl
  rcases readWord_cases "bridge.claimSecretHash" w.secretHash with
    ⟨reason, hread, hnot⟩ | ⟨secretHash, hsecret, secret_ok⟩
  · refine .inl ⟨_, reason, ?_, .later ⟨_, baseline_ok⟩ (.later ⟨_, amount_ok⟩ (.here hnot))⟩
    rw [ofWritten, hbaseline, hamount, hread]
    rfl
  rcases readWord_cases "bridge.messageHash" w.messageHash with
    ⟨reason, hread, hnot⟩ | ⟨messageHash, hmessage, message_ok⟩
  · refine .inl ⟨_, reason, ?_, .later ⟨_, baseline_ok⟩ (.later ⟨_, amount_ok⟩
      (.later ⟨_, secret_ok⟩ (.here hnot)))⟩
    rw [ofWritten, hbaseline, hamount, hsecret, hread]
    rfl
  rcases readDecimal_cases UInt64.size "bridge.messageLeafIndex" w.leafIndex with
    ⟨reason, hread, hnot⟩ | ⟨leafIndex, hleaf, leaf_ok⟩
  · refine .inl ⟨_, reason, ?_, .later ⟨_, baseline_ok⟩ (.later ⟨_, amount_ok⟩
      (.later ⟨_, secret_ok⟩ (.later ⟨_, message_ok⟩ (.here hnot))))⟩
    rw [ofWritten, hbaseline, hamount, hsecret, hmessage, hread]
    rfl
  rcases readDecimal_cases UInt64.size "bridge.submittedAtMs" w.submittedAt with
    ⟨reason, hread, hnot⟩ | ⟨submittedAt, htime, time_ok⟩
  · refine .inl ⟨_, reason, ?_, .later ⟨_, baseline_ok⟩ (.later ⟨_, amount_ok⟩
      (.later ⟨_, secret_ok⟩ (.later ⟨_, message_ok⟩ (.later ⟨_, leaf_ok⟩ (.here hnot)))))⟩
    rw [ofWritten, hbaseline, hamount, hsecret, hmessage, hleaf, hread]
    rfl
  have hdenotes : w.Denotes ⟨BitVec.ofNat 128 baseline, BitVec.ofNat 128 amount, secretHash,
      messageHash, UInt64.ofNat leafIndex, UInt64.ofNat submittedAt⟩ :=
    ⟨baseline_ok.amount, amount_ok.amount, secret_ok, message_ok, leaf_ok.uint64, time_ok.uint64⟩
  exact .inr ⟨_, ofWritten_of_denotes hdenotes, hdenotes⟩

/-! ## Files -/

variable {bytes : List UInt8}

theorem BridgeRecord.decode_of_written
    (h : Json.decode WrittenState.decoder bytes = .ok ⟨stateVersion, some w⟩) :
    decode bytes = (ofWritten w).map some := by
  rw [decode, h]
  simp

theorem BridgeRecord.ofWritten_eq_ok : ofWritten w = .ok r ↔ w.Denotes r := by
  constructor
  · intro hread
    rcases ofWritten_cases w with ⟨field, reason, herror, -⟩ | ⟨r', hok, hdenotes⟩
    · rw [herror] at hread
      cases hread
    · rw [hok] at hread
      cases hread
      exact hdenotes
  · exact ofWritten_of_denotes

theorem BridgeRecord.decode_eq_ok
    (h : Json.decode WrittenState.decoder bytes = .ok ⟨stateVersion, some w⟩) :
    decode bytes = .ok (some r) ↔ w.Denotes r := by
  rw [decode_of_written h, ← ofWritten_eq_ok]
  cases ofWritten w with
  | error e => simp [Except.map]
  | ok r' => simp [Except.map]

/-- A file of the right version with six strings in it holds the record that they denote; if they
denote none, the first field without a value is reported. -/
theorem BridgeRecord.decode_by_format (bytes : List UInt8) (w : WrittenRecord)
    (h : Json.decode WrittenState.decoder bytes = .ok ⟨stateVersion, some w⟩) :
    (∀ r, decode bytes = .ok (some r) ↔ w.Denotes r) ∧
      ((∃ r, w.Denotes r) ∨ ∃ field reason,
        decode bytes = .error (.invalidField field reason) ∧ FirstInvalid w.fields field) := by
  refine ⟨fun r => decode_eq_ok h, ?_⟩
  rw [decode_of_written h]
  rcases ofWritten_cases w with ⟨field, reason, herror, hfirst⟩ | ⟨r, -, hdenotes⟩
  · exact .inr ⟨field, reason, by rw [herror]; rfl, hfirst⟩
  · exact .inl ⟨r, hdenotes⟩

/-- Unless a word ends in a blank, the strings that are accepted are those that are written: the
numbers in decimal, and each word as its marker and 64 digits. -/
theorem BridgeRecord.decode_of_endsPlain
    (h : Json.decode WrittenState.decoder bytes = .ok ⟨stateVersion, some w⟩)
    (hsecret : EndsPlain w.secretHash) (hmessage : EndsPlain w.messageHash) :
    decode bytes = .ok (some r) ↔
      IsDecimal Amount.bound w.baseline r.baseline.toNat ∧
      IsDecimal Amount.bound w.amount r.amount.toNat ∧
      IsFullWord w.secretHash r.secretHash ∧ IsFullWord w.messageHash r.messageHash ∧
      IsDecimal UInt64.size w.leafIndex r.leafIndex.toNat ∧
      IsDecimal UInt64.size w.submittedAt r.submittedAt.toNat := by
  rw [decode_eq_ok h, ← isWord_iff_of_last hsecret, ← isWord_iff_of_last hmessage]
  constructor
  · rintro ⟨baseline, amount, secret, message, leaf, time⟩
    exact ⟨baseline, amount, secret, message, leaf, time⟩
  · rintro ⟨baseline, amount, secret, message, leaf, time⟩
    exact ⟨baseline, amount, secret, message, leaf, time⟩

/-- Six strings of which the third has a blank in the place of its last digit. -/
def blankEnded : WrittenRecord where
  baseline := "7"
  amount := "3"
  secretHash := String.ofList ('0' :: 'x' :: (List.replicate 63 '1' ++ [' ']))
  messageHash := String.ofList ('0' :: 'x' :: List.replicate 64 '2')
  leafIndex := "0"
  submittedAt := "1700000000000"

/-- The record that these strings denote. -/
def blankEndedRecord : BridgeRecord where
  baseline := 7
  amount := 3
  secretHash := BitVec.ofNat 256 (Text.Hex.digitsValue (List.replicate 63 '1'))
  messageHash := BitVec.ofNat 256 (Text.Hex.digitsValue (List.replicate 64 '2'))
  leafIndex := 0
  submittedAt := 1700000000000

/-- The file with these strings. -/
def blankEndedFile : List UInt8 :=
  Text.Utf8.encode (WrittenState.toJson ⟨stateVersion, some blankEnded⟩).pretty

theorem blankEnded_denotes : blankEnded.Denotes blankEndedRecord where
  baseline := ⟨by decide, List.all_eq_true.mp rfl, rfl, by decide⟩
  amount := ⟨by decide, List.all_eq_true.mp rfl, rfl, by decide⟩
  secretHash := ⟨List.replicate 63 '1', [' '], by simp [blankEnded], rfl, by simp,
    List.all_eq_true.mp rfl, List.all_eq_true.mp rfl, rfl⟩
  messageHash := ⟨List.replicate 64 '2', [], by simp [blankEnded], rfl, by simp,
    List.all_eq_true.mp rfl, List.all_eq_true.mp rfl, rfl⟩
  leafIndex := ⟨by decide, List.all_eq_true.mp rfl, rfl, by decide⟩
  submittedAt := ⟨by decide, List.all_eq_true.mp rfl, rfl, by decide⟩

theorem decode_blankEndedFile : Json.decode WrittenState.decoder blankEndedFile =
    .ok ⟨stateVersion, some blankEnded⟩ :=
  WrittenState.decode_pretty (by decide)

theorem BridgeRecord.decode_by_format_blankEnded :
    Json.decode WrittenState.decoder blankEndedFile = .ok ⟨stateVersion, some blankEnded⟩ ∧
      decode blankEndedFile = .ok (some blankEndedRecord) := by
  obtain ⟨hformat, -⟩ := decode_by_format blankEndedFile blankEnded decode_blankEndedFile
  exact ⟨decode_blankEndedFile, (hformat blankEndedRecord).mpr blankEnded_denotes⟩

/-- A blank may stand in the place of a digit: a word of 63 digits is read from 66 bytes. -/
theorem blank_in_place_of_digit : BridgeRecord.decode blankEndedFile = .ok (some blankEndedRecord) ∧
    ¬∃ digits, blankEnded.secretHash.toList = '0' :: 'x' :: digits ∧ digits.length = 64 ∧
      ∀ c ∈ digits, Text.Hex.isDigit c = true := by
  constructor
  · rw [BridgeRecord.decode_of_written decode_blankEndedFile,
      BridgeRecord.ofWritten_of_denotes blankEnded_denotes]
    rfl
  · rintro ⟨digits, hs, -, hdigits⟩
    have htext : blankEnded.secretHash.toList =
        '0' :: 'x' :: (List.replicate 63 '1' ++ [' ']) := by
      simp [blankEnded]
    have heq : digits = List.replicate 63 '1' ++ [' '] := by
      rw [htext] at hs
      exact ((List.cons.inj (List.cons.inj hs).2).2).symm
    have hblank := hdigits ' ' (by simp [heq])
    exact absurd hblank (by decide)

end Paymaster.Reserve

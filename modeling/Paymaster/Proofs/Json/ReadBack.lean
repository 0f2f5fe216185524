import Paymaster.Json.Reader
import Paymaster.Proofs.Text.ReadBack
/-!
# JSON read back

A JSON value of tables, texts and natural numbers is written with a line for each field and read
back from its bytes. The texts are those that need no escapes, which are all that a state file
holds. The reader is given more fuel than the text has bytes, and uses no more than one unit for
each byte.
-/

namespace Paymaster.Json

open Document (Tree)
open Text (Utf8.encode)

/-- A text that stands between quotes as it is. -/
def isPlainText (s : String) : Bool :=
  s.toList.all fun c => 32 ≤ c.toNat && c.toNat < 128 && c != '"' && c != '\\'

mutual

/-- A value of tables, plain texts and natural numbers of 64 bits. -/
def isPlain : Json → Bool
  | .int n => 0 ≤ n && n < significandBound
  | .text s => isPlainText s
  | .table fields => arePlain fields
  | _ => false

/-- Fields with plain keys and plain values. -/
def arePlain : List (String × Json) → Bool
  | [] => true
  | (k, j) :: rest => isPlainText k && isPlain j && arePlain rest

end

/-! ## Blanks -/

theorem encode_indent (depth : Nat) :
    Utf8.encode (indent depth) = 0x0a :: List.replicate (2 * depth) 0x20 := by
  have hspaces : ∀ c ∈ List.replicate (2 * depth) ' ', c.toNat < 128 := by
    intro c hc
    rw [List.eq_of_mem_replicate hc]
    decide
  rw [indent, Text.Utf8.encode_append, Text.Utf8.encode_ascii _ hspaces, List.map_replicate]
  rfl

theorem skipSpaces_cons {b : UInt8} (h : isSpace b = false) (bytes : List UInt8) :
    skipSpaces (b :: bytes) = b :: bytes := by
  simp [skipSpaces, h]

theorem skipSpaces_space {b : UInt8} (h : isSpace b = true) (bytes : List UInt8) :
    skipSpaces (b :: bytes) = skipSpaces bytes := by
  simp [skipSpaces, h]

theorem skipSpaces_indent (depth : Nat) (bytes : List UInt8) :
    skipSpaces (Utf8.encode (indent depth) ++ bytes) = skipSpaces bytes := by
  rw [encode_indent, List.cons_append, skipSpaces_space (by decide)]
  generalize 2 * depth = n
  induction n with
  | zero => rfl
  | succ n ih => rw [List.replicate_succ, List.cons_append, skipSpaces_space (by decide), ih]

theorem length_indent (depth : Nat) : (Utf8.encode (indent depth)).length = 2 * depth + 1 := by
  simp [encode_indent]

/-! ## Texts -/

/-- The byte stands for itself between quotes. -/
def isPlainByte (b : UInt8) : Prop := b ≠ 0x22 ∧ b ≠ 0x5c ∧ ¬b < 0x20

theorem textParts_cons {b : UInt8} (h : isPlainByte b) (fuel : Nat) (rest : List UInt8) :
    textParts (fuel + 1) (b :: rest) = (textParts fuel rest).map fun (p, r) => (p.before [b], r) := by
  obtain ⟨hquote, hslash, hcontrol⟩ := h
  rw [textParts.eq_def (fuel + 1)]
  simp only [hquote, hslash, hcontrol, if_false, if_true, ne_eq, not_false_eq_true]

theorem textParts_plain {bytes rest : List UInt8} (h : ∀ b ∈ bytes, isPlainByte b) {fuel : Nat}
    (hf : bytes.length < fuel) : textParts fuel (bytes ++ 0x22 :: rest) = .ok (⟨bytes, none⟩, rest) := by
  induction bytes generalizing fuel with
  | nil =>
    obtain ⟨fuel, rfl⟩ : ∃ n, fuel = n + 1 := Nat.exists_eq_add_one_of_ne_zero (by omega)
    rfl
  | cons b bytes ih =>
    obtain ⟨fuel, rfl⟩ : ∃ n, fuel = n + 1 := Nat.exists_eq_add_one_of_ne_zero (by omega)
    rw [List.cons_append, textParts_cons (h b (by simp)),
      ih (fun d hd => h d (List.mem_cons_of_mem b hd)) (by simpa using hf)]
    rfl

theorem isPlainText_iff {s : String} : isPlainText s = true ↔
    ∀ c ∈ s.toList, 32 ≤ c.toNat ∧ c.toNat < 128 ∧ c ≠ '"' ∧ c ≠ '\\' := by
  simp [isPlainText, and_assoc]

theorem encode_plain {s : String} (h : isPlainText s = true) :
    Utf8.encode s = s.toList.map Char.toUInt8 := by
  have hs := Text.Utf8.encode_ascii s.toList fun c hc => (isPlainText_iff.mp h c hc).2.1
  rwa [String.ofList_toList] at hs

theorem escapeChar_plain {c : Char} (h : 32 ≤ c.toNat) (hquote : c ≠ '"') (hslash : c ≠ '\\') :
    escapeChar c = [c] := by
  have hne (d : Char) (hd : d.toNat < 32) : c ≠ d := by
    rintro rfl
    omega
  rw [escapeChar, if_neg hquote, if_neg hslash, if_neg (hne '\n' (by decide)),
    if_neg (hne '\r' (by decide)), if_neg (hne '\t' (by decide)), if_neg (hne '\x08' (by decide)),
    if_neg (hne '\x0c' (by decide)), if_neg (by omega)]

theorem isPlainByte_of_char {c : Char} (h : 32 ≤ c.toNat) (hlt : c.toNat < 128) (hquote : c ≠ '"')
    (hslash : c ≠ '\\') : isPlainByte c.toUInt8 := by
  have hnat : c.toUInt8.toNat = c.toNat := by
    have : c.toUInt8.toNat = c.toNat % 256 := rfl
    omega
  have hchar (d : Char) (hd : d.toNat < 128) (heq : c.toUInt8 = d.toUInt8) : c = d := by
    have : d.toUInt8.toNat = d.toNat % 256 := rfl
    refine Char.toNat_inj.mp ?_
    rw [← hnat, heq]
    omega
  refine ⟨fun heq => hquote (hchar '"' (by decide) heq), fun heq => hslash (hchar '\\' (by decide) heq),
    ?_⟩
  rw [UInt8.lt_iff_toNat_lt, hnat]
  exact Nat.not_lt.mpr h

theorem quoteText_plain {s : String} (h : isPlainText s = true) :
    quoteText s = String.ofList ('"' :: (s.toList ++ ['"'])) := by
  have hs := isPlainText_iff.mp h
  have hescape : s.toList.flatMap escapeChar = s.toList := by
    rw [List.flatMap_def, List.map_congr_left fun c hc =>
      escapeChar_plain (hs c hc).1 (hs c hc).2.2.1 (hs c hc).2.2.2, ← List.flatMap_def]
    simp
  rw [quoteText, hescape]

theorem encode_quoteText {s : String} (h : isPlainText s = true) :
    Utf8.encode (quoteText s) = 0x22 :: (Utf8.encode s ++ [0x22]) := by
  have hs := isPlainText_iff.mp h
  have hascii : ∀ c ∈ '"' :: (s.toList ++ ['"']), c.toNat < 128 := by
    intro c hc
    simp only [List.mem_cons, List.mem_append, List.not_mem_nil, or_false] at hc
    rcases hc with rfl | hc | rfl
    · decide
    · exact (hs c hc).2.1
    · decide
  rw [quoteText_plain h, Text.Utf8.encode_ascii _ hascii, encode_plain h, List.map_cons,
    List.map_append]
  rfl

/-- A plain text is read back behind its opening quote. -/
theorem readText_encode {s : String} (h : isPlainText s = true) (rest : List UInt8) :
    readText (Utf8.encode s ++ 0x22 :: rest) = (.ok s, some rest) := by
  have hbytes : ∀ b ∈ Utf8.encode s, isPlainByte b := by
    rw [encode_plain h]
    intro b hb
    obtain ⟨c, hc, rfl⟩ := List.mem_map.mp hb
    obtain ⟨h32, h128, hquote, hslash⟩ := isPlainText_iff.mp h c hc
    exact isPlainByte_of_char h32 h128 hquote hslash
  have hfuel : (Utf8.encode s).length < (Utf8.encode s ++ 0x22 :: rest).length + 1 := by
    rw [List.length_append]
    omega
  rw [readText, textParts_plain hbytes hfuel]
  simp [TextParts.text, Text.Utf8.decode?_encode]

/-! ## Numbers -/

/-- Nothing that could belong to a number follows: the text ends, or a comma, a line break or a brace
is next. -/
def EndsNumber (rest : List UInt8) : Prop :=
  ∀ b, rest.head? = some b → b = 0x2c ∨ b = 0x0a ∨ b = 0x7d

theorem endsNumber_nil : EndsNumber [] := by simp [EndsNumber]

theorem toNat_toUInt8_of_digit {c : Char} (h : Text.isDigit c = true) :
    48 ≤ c.toUInt8.toNat ∧ c.toUInt8.toNat ≤ 57 ∧ c.toUInt8.toNat = c.toNat := by
  have hmod : c.toUInt8.toNat = c.toNat % 256 := rfl
  have hc : 48 ≤ c.toNat ∧ c.toNat ≤ 57 := by
    simp only [Text.isDigit, Bool.and_eq_true, decide_eq_true_eq, Char.le_def,
      UInt32.le_iff_toNat_le] at h
    exact h
  omega

theorem isDigitByte_of_digit {c : Char} (h : Text.isDigit c = true) :
    isDigitByte c.toUInt8 = true := by
  obtain ⟨hlow, hhigh, -⟩ := toNat_toUInt8_of_digit h
  simp [isDigitByte, UInt8.le_iff_toNat_le, hlow, hhigh]

theorem asciiChars_map {ds : List Char} (h : ∀ c ∈ ds, Text.isDigit c = true) :
    asciiChars (ds.map Char.toUInt8) = ds := by
  rw [asciiChars, List.map_map]
  refine (List.map_congr_left fun c hc => ?_).trans (List.map_id ds)
  rw [Function.comp_apply, (toNat_toUInt8_of_digit (h c hc)).2.2, Char.ofNat_toNat, id]

theorem splitDigits_eq {ds : List Char} {rest : List UInt8} (h : ∀ c ∈ ds, Text.isDigit c = true)
    (hrest : EndsNumber rest) : splitDigits (ds.map Char.toUInt8 ++ rest) = (ds, rest) := by
  have hds : ∀ b ∈ ds.map Char.toUInt8, isDigitByte b = true := by
    intro b hb
    obtain ⟨c, hc, rfl⟩ := List.mem_map.mp hb
    exact isDigitByte_of_digit (h c hc)
  have hstop : rest.takeWhile isDigitByte = [] ∧ rest.dropWhile isDigitByte = rest := by
    cases rest with
    | nil => exact ⟨rfl, rfl⟩
    | cons b rest => rcases hrest b rfl with rfl | rfl | rfl <;> exact ⟨rfl, rfl⟩
  rw [splitDigits, List.takeWhile_append_of_pos hds, List.dropWhile_append_of_pos hds, hstop.1,
    hstop.2, List.append_nil, asciiChars_map h]

theorem head_toDigits {n : Nat} (h : 0 < n) : (Nat.toDigits 10 n).head? ≠ some '0' := by
  induction n using Nat.strongRecOn with
  | ind n ih =>
    rw [Nat.toDigits_eq_if (by decide)]
    split
    · have hn : ∀ n < 10, 0 < n → [n.digitChar].head? ≠ some '0' := by decide
      exact hn n ‹_› h
    · have hdiv := ih (n / 10) (by omega) (by omega)
      obtain ⟨d, ds, hds⟩ := List.exists_cons_of_ne_nil (Nat.toDigits_ne_nil (b := 10) (n := n / 10))
      rw [hds] at hdiv ⊢
      simpa using hdiv

/-- The digits of a number make a whole part: a zero stands in front of no other digit. -/
theorem wholePart_toDigits (n : Nat) {rest : List UInt8} (hrest : EndsNumber rest) :
    wholePart ((Nat.toDigits 10 n).map Char.toUInt8 ++ rest) = .ok (Nat.toDigits 10 n, rest) := by
  have hsome : someDigits ((Nat.toDigits 10 n).map Char.toUInt8 ++ rest)
      = .ok (Nat.toDigits 10 n, rest) := by
    rw [someDigits, splitDigits_eq (fun _ => Text.isDigit_of_mem_toDigits) hrest]
    split
    · exact absurd (congrArg Prod.fst ‹_›) Nat.toDigits_ne_nil
    · exact absurd (congrArg Prod.fst ‹_›) Nat.toDigits_ne_nil
    · rfl
  rw [wholePart, hsome]
  rcases Nat.eq_zero_or_pos n with rfl | hn
  · rfl
  · have hhead := head_toDigits hn
    cases hds : Nat.toDigits 10 n with
    | nil => rfl
    | cons d ds =>
      rw [hds] at hhead
      simp only [bind, Except.bind]
      split
      · rename_i heq
        simp only [Prod.mk.injEq, List.cons.injEq] at heq
        exact absurd (congrArg some heq.1.1) hhead
      · rfl

theorem numberParts_toDigits (n : Nat) {rest : List UInt8} (hrest : EndsNumber rest) :
    numberParts false ((Nat.toDigits 10 n).map Char.toUInt8 ++ rest)
      = .ok (⟨false, Nat.toDigits 10 n, none, none⟩, rest) := by
  rw [numberParts, wholePart_toDigits n hrest]
  cases rest with
  | nil => rfl
  | cons b rest => rcases hrest b rfl with rfl | rfl | rfl <;> rfl

theorem appendDigits_eq (n : Nat) (ds : List Char) (h : Nat.ofDigitChars 10 ds n < significandBound) :
    appendDigits n ds = (Nat.ofDigitChars 10 ds n, ds.length) := by
  induction ds generalizing n with
  | nil => simp [appendDigits]
  | cons c rest ih =>
    rw [Nat.ofDigitChars_cons] at h ⊢
    have hm : 10 * n + (c.toNat - 48) < significandBound :=
      Nat.lt_of_le_of_lt (Text.le_ofDigitChars _ rest) h
    rw [appendDigits]
    simp only [if_pos hm]
    rw [show c.toNat - '0'.toNat = c.toNat - 48 from rfl] at h ⊢
    rw [ih _ h]
    rfl

/-- A number of 64 bits is read back from its digits. -/
theorem readNumber_toDigits {n : Nat} (h : n < significandBound) {rest : List UInt8}
    (hrest : EndsNumber rest) :
    readNumber false ((Nat.toDigits 10 n).map Char.toUInt8 ++ rest) = (.int n, some rest) := by
  rw [readNumber, numberParts_toDigits n hrest]
  have happend := appendDigits_eq 0 (Nat.toDigits 10 n) (by rwa [Nat.ofDigitChars_ten_toDigits])
  rw [Nat.ofDigitChars_ten_toDigits] at happend
  simp [NumberParts.value, happend]

/-! ## Texts that are plain -/

theorem isPlainText_toString (n : Nat) : isPlainText (toString n) = true := by
  rw [isPlainText_iff, Nat.toString_eq_ofList_toDigits, String.toList_ofList]
  intro c hc
  have hdigit := Text.isDigit_of_mem_toDigits hc
  have := toNat_toUInt8_of_digit hdigit
  refine ⟨by omega, by omega, ?_, ?_⟩
  · rintro rfl
    exact absurd hdigit (by decide)
  · rintro rfl
    exact absurd hdigit (by decide)

/-- Bytes that are written as marked digits need no escapes. -/
theorem isPlainText_hex (bytes : List UInt8) :
    isPlainText ("0x" ++ Text.Hex.encode bytes) = true := by
  have hdigit : ∀ n < 16, 32 ≤ (Text.Hex.digit n).toNat ∧ (Text.Hex.digit n).toNat < 128 ∧
      Text.Hex.digit n ≠ '"' ∧ Text.Hex.digit n ≠ '\\' := by decide
  have hmarked : ("0x" ++ Text.Hex.encode bytes).toList =
      '0' :: 'x' :: bytes.flatMap Text.Hex.encodeByte := by
    simp [Text.Hex.encode]
  rw [isPlainText_iff, hmarked]
  intro c hc
  rcases List.mem_cons.mp hc with rfl | hc
  · decide
  rcases List.mem_cons.mp hc with rfl | hc
  · decide
  · obtain ⟨n, hn, rfl⟩ := Text.Hex.exists_of_mem_encode hc
    exact hdigit n hn

theorem isPlainText_toHex (w : Word) : isPlainText w.toHex = true := isPlainText_hex w.toBytes

/-! ## Values and tables -/

theorem readValue_space (fuel : Nat) (bytes : List UInt8) :
    readValue fuel (0x20 :: bytes) = readValue fuel bytes := by
  cases fuel with
  | zero => rfl
  | succ fuel => rw [readValue.eq_def, readValue.eq_def]; simp only [skipSpaces_space (b := 0x20) rfl]

theorem isDigitByte_ne {b d : UInt8} (h : isDigitByte b = true) (hd : isDigitByte d = false) :
    b ≠ d := by
  rintro rfl
  rw [h] at hd
  contradiction

theorem readScalar_digit {b : UInt8} (h : isDigitByte b = true) (rest : List UInt8) :
    readScalar b rest = readNumber false (b :: rest) := by
  rw [readScalar.eq_def, if_neg (isDigitByte_ne h (by decide)),
    if_neg (isDigitByte_ne h (by decide)), if_pos h]

theorem readValue_scalar {b : UInt8} (hspace : isSpace b = false) (hlist : b ≠ 0x5b)
    (htable : b ≠ 0x7b) (fuel : Nat) (rest : List UInt8) :
    readValue (fuel + 1) (b :: rest) = readScalar b rest := by
  rw [readValue.eq_def]
  simp only [skipSpaces_cons hspace]

theorem readValue_text {s : String} (h : isPlainText s = true) (fuel : Nat) (rest : List UInt8) :
    readValue (fuel + 1) (Utf8.encode (quoteText s) ++ rest) = (.text s, some rest) := by
  rw [encode_quoteText h, List.cons_append,
    readValue_scalar (by decide) (by decide) (by decide), readScalar.eq_def, if_pos rfl,
    List.append_assoc, List.singleton_append, readText_encode h]

theorem readValue_nat {n : Nat} (h : n < significandBound) (fuel : Nat) {rest : List UInt8}
    (hrest : EndsNumber rest) :
    readValue (fuel + 1) ((Nat.toDigits 10 n).map Char.toUInt8 ++ rest) = (.int n, some rest) := by
  have hread := readNumber_toDigits h hrest
  cases hds : Nat.toDigits 10 n with
  | nil => exact absurd hds Nat.toDigits_ne_nil
  | cons d ds =>
    have hd : isDigitByte d.toUInt8 = true :=
      isDigitByte_of_digit (Text.isDigit_of_mem_toDigits (n := n) (by simp [hds]))
    have hspace : isSpace d.toUInt8 = false := by
      have hne (b : UInt8) (hb : isDigitByte b = false) : (d.toUInt8 == b) = false := by
        simpa using isDigitByte_ne hd hb
      rw [isSpace, hne 0x20 (by decide), hne 0x0a (by decide), hne 0x0d (by decide),
        hne 0x09 (by decide)]
      rfl
    rw [hds, List.map_cons, List.cons_append] at hread
    rw [List.map_cons, List.cons_append, readValue_scalar hspace
      (isDigitByte_ne hd (by decide)) (isDigitByte_ne hd (by decide)), readScalar_digit hd, hread]

/-- Some fields behind their comma, or nothing if there are none. -/
def moreFields (depth : Nat) (fields : List (String × Json)) : List UInt8 :=
  match fields with
  | [] => []
  | _ => 0x2c :: Utf8.encode (indentedFields depth fields)

theorem encode_fields (depth : Nat) (k : String) (j : Json) (more : List (String × Json)) :
    Utf8.encode (indentedFields depth ((k, j) :: more)) =
      Utf8.encode (indent depth) ++ (Utf8.encode (quoteText k) ++
        (0x3a :: 0x20 :: (Utf8.encode (indented depth j) ++ moreFields depth more))) := by
  cases more with
  | nil =>
    simp only [indentedFields, Text.Utf8.encode_append, moreFields, List.append_nil,
      List.append_assoc]
    rfl
  | cons field more =>
    simp only [indentedFields, Text.Utf8.encode_append, moreFields, List.append_assoc]
    rfl

theorem encode_table (depth : Nat) (field : String × Json) (more : List (String × Json)) :
    Utf8.encode (indented depth (.table (field :: more))) =
      0x7b :: (Utf8.encode (indentedFields (depth + 1) (field :: more)) ++
        (Utf8.encode (indent depth) ++ [0x7d])) := by
  simp only [indented, Text.Utf8.encode_append, List.append_assoc]
  rfl

theorem skipSpaces_fields {k : String} {j : Json} {more : List (String × Json)} (depth : Nat)
    (h : isPlainText k = true) (bytes : List UInt8) :
    skipSpaces (Utf8.encode (indentedFields depth ((k, j) :: more)) ++ bytes) =
      0x22 :: (Utf8.encode k ++ 0x22 :: 0x3a :: 0x20 ::
        (Utf8.encode (indented depth j) ++ (moreFields depth more ++ bytes))) := by
  rw [encode_fields, List.append_assoc, skipSpaces_indent, encode_quoteText h]
  simp only [List.append_assoc, List.cons_append, List.nil_append]
  rw [skipSpaces_cons (by decide)]

theorem endsNumber_more (depth d : Nat) (more : List (String × Json)) (rest : List UInt8) :
    EndsNumber (moreFields depth more ++ (Utf8.encode (indent d) ++ rest)) := by
  cases more with
  | nil => simp [EndsNumber, moreFields, encode_indent]
  | cons field more => simp [EndsNumber, moreFields]

theorem readFields_close {fuel : Nat} (hf : 0 < fuel) (first : Bool) (d : Nat) (rest : List UInt8) :
    readFields fuel first (Utf8.encode (indent d) ++ 0x7d :: rest) = ([], some rest) := by
  obtain ⟨fuel, rfl⟩ : ∃ n, fuel = n + 1 := ⟨fuel - 1, by omega⟩
  rw [readFields, skipSpaces_indent, skipSpaces_cons (by decide)]
  rfl

theorem readFields_brace {fuel : Nat} (hf : 0 < fuel) (first : Bool) (rest : List UInt8) :
    readFields fuel first (0x7d :: rest) = ([], some rest) := by
  obtain ⟨fuel, rfl⟩ : ∃ n, fuel = n + 1 := ⟨fuel - 1, by omega⟩
  rw [readFields, skipSpaces_cons (by decide)]
  rfl

theorem readFields_first {fuel : Nat} {bytes tail : List UInt8} (h : skipSpaces bytes = 0x22 :: tail) :
    readFields (fuel + 1) true bytes = readField fuel (skipSpaces bytes) := by
  rw [readFields, h]
  rfl

theorem readFields_comma {fuel : Nat} {bytes tail : List UInt8} (h : skipSpaces bytes = 0x22 :: tail) :
    readFields (fuel + 1) false (0x2c :: bytes) = readField fuel (skipSpaces bytes) := by
  rw [readFields, skipSpaces_cons (by decide)]
  simp [h]

theorem readField_plain {k : String} (h : isPlainText k = true) {fuel : Nat} {t : Tree}
    {fields : List (String × Tree)} {bytes after rest : List UInt8}
    (hvalue : readValue fuel bytes = (t, some after))
    (hmore : readFields fuel false after = (fields, some rest)) :
    readField (fuel + 1) (0x22 :: (Utf8.encode k ++ 0x22 :: 0x3a :: bytes)) =
      ((k, t) :: fields, some rest) := by
  rw [readField]
  simp only [readText_encode h, skipSpaces_cons (b := 0x3a) rfl, hvalue, hmore]

theorem readValue_table {fuel : Nat} {fields : List (String × Tree)} {bytes rest : List UInt8}
    (h : readFields fuel true bytes = (fields, some rest)) :
    readValue (fuel + 1) (0x7b :: bytes) = (.table fields, some rest) := by
  rw [readValue, skipSpaces_cons (by decide)]
  simp only [h]

theorem indented_text (depth : Nat) (s : String) : indented depth (.text s) = quoteText s := by
  simp [indented, compact]

theorem encode_int {n : Int} (h : 0 ≤ n) (depth : Nat) :
    Utf8.encode (indented depth (.int n)) = (Nat.toDigits 10 n.toNat).map Char.toUInt8 := by
  obtain ⟨m, rfl⟩ := Int.eq_ofNat_of_zero_le h
  have hascii : ∀ c ∈ Nat.toDigits 10 m, c.toNat < 128 := by
    intro c hc
    have := toNat_toUInt8_of_digit (Text.isDigit_of_mem_toDigits hc)
    omega
  have htext : indented depth (.int m) = String.ofList (Nat.toDigits 10 m) := by
    simp only [indented, compact]
    exact Nat.toString_eq_ofList_toDigits
  rw [htext, Text.Utf8.encode_ascii _ hascii, Int.toNat_natCast]

mutual

/-- A plain value is read back; the fuel that it takes is bounded by the length of its text. -/
theorem readValue_indented (depth fuel : Nat) (rest : List UInt8) : (j : Json) → isPlain j = true →
    EndsNumber rest → (Utf8.encode (indented depth j)).length ≤ fuel →
    readValue fuel (Utf8.encode (indented depth j) ++ rest) = (j.toTree, some rest)
  | .int n, h, hrest, hf => by
    obtain ⟨hn, hlt⟩ : 0 ≤ n ∧ n < significandBound := by simpa [isPlain] using h
    rw [encode_int hn] at hf ⊢
    have hlen := List.length_pos_iff.mpr (Nat.toDigits_ne_nil (b := 10) (n := n.toNat))
    obtain ⟨fuel, rfl⟩ : ∃ m, fuel = m + 1 := ⟨fuel - 1, by rw [List.length_map] at hf; omega⟩
    rw [readValue_nat (by omega) fuel hrest, toTree, Int.toNat_of_nonneg hn]
  | .text s, h, _, hf => by
    rw [indented_text] at hf ⊢
    obtain ⟨fuel, rfl⟩ : ∃ m, fuel = m + 1 := ⟨fuel - 1, by
      rw [encode_quoteText h, List.length_cons] at hf
      omega⟩
    rw [readValue_text h, toTree]
  | .table [], _, _, hf => by
    have htext : Utf8.encode (indented depth (.table [])) = [0x7b, 0x7d] := by
      simp only [indented]
      rfl
    rw [htext] at hf ⊢
    rw [List.length_cons, List.length_cons] at hf
    obtain ⟨fuel, rfl⟩ : ∃ m, fuel = m + 2 := ⟨fuel - 2, by omega⟩
    exact readValue_table (readFields_brace (by omega) true rest)
  | .table ((k, j) :: more), h, _, hf => by
    have hk : isPlainText k = true := by
      simp only [isPlain, arePlain, Bool.and_eq_true] at h
      exact h.1.1
    rw [encode_table] at hf ⊢
    simp only [List.length_cons, List.length_append, length_indent, List.length_nil] at hf
    obtain ⟨fuel, rfl⟩ : ∃ m, fuel = m + 2 := ⟨fuel - 2, by omega⟩
    have hfields := readField_indented (depth + 1) fuel depth rest ((k, j) :: more) (by simp)
      (by simpa [isPlain] using h) (by omega)
    rw [← readFields_first (skipSpaces_fields (depth + 1) hk _)] at hfields
    simpa [toTree] using readValue_table hfields

/-- The fields of a plain table are read back, up to its brace. -/
theorem readField_indented (depth fuel d : Nat) (rest : List UInt8) :
    (fields : List (String × Json)) → fields ≠ [] → arePlain fields = true →
    (Utf8.encode (indentedFields depth fields)).length ≤ fuel →
    readField fuel (skipSpaces (Utf8.encode (indentedFields depth fields) ++
      (Utf8.encode (indent d) ++ 0x7d :: rest))) = (treesOfFields fields, some rest)
  | [], hne, _, _ => absurd rfl hne
  | (k, j) :: more, _, h, hf => by
    obtain ⟨⟨hk, hj⟩, hmore⟩ : (isPlainText k = true ∧ isPlain j = true) ∧ arePlain more = true := by
      simpa [arePlain] using h
    rw [skipSpaces_fields depth hk]
    rw [encode_fields] at hf
    simp only [List.length_cons, List.length_append, length_indent, encode_quoteText hk] at hf
    obtain ⟨fuel, rfl⟩ : ∃ m, fuel = m + 1 := ⟨fuel - 1, by omega⟩
    have hvalue := readValue_indented depth fuel _ j hj (endsNumber_more depth d more
      (0x7d :: rest)) (by omega)
    rw [← readValue_space] at hvalue
    refine readField_plain hk hvalue ?_
    cases more with
    | nil => exact readFields_close (by omega) false d rest
    | cons field more =>
      simp only [moreFields, List.length_cons] at hf
      obtain ⟨fuel, rfl⟩ : ∃ m, fuel = m + 1 := ⟨fuel - 1, by omega⟩
      have hfield : isPlainText field.1 = true := by
        simp only [arePlain, Bool.and_eq_true] at hmore
        exact hmore.1.1
      have hrest := readField_indented depth fuel d rest (field :: more) (by simp) hmore (by omega)
      rw [← readFields_comma (skipSpaces_fields depth hfield _)] at hrest
      exact hrest

end

/-- The document that a plain value is written as is read back. -/
theorem readDocument_pretty {j : Json} (h : isPlain j = true) :
    readDocument (Utf8.encode j.pretty) = (j.toTree, none) := by
  have hread := readValue_indented 0 (3 * (Utf8.encode j.pretty).length + 3) [] j h endsNumber_nil
    (by rw [← pretty]; omega)
  rw [List.append_nil, ← pretty] at hread
  rw [readDocument, hread]
  rfl

end Paymaster.Json

/-- A text is decoded to what a reader makes of it. -/
theorem Paymaster.Document.Decoder.parsed_text {α ε : Type} {read : String → Except ε α}
    {message : ε → String} {s : String} {a : α} (h : read s = .ok a) :
    parsed read message (.text s) = .ok a := by
  have htext : text (.text s) = .ok s := rfl
  rw [parsed, htext]
  simp only [bind, Except.bind, h]
  rfl

import Paymaster.Proofs.Http.PercentDecode
/-!
# Queries read back

There are many ways to write the keys and values of a query, since each character may be escaped or
not. Here writing is a relation: it says which texts stand for some keys and values, and all of them
are read back alike, for the separators of a query stand for themselves only.
-/

namespace Paymaster.Http

open Text

/-! ## Ways to write a text -/

/-- The characters write each byte as a percent sign and two digits of either case. -/
inductive WritesBytes : List UInt8 → List Char → Prop
  | nil : WritesBytes [] []
  | cons {b : UInt8} {x y : Char} {bytes : List UInt8} {written : List Char}
      (hx : Hex.isDigit x = true) (hy : Hex.isDigit y = true)
      (hb : 16 * Hex.digitValue x + Hex.digitValue y = b.toNat) (rest : WritesBytes bytes written) :
      WritesBytes (b :: bytes) ('%' :: x :: y :: written)

/-- The ways to write a character: for itself if it is plain, a blank as a plus sign, and any
character by the bytes of its UTF-8 form. -/
inductive WritesChar (plain : Char → Bool) : Char → List Char → Prop
  | plain {c : Char} (h : plain c = true) : WritesChar plain c [c]
  | plus : WritesChar plain ' ' ['+']
  | escaped {c : Char} {written : List Char} (h : WritesBytes (String.utf8EncodeChar c) written) :
      WritesChar plain c written

/-- A text is written character by character. -/
inductive WritesText (plain : Char → Bool) : List Char → List Char → Prop
  | nil : WritesText plain [] []
  | cons {c : Char} {cs front back : List Char} (first : WritesChar plain c front)
      (rest : WritesText plain cs back) : WritesText plain (c :: cs) (front ++ back)

/-- The characters that may stand for themselves in a value. -/
def plainInValue (c : Char) : Bool := !isBlank c && c != '%' && c != '+' && c != '&'

/-- The characters that may stand for themselves in a key. -/
def plainInKey (c : Char) : Bool := plainInValue c && c != '='

/-- The parts write the entries in order, with any number of empty parts between them. -/
inductive WritesQuery : Query → List (List Char) → Prop
  | nil : WritesQuery [] []
  | entry {k v : String} {es : Query} {key value : List Char} {parts : List (List Char)}
      (hkey : WritesText plainInKey k.toList key) (hvalue : WritesText plainInValue v.toList value)
      (rest : WritesQuery es parts) : WritesQuery ((k, v) :: es) ((key ++ '=' :: value) :: parts)
  | empty {es : Query} {parts : List (List Char)} (rest : WritesQuery es parts) :
      WritesQuery es ([] :: parts)

section Writing

variable {plain : Char → Bool} {c d : Char} {cs written : List Char} {bytes rest : List UInt8}

theorem percentDecode_writesBytes (h : WritesBytes bytes written) (rest : List UInt8) :
    percentDecode (written.flatMap String.utf8EncodeChar ++ rest) =
      bytes ++ percentDecode rest := by
  induction h with
  | nil => rfl
  | @cons b x y bytes written hx hy hb _ ih =>
    have hbyte : UInt8.ofNat (16 * Hex.digitValue x + Hex.digitValue y) = b := by
      rw [hb, UInt8.ofNat_toNat]
    have hpercent : String.utf8EncodeChar '%' = [0x25] := by decide
    rw [List.flatMap_cons, List.flatMap_cons, List.flatMap_cons, hpercent,
      utf8EncodeChar_ascii (Hex.toNat_lt_of_isDigit hx),
      utf8EncodeChar_ascii (Hex.toNat_lt_of_isDigit hy)]
    change percentDecode (0x25 :: x.toUInt8 :: y.toUInt8 :: _) = _
    rw [percentDecode_escape (Hex.value?_of_isDigit hx).1 (Hex.value?_of_isDigit hy).1, hbyte]
    exact congrArg (b :: ·) ih

theorem percentDecode_writesChar (hplain : ∀ c, plain c = true → c ≠ '%' ∧ c ≠ '+')
    (h : WritesChar plain c written) (rest : List UInt8) :
    percentDecode (written.flatMap String.utf8EncodeChar ++ rest) =
      String.utf8EncodeChar c ++ percentDecode rest := by
  cases h with
  | plain hc =>
    obtain ⟨hpercent, hplus⟩ := hplain c hc
    rw [List.flatMap_singleton]
    refine percentDecode_append_plain (fun b hb => ⟨?_, ?_⟩) rest
    · rintro rfl
      exact hpercent (Char.toNat_inj.mp (toNat_of_mem_utf8EncodeChar hb (by decide)))
    · rintro rfl
      exact hplus (Char.toNat_inj.mp (toNat_of_mem_utf8EncodeChar hb (by decide)))
  | plus => exact percentDecode_plus rest
  | escaped hbytes => exact percentDecode_writesBytes hbytes rest

theorem percentDecode_writesText (hplain : ∀ c, plain c = true → c ≠ '%' ∧ c ≠ '+')
    (h : WritesText plain cs written) :
    percentDecode (written.flatMap String.utf8EncodeChar) = cs.flatMap String.utf8EncodeChar := by
  induction h with
  | nil => rfl
  | cons first _ ih =>
    rw [List.flatMap_append, percentDecode_writesChar hplain first, ih, List.flatMap_cons]

/-- Whatever stands for a text is read as the text. -/
theorem unescape_writesText {s : String} (hplain : ∀ c, plain c = true → c ≠ '%' ∧ c ≠ '+')
    (h : WritesText plain s.toList written) : unescape written = s := by
  have hs : s.toList.flatMap String.utf8EncodeChar = Utf8.encode s := by
    rw [← Utf8.encode_ofList, String.ofList_toList]
  rw [unescape, Utf8.encode_ofList, percentDecode_writesText hplain h, hs,
    Utf8.decodeLossy_encode]

/-! ### Separators stand for themselves only -/

theorem WritesBytes.not_mem (hd : d ≠ '%') (hdigit : Hex.isDigit d = false)
    (h : WritesBytes bytes written) : d ∉ written := by
  have hne : ∀ c, Hex.isDigit c = true → d ≠ c := by
    rintro c hc rfl
    rw [hc] at hdigit
    cases hdigit
  induction h with
  | nil => exact List.not_mem_nil
  | cons hx hy _ _ ih => simp [hd, hne _ hx, hne _ hy, ih]

theorem WritesText.not_mem (hd : d ≠ '%') (hdigit : Hex.isDigit d = false) (hplus : d ≠ '+')
    (hplain : plain d = false) (h : WritesText plain cs written) : d ∉ written := by
  induction h with
  | nil => exact List.not_mem_nil
  | cons first _ ih =>
    rw [List.mem_append, not_or]
    refine ⟨?_, ih⟩
    cases first with
    | plain hc =>
      rw [List.mem_singleton]
      rintro rfl
      rw [hc] at hplain
      cases hplain
    | plus => rwa [List.mem_singleton]
    | escaped hbytes => exact hbytes.not_mem hd hdigit

end Writing

/-! ## Every query is written -/

section Exists

theorem exists_writesBytes (bytes : List UInt8) : ∃ written, WritesBytes bytes written := by
  have hdigit : ∀ n < 16, Hex.isDigit (Hex.digit n) = true ∧ Hex.digitValue (Hex.digit n) = n := by
    decide
  induction bytes with
  | nil => exact ⟨[], .nil⟩
  | cons b bytes ih =>
    obtain ⟨written, h⟩ := ih
    have hb := b.toNat_lt
    obtain ⟨hhigh, hhigh'⟩ := hdigit (b.toNat / 16) (by omega)
    obtain ⟨hlow, hlow'⟩ := hdigit (b.toNat % 16) (by omega)
    exact ⟨_, .cons hhigh hlow (by omega) h⟩

theorem exists_writesText (plain : Char → Bool) (cs : List Char) :
    ∃ written, WritesText plain cs written := by
  induction cs with
  | nil => exact ⟨[], .nil⟩
  | cons c cs ih =>
    obtain ⟨front, hfront⟩ := exists_writesBytes (String.utf8EncodeChar c)
    obtain ⟨back, hback⟩ := ih
    exact ⟨front ++ back, .cons (.escaped hfront) hback⟩

/-- There is a way to write any query: every character can be escaped. -/
theorem exists_writesQuery (es : Query) : ∃ parts, WritesQuery es parts := by
  induction es with
  | nil => exact ⟨[], .nil⟩
  | cons e es ih =>
    obtain ⟨key, hkey⟩ := exists_writesText plainInKey e.1.toList
    obtain ⟨value, hvalue⟩ := exists_writesText plainInValue e.2.toList
    obtain ⟨parts, h⟩ := ih
    exact ⟨_, .entry hkey hvalue h⟩

end Exists

/-! ## Reading a query -/

section Reading

variable {es : Query} {parts : List (List Char)} {k v : String}

theorem plainInValue_ne {c : Char} (h : plainInValue c = true) : c ≠ '%' ∧ c ≠ '+' := by
  simp only [plainInValue, Bool.and_eq_true, bne_iff_ne] at h
  exact ⟨h.1.1.2, h.1.2⟩

theorem plainInKey_ne {c : Char} (h : plainInKey c = true) : c ≠ '%' ∧ c ≠ '+' := by
  rw [plainInKey, Bool.and_eq_true] at h
  exact plainInValue_ne h.1

/-- No part holds the separator of parts. -/
theorem WritesQuery.not_mem (h : WritesQuery es parts) : ∀ part ∈ parts, '&' ∉ part := by
  induction h with
  | nil => simp
  | entry hkey hvalue _ ih =>
    refine List.forall_mem_cons.mpr ⟨?_, ih⟩
    have hkey' := hkey.not_mem (d := '&') (by decide) (by decide) (by decide) (by decide)
    have hvalue' := hvalue.not_mem (d := '&') (by decide) (by decide) (by decide) (by decide)
    simp [hkey', hvalue']
  | empty _ ih => exact List.forall_mem_cons.mpr ⟨List.not_mem_nil, ih⟩

theorem ofPart_entry {key value : List Char} (hkey : WritesText plainInKey k.toList key)
    (hvalue : WritesText plainInValue v.toList value) :
    Query.ofPart (key ++ '=' :: value) = (k, v) := by
  have heq : '=' ∉ key := hkey.not_mem (by decide) (by decide) (by decide) (by decide)
  have hread : Query.ofPart (key ++ '=' :: value) = (unescape key, unescape value) := by
    rw [Query.ofPart, cut_append heq]
  rw [hread, unescape_writesText (fun _ => plainInKey_ne) hkey,
    unescape_writesText (fun _ => plainInValue_ne) hvalue]

/-- The entries of a query are read from the parts that are not empty. -/
theorem WritesQuery.map_ofPart (h : WritesQuery es parts) :
    (parts.filter fun part => !part.all isBlank).map Query.ofPart = es := by
  induction h with
  | nil => rfl
  | @entry k v es key value parts hkey hvalue _ ih =>
    have hkept : (key ++ '=' :: value).all isBlank = false := by
      rw [List.all_append, List.all_cons, show isBlank '=' = false by decide, Bool.false_and,
        Bool.and_false]
    rw [List.filter_cons_of_pos (by simp [hkept]), List.map_cons, ofPart_entry hkey hvalue, ih]
  | empty _ ih => rwa [List.filter_cons_of_neg (by simp)]

/-- Whatever stands for a query is read as the query. -/
theorem WritesQuery.parse_eq (h : WritesQuery es parts) :
    Query.parse (String.ofList (['&'].intercalate parts)) = es := by
  rw [Query.parse, String.toList_ofList]
  cases parts with
  | nil =>
    cases h
    decide
  | cons part parts =>
    rw [splitOn_intercalate (List.cons_ne_nil part parts) h.not_mem, h.map_ofPart]

/-- A key has the value that stands last. -/
theorem Query.get?_eq_some : es.get? k = some v ↔
    ∃ before after, es = before ++ (k, v) :: after ∧ k ∉ after.map Prod.fst := by
  rw [Query.get?, List.lookup_eq_some_iff]
  constructor
  · rintro ⟨after, before, hes, hafter⟩
    refine ⟨before.reverse, after.reverse, ?_, ?_⟩
    · rw [← List.reverse_reverse es, hes]
      simp
    · rw [List.map_reverse, List.mem_reverse, List.mem_map]
      rintro ⟨p, hp, rfl⟩
      simpa using hafter p hp
  · rintro ⟨before, after, rfl, hafter⟩
    refine ⟨after.reverse, before.reverse, by simp, fun p hp => ?_⟩
    rw [bne_iff_ne]
    rintro rfl
    exact hafter (List.mem_map_of_mem (List.mem_reverse.mp hp))

/-- If no key stands twice, a key has the value that stands with it. -/
theorem Query.get?_eq_some_of_nodup (h : (es.map Prod.fst).Nodup) :
    es.get? k = some v ↔ (k, v) ∈ es := by
  rw [Query.get?_eq_some]
  constructor
  · rintro ⟨before, after, rfl, -⟩
    simp
  · intro hmem
    obtain ⟨before, after, rfl⟩ := List.append_of_mem hmem
    rw [List.map_append, List.map_cons] at h
    exact ⟨before, after, rfl, (List.nodup_cons.mp (List.nodup_append.mp h).2.1).1⟩

end Reading

/-- Whatever stands for a query is read as its map: a key has the value written last for it, so just
its value if no key is written twice. The decoder ends within one round for each byte, and leaves a
percent sign without two digits behind it as it is. -/
theorem query_reads_back :
    (∀ es parts, WritesQuery es parts →
      let read := Query.parse (String.ofList (['&'].intercalate parts))
      ((es.map Prod.fst).Nodup → ∀ k v, read.get? k = some v ↔ (k, v) ∈ es) ∧
      ∀ k v, read.get? k = some v ↔
        ∃ before after, es = before ++ (k, v) :: after ∧ k ∉ after.map Prod.fst) ∧
    (∀ bytes, decodeLoop bytes bytes.length 0 [] = some (percentDecode bytes)) ∧
    ∀ front rest : List Char, (∀ x y more, rest = x :: y :: more →
        ¬(Hex.isDigit x = true ∧ Hex.isDigit y = true)) →
      unescape (front ++ '%' :: rest) = unescape front ++ "%" ++ unescape rest := by
  refine ⟨fun es parts h => ?_, fun bytes => ?_, fun front rest h => unescape_stray h front⟩
  · simp only [h.parse_eq]
    exact ⟨fun hnodup _ _ => Query.get?_eq_some_of_nodup hnodup, fun _ _ => Query.get?_eq_some⟩
  · rw [decodeLoop_eq (by omega), List.drop_zero, List.nil_append]

/-- Escapes of either case, a plus sign, an empty part and a literal sign of equality. -/
theorem query_reads_back_escaped :
    let es : Query := [("é", "a b"), ("k", "=")]
    let parts := [[], ['%', 'c', '3', '%', 'A', '9', '=', 'a', '+', 'b'], ['k', '=', '=']]
    WritesQuery es parts ∧ (es.map Prod.fst).Nodup ∧
      (Query.parse (String.ofList (['&'].intercalate parts))).get? "é" = some "a b" ∧
      unescape ['1', '0', '0', '%'] = unescape ['1', '0', '0'] ++ "%" ++ unescape [] := by
  have hbytes : WritesBytes (String.utf8EncodeChar 'é') ['%', 'c', '3', '%', 'A', '9'] :=
    .cons (by decide) (by decide) (by decide) (.cons (by decide) (by decide) (by decide) .nil)
  have haccent : WritesText plainInKey ['é'] ['%', 'c', '3', '%', 'A', '9'] :=
    .cons (.escaped hbytes) .nil
  have hblank : WritesText plainInValue ['a', ' ', 'b'] ['a', '+', 'b'] :=
    .cons (.plain (by decide)) (.cons .plus (.cons (.plain (by decide)) .nil))
  have hk : WritesText plainInKey ['k'] ['k'] := .cons (.plain (by decide)) .nil
  have heq : WritesText plainInValue ['='] ['='] := .cons (.plain (by decide)) .nil
  have hwrites : WritesQuery [("é", "a b"), ("k", "=")]
      [[], ['%', 'c', '3', '%', 'A', '9', '=', 'a', '+', 'b'], ['k', '=', '=']] :=
    .empty (.entry (k := "é") (v := "a b") haccent hblank
      (.entry (k := "k") (v := "=") hk heq .nil))
  have hnodup : (["é", "k"] : List String).Nodup := by decide
  exact ⟨hwrites, hnodup, ((query_reads_back.1 _ _ hwrites).1 hnodup "é" "a b").mpr (by simp),
    query_reads_back.2.2 ['1', '0', '0'] [] (by simp)⟩

end Paymaster.Http

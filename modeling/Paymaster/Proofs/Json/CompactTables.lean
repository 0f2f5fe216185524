import Paymaster.Proofs.Json.ReadBack
/-!
# Compact tables read back

A reply holds a table without blanks whose values have no parts: truth values, natural numbers and
texts. If the keys and the texts need no escapes, the table is read back from its bytes. What is
read has its fields in the order of their keys, so each field is looked up under its key.
-/

namespace Paymaster.Json

open Document (Tree)
open Text (Utf8.encode)

/-- A truth value, a natural number of 64 bits or a plain text. -/
def isFlat : Json → Bool
  | .bool _ => true
  | .int n => 0 ≤ n && n < significandBound
  | .text s => isPlainText s
  | .null | .float _ | .list _ | .table _ => false

/-- Fields with plain keys and flat values. -/
def areFlat (fields : List (String × Json)) : Bool :=
  fields.all fun x => isPlainText x.1 && isFlat x.2

theorem areFlat_cons (k : String) (j : Json) (rest : List (String × Json)) :
    areFlat ((k, j) :: rest) = (isPlainText k && isFlat j && areFlat rest) := by
  rw [areFlat, List.all_cons, areFlat]

/-! ## Fields -/

/-- Some fields behind their comma, or nothing if there are none. -/
def moreCompact : List (String × Json) → List UInt8
  | [] => []
  | fields => 0x2c :: Utf8.encode (compactFields fields)

theorem encode_compactFields {k : String} (hk : isPlainText k = true) (j : Json)
    (more : List (String × Json)) :
    Utf8.encode (compactFields ((k, j) :: more)) = 0x22 :: (Utf8.encode k ++
      0x22 :: 0x3a :: (Utf8.encode (compact j) ++ moreCompact more)) := by
  have hcolon : Utf8.encode ":" = [0x3a] := by decide
  have hcomma : Utf8.encode "," = [0x2c] := by decide
  cases more with
  | nil =>
    simp [compactFields, Text.Utf8.encode_append, encode_quoteText hk, hcolon, moreCompact]
  | cons field more =>
    simp [compactFields, Text.Utf8.encode_append, encode_quoteText hk, hcolon, hcomma, moreCompact]

theorem skipSpaces_compactFields {k : String} (hk : isPlainText k = true) (j : Json)
    (more : List (String × Json)) (bytes : List UInt8) :
    skipSpaces (Utf8.encode (compactFields ((k, j) :: more)) ++ bytes) =
      0x22 :: (Utf8.encode k ++ 0x22 :: 0x3a :: (Utf8.encode (compact j) ++
        (moreCompact more ++ bytes))) := by
  rw [encode_compactFields hk, List.cons_append, skipSpaces_cons (by decide)]
  simp only [List.append_assoc, List.cons_append]

theorem endsNumber_moreCompact (more : List (String × Json)) (rest : List UInt8) :
    EndsNumber (moreCompact more ++ 0x7d :: rest) := by
  cases more with
  | nil => simp [EndsNumber, moreCompact]
  | cons field more => simp [EndsNumber, moreCompact]

theorem readValue_bool (b : Bool) (fuel : Nat) (rest : List UInt8) :
    readValue (fuel + 1) (Utf8.encode (compact (.bool b)) ++ rest) = (.bool b, some rest) := by
  cases b with
  | true =>
    have hbytes : Utf8.encode (compact (.bool true)) = [0x74, 0x72, 0x75, 0x65] := by decide
    rw [hbytes, List.cons_append, readValue_scalar (by decide) (by decide) (by decide)]
    rfl
  | false =>
    have hbytes : Utf8.encode (compact (.bool false)) = [0x66, 0x61, 0x6c, 0x73, 0x65] := by decide
    rw [hbytes, List.cons_append, readValue_scalar (by decide) (by decide) (by decide)]
    rfl

/-- A flat value is read back in front of whatever ends a number. -/
theorem readValue_flat {j : Json} (h : isFlat j = true) {fuel : Nat} {rest : List UInt8}
    (hrest : EndsNumber rest) (hf : (Utf8.encode (compact j)).length ≤ fuel) :
    readValue fuel (Utf8.encode (compact j) ++ rest) = (j.toTree, some rest) := by
  cases j with
  | bool b =>
    obtain ⟨fuel, rfl⟩ : ∃ n, fuel = n + 1 := by
      have hpos : 0 < (Utf8.encode (compact (.bool b))).length := by cases b <;> decide
      exact ⟨fuel - 1, by omega⟩
    exact readValue_bool b fuel rest
  | int n =>
    have hread := readValue_indented 0 fuel rest (.int n) h hrest
    simp only [indented] at hread
    exact hread hf
  | text s =>
    have hread := readValue_indented 0 fuel rest (.text s) h hrest
    simp only [indented] at hread
    exact hread hf
  | null | float | list | table => cases h

/-- The fields of a compact table of flat values are read back, up to its brace. -/
theorem readField_flat (rest : List UInt8) : (fuel : Nat) → (fields : List (String × Json)) →
    fields ≠ [] → areFlat fields = true → (Utf8.encode (compactFields fields)).length ≤ fuel →
    readField fuel (skipSpaces (Utf8.encode (compactFields fields) ++ 0x7d :: rest)) =
      (treesOfFields fields, some rest)
  | _, [], hne, _, _ => absurd rfl hne
  | fuel, (k, j) :: more, _, h, hf => by
    obtain ⟨⟨hk, hj⟩, hmore⟩ :
        (isPlainText k = true ∧ isFlat j = true) ∧ areFlat more = true := by
      simpa [areFlat] using h
    rw [skipSpaces_compactFields hk]
    rw [encode_compactFields hk] at hf
    simp only [List.length_cons, List.length_append] at hf
    obtain ⟨fuel, rfl⟩ : ∃ m, fuel = m + 2 := ⟨fuel - 2, by omega⟩
    refine readField_plain hk
      (readValue_flat hj (endsNumber_moreCompact more rest) (by omega)) ?_
    cases more with
    | nil => exact readFields_brace (by omega) false rest
    | cons field more =>
      have hfield : isPlainText field.1 = true := by
        simp only [areFlat, List.all_cons, Bool.and_eq_true] at hmore
        exact hmore.1.1
      have hrest := readField_flat rest fuel (field :: more) (by simp) hmore (by
        simp only [moreCompact, List.length_cons] at hf
        omega)
      rw [← readFields_comma (skipSpaces_compactFields hfield _ _ _)] at hrest
      exact hrest

/-! ## Tables -/

theorem encode_compact_table (fields : List (String × Json)) :
    Utf8.encode (compact (.table fields)) =
      0x7b :: (Utf8.encode (compactFields fields) ++ [0x7d]) := by
  simp only [compact, Text.Utf8.encode_append]
  rfl

/-- The document that a compact table of flat values is written as is read back. -/
theorem readDocument_flat {field : String × Json} {more : List (String × Json)}
    (h : areFlat (field :: more) = true) :
    readDocument (Utf8.encode (compact (.table (field :: more)))) =
      (toTree (.table (field :: more)), none) := by
  have hk : isPlainText field.1 = true := by
    simp only [areFlat, List.all_cons, Bool.and_eq_true] at h
    exact h.1.1
  rw [readDocument, encode_compact_table]
  generalize hsize : (0x7b :: (Utf8.encode (compactFields (field :: more)) ++ [0x7d])).length = size
  have hfields := readField_flat [] (3 * size + 1) (field :: more) (by simp) h (by
    simp only [List.length_cons, List.length_append] at hsize
    omega)
  rw [← readFields_first (skipSpaces_compactFields hk _ _ _)] at hfields
  rw [readValue_table hfields]
  rfl

/-- Fields that hold texts. -/
def textFields (texts : List (String × String)) : List (String × Json) :=
  texts.map fun x => (x.1, .text x.2)

/-- The keys and the texts need no escapes. -/
def arePlainTexts (texts : List (String × String)) : Bool :=
  texts.all fun x => isPlainText x.1 && isPlainText x.2

/-- The document that a compact table of plain texts is written as is read back. -/
theorem readDocument_texts {k s : String} {more : List (String × String)}
    (h : arePlainTexts ((k, s) :: more) = true) :
    readDocument (Utf8.encode (compact (.table (textFields ((k, s) :: more))))) =
      (toTree (.table (textFields ((k, s) :: more))), none) := by
  have hflat : areFlat (textFields ((k, s) :: more)) = true := by
    rw [areFlat, textFields, List.all_map]
    exact h
  exact readDocument_flat hflat

/-! ## Values -/

theorem lookup_insertField (key k : String) (j : Json) (fields : List (String × Json)) :
    (insertField key j fields).lookup k = if k = key then some j else fields.lookup k := by
  have hcons (l : String) (i : Json) (rest : List (String × Json)) :
      ((l, i) :: rest).lookup k = if k = l then some i else rest.lookup k := by
    rw [List.lookup_cons]
    by_cases h : k = l
    · simp [h]
    · rw [beq_false_of_ne h, if_neg h]
  induction fields with
  | nil => exact hcons key j []
  | cons field rest ih =>
    obtain ⟨l, i⟩ := field
    rw [insertField]
    by_cases hsame : key = l
    · subst hsame
      rw [if_pos rfl, hcons, hcons]
      by_cases h : k = key
      · rw [if_pos h, if_pos h]
      · rw [if_neg h, if_neg h, if_neg h]
    · rw [if_neg hsame]
      by_cases hless : key < l
      · rw [if_pos hless, hcons]
      · rw [if_neg hless, hcons, hcons, ih]
        by_cases h : k = key
        · rw [if_pos h, if_pos h, if_neg (h ▸ hsame)]
        · rw [if_neg h, if_neg h]

theorem ofTreeWithin_flat {j : Json} (h : isFlat j = true) (depth : Nat) :
    ofTreeWithin depth j.toTree = .ok j := by
  cases j with
  | bool | int | text => simp [toTree, ofTreeWithin]
  | null | float | list | table => cases h

/-- The fields that are read have the values that were written, each under its key. -/
theorem exists_fieldsWithin (depth : Nat) {fields : List (String × Json)}
    (h : areFlat fields = true) (before : List (String × Json)) :
    ∃ after, fieldsWithin depth before (treesOfFields fields) = .ok after ∧
      ((fields.map (·.1)).Nodup →
        ∀ k, after.lookup k = ((fields.lookup k).or (before.lookup k))) := by
  induction fields generalizing before with
  | nil => exact ⟨before, by simp [treesOfFields, fieldsWithin], by simp⟩
  | cons field more ih =>
    obtain ⟨k, j⟩ := field
    obtain ⟨⟨hk, hj⟩, hmore⟩ :
        (isPlainText k = true ∧ isFlat j = true) ∧ areFlat more = true := by
      simpa [areFlat] using h
    obtain ⟨after, hafter, hlookup⟩ := ih hmore (insertField k j before)
    refine ⟨after, ?_, fun hnodup l => ?_⟩
    · rw [treesOfFields, fieldsWithin, ofTreeWithin_flat hj]
      exact hafter
    · obtain ⟨hnot, hnodup⟩ := List.nodup_cons.mp hnodup
      rw [hlookup hnodup, lookup_insertField, List.lookup_cons]
      by_cases hl : l = k
      · subst hl
        have hnone : more.lookup l = none := by
          rw [List.lookup_eq_none_iff]
          intro x hx
          have hne : l ≠ x.1 := by
            rintro rfl
            exact hnot (List.mem_map.mpr ⟨x, hx, rfl⟩)
          simpa using hne
        simp [hnone]
      · rw [beq_false_of_ne hl, if_neg hl]

/-- A compact table of flat values is read, and has its values under their keys. -/
theorem exists_parse_compact {field : String × Json} {more : List (String × Json)}
    (h : areFlat (field :: more) = true) (hnodup : ((field :: more).map (·.1)).Nodup) :
    ∃ j, parse (Utf8.encode (compact (.table (field :: more)))) = .ok j ∧
      ∀ key, j.get? key = (field :: more).lookup key := by
  obtain ⟨after, hafter, hlookup⟩ := exists_fieldsWithin (maxDepth - 1) h []
  refine ⟨.table after, ?_, fun key => ?_⟩
  · rw [parse, readDocument_flat h]
    simp only [ofTree, toTree, ofTreeWithin, hafter]
    rfl
  · rw [get?, hlookup hnodup]
    simp

end Paymaster.Json

import Paymaster.Http.Query
import Paymaster.Proofs.Text.Accepted
import Paymaster.Proofs.Text.Lossy
/-!
# The percent decoder

The decoder is read in two ways: byte by byte from the front, and as a loop over places that looks
two places ahead and goes on one or three places further. A percent sign is no digit, so none is
swallowed by an escape before it; this is why a percent sign without two digits behind it stands for
itself wherever it comes.
-/

namespace Paymaster.Http

open Text

/-! ## The decoder byte by byte -/

section Decode

variable {a b : UInt8} {bytes front rest : List UInt8} {x y : Nat}

/-- Two hexadecimal digits stand first. -/
def startsWithDigits : List UInt8 → Bool
  | a :: b :: _ => (Hex.value? a).isSome && (Hex.value? b).isSome
  | _ => false

theorem startsWithDigits_iff : startsWithDigits (a :: b :: rest) = true ↔
    ∃ x y, Hex.value? a = some x ∧ Hex.value? b = some y := by
  rw [startsWithDigits, Bool.and_eq_true, Option.isSome_iff_exists, Option.isSome_iff_exists]
  constructor
  · rintro ⟨⟨x, ha⟩, y, hb⟩
    exact ⟨x, y, ha, hb⟩
  · rintro ⟨x, y, ha, hb⟩
    exact ⟨⟨x, ha⟩, y, hb⟩

theorem startsWithDigits_of_short (h : rest.length < 2) : startsWithDigits rest = false := by
  match rest with
  | [] => rfl
  | [_] => rfl
  | _ :: _ :: _ =>
    rw [List.length_cons, List.length_cons] at h
    omega

theorem percentDecode_plus (rest : List UInt8) :
    percentDecode (0x2b :: rest) = 0x20 :: percentDecode rest := by
  rw [percentDecode]

theorem percentDecode_plain (hpercent : b ≠ 0x25) (hplus : b ≠ 0x2b) (rest : List UInt8) :
    percentDecode (b :: rest) = b :: percentDecode rest := by
  rw [percentDecode]
  · exact fun _ _ _ h _ => hpercent h
  · exact hplus

theorem percentDecode_escape (ha : Hex.value? a = some x) (hb : Hex.value? b = some y)
    (rest : List UInt8) :
    percentDecode (0x25 :: a :: b :: rest) = UInt8.ofNat (16 * x + y) :: percentDecode rest := by
  rw [percentDecode, ha, hb]

/-- A percent sign without two digits behind it stands for itself. -/
theorem percentDecode_stray (h : startsWithDigits rest = false) :
    percentDecode (0x25 :: rest) = 0x25 :: percentDecode rest := by
  match rest with
  | [] => rfl
  | [_] => rfl
  | a :: b :: more =>
    rw [percentDecode]
    split
    · rename_i x y ha hb
      rw [startsWithDigits_iff.mpr ⟨x, y, ha, hb⟩] at h
      cases h
    · rfl

theorem percentDecode_append_plain (h : ∀ b ∈ front, b ≠ 0x25 ∧ b ≠ 0x2b) (rest : List UInt8) :
    percentDecode (front ++ rest) = front ++ percentDecode rest := by
  induction front with
  | nil => rfl
  | cons b front ih =>
    obtain ⟨hpercent, hplus⟩ := h b List.mem_cons_self
    rw [List.cons_append, percentDecode_plain hpercent hplus,
      ih fun d hd => h d (List.mem_cons_of_mem b hd), List.cons_append]

/-- Digits before a percent sign are the same digits whatever follows it. -/
theorem startsWithDigits_append_percent (front rest : List UInt8) :
    startsWithDigits (front ++ 0x25 :: rest) = startsWithDigits front := by
  have hpercent : Hex.value? 0x25 = none := by decide
  match front with
  | [] => cases rest <;> simp [startsWithDigits, hpercent]
  | [_] => simp [startsWithDigits, hpercent]
  | _ :: _ :: _ => rfl

/-- A percent sign without two digits behind it stands for itself, and what stands before it means
what it means alone. -/
theorem percentDecode_append_stray (h : startsWithDigits rest = false) (front : List UInt8) :
    percentDecode (front ++ 0x25 :: rest) = percentDecode front ++ 0x25 :: percentDecode rest := by
  fun_induction percentDecode front with
  | case1 => exact percentDecode_stray h
  | case2 a b front x y hb ha ih =>
    rw [List.cons_append, List.cons_append, List.cons_append, percentDecode_escape ha hb, ih,
      List.cons_append]
  | case3 a b front hnot ih =>
    have hdigits : startsWithDigits ((a :: b :: front) ++ 0x25 :: rest) = false := by
      rw [startsWithDigits_append_percent, Bool.eq_false_iff]
      intro hdigits
      obtain ⟨x, y, ha, hb⟩ := startsWithDigits_iff.mp hdigits
      exact hnot x y ha hb
    rw [List.cons_append, percentDecode_stray hdigits, ih, List.cons_append]
  | case4 front ih => rw [List.cons_append, percentDecode_plus, ih, List.cons_append]
  | case5 b front hshort hplus ih =>
    by_cases hpercent : b = 0x25
    · have hdigits : startsWithDigits (front ++ 0x25 :: rest) = false := by
        rw [startsWithDigits_append_percent]
        match front with
        | [] => rfl
        | [_] => rfl
        | a :: b :: more => exact absurd rfl (hshort a b more hpercent)
      rw [hpercent, List.cons_append, percentDecode_stray hdigits, ih, List.cons_append]
    · rw [List.cons_append, percentDecode_plain hpercent hplus, ih, List.cons_append]

end Decode

/-! ## Stray percent signs in a text -/

section Stray

variable {b : UInt8} {c : Char} {x : Nat} {front rest : List Char}

theorem utf8EncodeChar_ascii (h : c.toNat < 128) : String.utf8EncodeChar c = [c.toUInt8] := by
  have hencode := Utf8.encode_ascii [c] (by simpa using h)
  rw [Utf8.encode_ofList, List.flatMap_singleton] at hencode
  exact hencode

/-- Only an ASCII character has an ASCII byte. -/
theorem toNat_of_mem_utf8EncodeChar {b : UInt8} (h : b ∈ String.utf8EncodeChar c)
    (hb : b.toNat < 128) : c.toNat = b.toNat := by
  have hval : c.val.toNat = c.toNat := rfl
  have hbyte : ∀ n, (UInt8.ofNat n).toNat = n % 256 := fun n => UInt8.toNat_ofNat'
  rw [String.utf8EncodeChar, hval] at h
  -- every byte of a longer form is 128 or more
  split_ifs at h with hone
  · rw [List.mem_singleton.mp h, hbyte]
    omega
  all_goals
    simp only [List.mem_cons, List.not_mem_nil, or_false] at h
    rcases h with rfl | rfl | rfl | rfl <;> rw [hbyte] at hb <;> omega

theorem isDigit_of_value? (hb : Hex.value? b = some x) (hc : b ∈ String.utf8EncodeChar c) :
    Hex.isDigit c = true ∧ String.utf8EncodeChar c = [b] := by
  have hdigit : (48 ≤ b.toNat ∧ b.toNat ≤ 57) ∨ (65 ≤ b.toNat ∧ b.toNat ≤ 70) ∨
      (97 ≤ b.toNat ∧ b.toNat ≤ 102) := by
    rw [Hex.value?_eq] at hb
    split_ifs at hb with h h h
    · exact .inl h
    · exact .inr (.inl h)
    · exact .inr (.inr h)
  have hcode := toNat_of_mem_utf8EncodeChar hc (by omega)
  have hone := utf8EncodeChar_ascii (c := c) (by omega)
  rw [hone, List.mem_singleton] at hc
  exact ⟨Hex.isDigit_iff.mpr (hcode ▸ hdigit), hc ▸ hone⟩

/-- A digit that is the first byte of a text is its first character. -/
theorem exists_digit {more : List UInt8} (h : rest.flatMap String.utf8EncodeChar = b :: more)
    (hb : Hex.value? b = some x) : ∃ c cs, rest = c :: cs ∧ Hex.isDigit c = true ∧
      cs.flatMap String.utf8EncodeChar = more := by
  cases rest with
  | nil => cases h
  | cons c cs =>
    have hmem : b ∈ String.utf8EncodeChar c := by
      rw [List.flatMap_cons] at h
      cases hc : String.utf8EncodeChar c with
      | nil => simp at hc
      | cons first tails =>
        rw [hc, List.cons_append] at h
        cases h
        exact List.mem_cons_self
    obtain ⟨hdigit, hone⟩ := isDigit_of_value? hb hmem
    rw [List.flatMap_cons, hone, List.singleton_append] at h
    exact ⟨c, cs, rfl, hdigit, (List.cons.inj h).2⟩

theorem exists_digits (h : startsWithDigits (rest.flatMap String.utf8EncodeChar) = true) :
    ∃ x y more, rest = x :: y :: more ∧ Hex.isDigit x = true ∧ Hex.isDigit y = true := by
  match hbytes : rest.flatMap String.utf8EncodeChar with
  | [] | [_] =>
    rw [hbytes] at h
    cases h
  | a :: b :: more =>
    rw [hbytes] at h
    obtain ⟨x, y, ha, hb⟩ := startsWithDigits_iff.mp h
    obtain ⟨c, cs, rfl, hc, hcs⟩ := exists_digit hbytes ha
    obtain ⟨d, ds, rfl, hd, -⟩ := exists_digit hcs hb
    exact ⟨c, d, ds, rfl, hc, hd⟩

/-- In a text, too, a percent sign without two digits behind it stands for itself. -/
theorem unescape_stray (h : ∀ x y more, rest = x :: y :: more →
      ¬(Hex.isDigit x = true ∧ Hex.isDigit y = true)) (front : List Char) :
    unescape (front ++ '%' :: rest) = unescape front ++ "%" ++ unescape rest := by
  have hstray : startsWithDigits (rest.flatMap String.utf8EncodeChar) = false := by
    rw [Bool.eq_false_iff]
    intro hdigits
    obtain ⟨x, y, more, hrest, hx, hy⟩ := exists_digits hdigits
    exact h x y more hrest ⟨hx, hy⟩
  have hpercent : String.utf8EncodeChar '%' = [0x25] := by decide
  rw [unescape, unescape, unescape, Utf8.encode_ofList, Utf8.encode_ofList, Utf8.encode_ofList,
    List.flatMap_append, List.flatMap_cons, hpercent, List.singleton_append,
    percentDecode_append_stray hstray, Utf8.decodeLossy_append (by decide)]
  rfl

end Stray

/-! ## The decoder as a loop over places -/

section Loop

/-- One round of the loop, at the place of a byte: what it puts out, and where it goes on. -/
def decodeRound (bytes : List UInt8) (i : Nat) (b : UInt8) : UInt8 × Nat :=
  if b = 0x2b then (0x20, i + 1)
  else if b = 0x25 ∧ i + 2 < bytes.length then
    match Hex.value? bytes[i + 1]!, Hex.value? bytes[i + 2]! with
    | some x, some y => (UInt8.ofNat (16 * x + y), i + 3)
    | _, _ => (0x25, i + 1)
  else (b, i + 1)

/-- The loop from a place on. It stops at the end of the bytes, and gives up if it needs more
rounds than it may take. -/
def decodeLoop (bytes : List UInt8) : Nat → Nat → List UInt8 → Option (List UInt8)
  | 0, i, out => if i < bytes.length then none else some out
  | rounds + 1, i, out =>
    match bytes[i]? with
    | none => some out
    | some b =>
      let (byte, next) := decodeRound bytes i b
      decodeLoop bytes rounds next (out ++ [byte])

variable {bytes : List UInt8} {i : Nat} {b : UInt8}

/-- A round goes on behind its place, and puts out the first of what is decoded from there. -/
theorem decodeRound_spec (hb : bytes[i]? = some b) :
    i < (decodeRound bytes i b).2 ∧ percentDecode (bytes.drop i) =
      (decodeRound bytes i b).1 :: percentDecode (bytes.drop (decodeRound bytes i b).2) := by
  obtain ⟨hi, hbyte⟩ := List.getElem?_eq_some_iff.mp hb
  have hdrop : bytes.drop i = b :: bytes.drop (i + 1) := by
    rw [List.drop_eq_getElem_cons hi, hbyte]
  rw [decodeRound]
  split_ifs with hplus hlook
  · rw [hdrop, hplus, percentDecode_plus]
    exact ⟨Nat.lt_succ_self i, rfl⟩
  · obtain ⟨rfl, hlt⟩ := hlook
    have hnext : bytes.drop (i + 1) = bytes[i + 1]! :: bytes[i + 2]! :: bytes.drop (i + 3) := by
      rw [List.drop_eq_getElem_cons (by omega), List.drop_eq_getElem_cons hlt,
        getElem!_pos bytes (i + 1) (by omega), getElem!_pos bytes (i + 2) hlt]
    split
    · rename_i x y hx hy
      rw [hdrop, hnext, percentDecode_escape hx hy]
      exact ⟨by omega, rfl⟩
    · rename_i hnot
      have hdigits : startsWithDigits (bytes.drop (i + 1)) = false := by
        rw [hnext, Bool.eq_false_iff]
        intro hdigits
        obtain ⟨x, y, hx, hy⟩ := startsWithDigits_iff.mp hdigits
        exact hnot x y hx hy
      rw [hdrop, percentDecode_stray hdigits]
      exact ⟨Nat.lt_succ_self i, rfl⟩
  · refine ⟨Nat.lt_succ_self i, ?_⟩
    rw [hdrop]
    by_cases hpercent : b = 0x25
    · have hshort : (bytes.drop (i + 1)).length < 2 := by
        have hend : ¬i + 2 < bytes.length := fun hlt => hlook ⟨hpercent, hlt⟩
        rw [List.length_drop]
        omega
      rw [hpercent, percentDecode_stray (startsWithDigits_of_short hshort)]
    · exact percentDecode_plain hpercent hplus _

theorem decodeLoop_eq {rounds : Nat} (h : bytes.length ≤ i + rounds) (out : List UInt8) :
    decodeLoop bytes rounds i out = some (out ++ percentDecode (bytes.drop i)) := by
  induction rounds generalizing i out with
  | zero =>
    rw [decodeLoop, if_neg (by omega), List.drop_eq_nil_of_le (by omega), percentDecode,
      List.append_nil]
  | succ rounds ih =>
    rw [decodeLoop]
    cases hb : bytes[i]? with
    | none =>
      rw [List.drop_eq_nil_of_le (List.getElem?_eq_none_iff.mp hb), percentDecode, List.append_nil]
    | some b =>
      obtain ⟨hnext, hdecode⟩ := decodeRound_spec hb
      have hrest := ih (i := (decodeRound bytes i b).2) (by omega)
        (out ++ [(decodeRound bytes i b).1])
      rw [List.append_assoc, List.singleton_append, ← hdecode] at hrest
      exact hrest

end Loop

end Paymaster.Http

import Mathlib.Data.List.TakeWhile
import Mathlib.Tactic.SplitIfs
import Paymaster.Proofs.Text.ReadBack
/-!
# Lossy reading

The lossy reader of UTF-8 agrees with the strict one wherever that one reads anything. An ASCII byte
neither continues a character nor begins a longer one, so it always stands for itself and the text
can be cut at it.
-/

namespace Paymaster.Text.Utf8

variable {b t low high : UInt8} {bytes front tails rest : List UInt8} {c : Char} {n : Nat}

/-! ## First bytes -/

theorem tailsOf_eq (b : UInt8) : tailsOf b =
    if b.toNat < 128 then some (0, 0, 0)
    else if 194 ≤ b.toNat ∧ b.toNat ≤ 223 then some (1, 0x80, 0xbf)
    else if b.toNat = 224 then some (2, 0xa0, 0xbf)
    else if b.toNat = 237 then some (2, 0x80, 0x9f)
    else if 225 ≤ b.toNat ∧ b.toNat ≤ 239 then some (2, 0x80, 0xbf)
    else if b.toNat = 240 then some (3, 0x90, 0xbf)
    else if 241 ≤ b.toNat ∧ b.toNat ≤ 243 then some (3, 0x80, 0xbf)
    else if b.toNat = 244 then some (3, 0x80, 0x8f)
    else none := by
  simp [tailsOf, UInt8.le_iff_toNat_le, UInt8.lt_iff_toNat_lt, ← UInt8.toNat_inj]

theorem tailsOf_ascii (h : b.toNat < 128) : tailsOf b = some (0, 0, 0) := by
  rw [tailsOf_eq, if_pos h]

/-- A second byte is never ASCII. -/
theorem low_of_tailsOf (h : tailsOf b = some (n, low, high)) (hn : n ≠ 0) : 128 ≤ low.toNat := by
  rw [tailsOf_eq] at h
  split_ifs at h
  all_goals
    cases h
    first | exact absurd rfl hn | decide

theorem firstChar_ascii (h : b.toNat < 128) (rest : List UInt8) :
    firstChar b rest = (Char.ofNat b.toNat, 0) := by
  rw [firstChar, tailsOf_ascii h]
  rfl

/-- A first byte with all the bytes that follow it in a character. -/
theorem firstChar_of_tails (hfirst : tailsOf b = some (tails.length + 1, low, high))
    (ht : low ≤ t ∧ t ≤ high) (htails : ∀ d ∈ tails, isTail d = true) (rest : List UInt8) :
    firstChar b (t :: tails ++ rest) = (assemble b (t :: tails), tails.length + 1) := by
  have htake : ((tails ++ rest).take (tails.length + 1 - 1)).takeWhile isTail = tails := by
    rw [Nat.add_sub_cancel, List.take_left, List.takeWhile_eq_self_iff.mpr htails]
  have hcont : continuation (tails.length + 1) low high (t :: tails ++ rest) = t :: tails := by
    rw [List.cons_append, continuation, if_pos ht, htake]
  rw [firstChar, hfirst]
  simp only [hcont, List.length_cons, if_true]

/-! ## Valid text -/

theorem toNat_ofNat_of_lt (h : n < 256) : (UInt8.ofNat n).toNat = n := by
  rw [UInt8.toNat_ofNat']
  exact Nat.mod_eq_of_lt h

theorem tail_between_iff : (low ≤ UInt8.ofNat (n % 64 + 128) ∧ UInt8.ofNat (n % 64 + 128) ≤ high) ↔
    low.toNat ≤ n % 64 + 128 ∧ n % 64 + 128 ≤ high.toNat := by
  rw [UInt8.le_iff_toNat_le, UInt8.le_iff_toNat_le, toNat_ofNat_of_lt (by omega)]

theorem isTail_ofNat (n : Nat) : isTail (UInt8.ofNat (n % 64 + 128)) = true := by
  rw [isTail, Bool.and_eq_true, decide_eq_true_eq, decide_eq_true_eq, tail_between_iff]
  change 128 ≤ _ ∧ _ ≤ 191
  omega

/-- The second of three bytes keeps the bounds, which shut out long forms and surrogates. -/
theorem exists_tailsOf_three (hn : 2047 < n ∧ n ≤ 65535) (hvalid : n < 0xd800 ∨ 0xdfff < n)
    (hb : b.toNat = n / 4096 % 16 + 224) : ∃ low high, tailsOf b = some (2, low, high) ∧
      low.toNat ≤ n / 64 % 64 + 128 ∧ n / 64 % 64 + 128 ≤ high.toNat := by
  rw [tailsOf_eq]
  split_ifs
  all_goals first
    | exfalso; omega
    | refine ⟨_, _, rfl, ?_⟩; simp only [UInt8.reduceToNat]; omega

/-- The second of four bytes keeps the bounds, which shut out long forms and what lies beyond the
last code point. -/
theorem exists_tailsOf_four (hn : 65535 < n ∧ n < 0x110000)
    (hb : b.toNat = n / 262144 % 8 + 240) : ∃ low high, tailsOf b = some (3, low, high) ∧
      low.toNat ≤ n / 4096 % 64 + 128 ∧ n / 4096 % 64 + 128 ≤ high.toNat := by
  rw [tailsOf_eq]
  split_ifs
  all_goals first
    | exfalso; omega
    | refine ⟨_, _, rfl, ?_⟩; simp only [UInt8.reduceToNat]; omega

/-- The bytes of a character are read as the character. -/
theorem firstChar_utf8EncodeChar (h : String.utf8EncodeChar c = b :: tails) (rest : List UInt8) :
    firstChar b (tails ++ rest) = (c, tails.length) := by
  have hval : c.val.toNat = c.toNat := rfl
  have hvalid : c.toNat < 0xd800 ∨ 0xdfff < c.toNat ∧ c.toNat < 0x110000 := c.valid
  have hassemble : ∀ n, n = c.toNat → Char.ofNat n = c := by
    rintro _ rfl
    exact Char.ofNat_toNat c
  rw [String.utf8EncodeChar, hval] at h
  split_ifs at h
  all_goals cases h
  · rw [firstChar_ascii (by rw [toNat_ofNat_of_lt] <;> omega), toNat_ofNat_of_lt (by omega),
      Char.ofNat_toNat]
    rfl
  · have hb := toNat_ofNat_of_lt (n := c.toNat / 64 % 32 + 192) (by omega)
    have hfirst : tailsOf (UInt8.ofNat (c.toNat / 64 % 32 + 192)) = some (1, 0x80, 0xbf) := by
      rw [tailsOf_eq, if_neg (by omega), if_pos (by omega)]
    rw [firstChar_of_tails hfirst (tail_between_iff.mpr (by simp only [UInt8.reduceToNat]; omega))
      (by simp)]
    refine Prod.ext (hassemble _ ?_) rfl
    simp only [List.length_cons, List.length_nil, List.foldl_cons, List.foldl_nil, hb]
    rw [toNat_ofNat_of_lt (by omega)]
    omega
  · have hb := toNat_ofNat_of_lt (n := c.toNat / 4096 % 16 + 224) (by omega)
    obtain ⟨low, high, hfirst, hbounds⟩ := exists_tailsOf_three (by omega) (by omega) hb
    rw [firstChar_of_tails hfirst (tail_between_iff.mpr hbounds)
      (List.forall_mem_singleton.mpr (isTail_ofNat _))]
    refine Prod.ext (hassemble _ ?_) rfl
    simp only [List.length_cons, List.length_nil, List.foldl_cons, List.foldl_nil, hb]
    rw [toNat_ofNat_of_lt (by omega), toNat_ofNat_of_lt (by omega)]
    omega
  · have hb := toNat_ofNat_of_lt (n := c.toNat / 262144 % 8 + 240) (by omega)
    obtain ⟨low, high, hfirst, hbounds⟩ := exists_tailsOf_four (by omega) hb
    rw [firstChar_of_tails hfirst (tail_between_iff.mpr hbounds)
      (List.forall_mem_cons.mpr
        ⟨isTail_ofNat _, List.forall_mem_singleton.mpr (isTail_ofNat _)⟩)]
    refine Prod.ext (hassemble _ ?_) rfl
    simp only [List.length_cons, List.length_nil, List.foldl_cons, List.foldl_nil, hb]
    rw [toNat_ofNat_of_lt (by omega), toNat_ofNat_of_lt (by omega), toNat_ofNat_of_lt (by omega)]
    omega

theorem lossyChars_utf8Encode (cs : List Char) :
    lossyChars (cs.flatMap String.utf8EncodeChar) = cs := by
  induction cs with
  | nil => rw [List.flatMap_nil, lossyChars]
  | cons c cs ih =>
    cases h : String.utf8EncodeChar c with
    | nil => simp at h
    | cons b tails =>
      rw [List.flatMap_cons, h, List.cons_append, lossyChars, firstChar_utf8EncodeChar h,
        List.drop_left, ih]

/-- The lossy reader alone gives the text in every case. -/
theorem decodeLossy_eq (bytes : List UInt8) : decodeLossy bytes = String.ofList (lossyChars bytes) := by
  rw [decodeLossy]
  split
  · rename_i s hs
    rw [← encode_of_decode? hs, ← @String.ofList_toList s, encode_ofList, lossyChars_utf8Encode]
  · rfl

/-! ## Bytes before an ASCII byte -/

theorem takeWhile_take_append (h : t.toNat < 128) (front rest : List UInt8) (n : Nat) :
    ((front ++ t :: rest).take n).takeWhile isTail = (front.take n).takeWhile isTail := by
  have ht : isTail t = false := by
    rw [isTail, Bool.and_eq_false_iff, decide_eq_false_iff_not, UInt8.le_iff_toNat_le]
    exact .inl (by change ¬128 ≤ t.toNat; omega)
  induction front generalizing n with
  | nil => cases n <;> simp [ht]
  | cons d front ih =>
    cases n with
    | zero => rfl
    | succ n => rw [List.cons_append, List.take_succ_cons, List.take_succ_cons,
        List.takeWhile_cons, List.takeWhile_cons, ih]

theorem continuation_append (h : t.toNat < 128) (hlow : 128 ≤ low.toNat) (n : Nat) (high : UInt8)
    (front rest : List UInt8) :
    continuation n low high (front ++ t :: rest) = continuation n low high front := by
  cases front with
  | nil =>
    have ht : ¬(low ≤ t ∧ t ≤ high) := by
      rw [UInt8.le_iff_toNat_le]
      omega
    rw [List.nil_append, continuation, continuation, if_neg ht]
  | cons d front => rw [List.cons_append, continuation, continuation, takeWhile_take_append h]

theorem length_continuation_le (n : Nat) (low high : UInt8) (front : List UInt8) :
    (continuation n low high front).length ≤ front.length := by
  cases front with
  | nil => exact Nat.le_refl 0
  | cons d front =>
    rw [continuation]
    split_ifs
    · have htake := (List.takeWhile_sublist isTail (l := front.take (n - 1))).length_le
      have hlength := front.length_take_le' (n - 1)
      simp only [List.length_cons]
      omega
    · exact Nat.zero_le _

/-- An ASCII byte does not change how the bytes before it are read. -/
theorem firstChar_append (h : t.toNat < 128) (b : UInt8) (front rest : List UInt8) :
    firstChar b (front ++ t :: rest) = firstChar b front ∧ (firstChar b front).2 ≤ front.length := by
  rw [firstChar, firstChar]
  split
  · exact ⟨rfl, Nat.zero_le _⟩
  · exact ⟨rfl, Nat.zero_le _⟩
  · rename_i n low high hn hfirst
    have hlow := low_of_tailsOf hfirst hn
    have hlength := length_continuation_le n low high front
    rw [continuation_append h hlow]
    dsimp only
    split
    · rename_i hfull
      exact ⟨rfl, hfull ▸ hlength⟩
    · exact ⟨rfl, hlength⟩

theorem lossyChars_append (h : t.toNat < 128) (front rest : List UInt8) :
    lossyChars (front ++ t :: rest) = lossyChars front ++ Char.ofNat t.toNat :: lossyChars rest := by
  fun_induction lossyChars front with
  | case1 => rw [List.nil_append, lossyChars, firstChar_ascii h, List.drop_zero, List.nil_append]
  | case2 b front ih =>
    obtain ⟨hfirst, hlength⟩ := firstChar_append h b front rest
    rw [List.cons_append, lossyChars, hfirst, List.drop_append_of_le_length hlength, ih,
      List.cons_append]

/-- The text of some bytes is that of the bytes before an ASCII byte, the byte itself and the text
of the bytes behind it. -/
theorem decodeLossy_append (h : t.toNat < 128) (front rest : List UInt8) :
    decodeLossy (front ++ t :: rest) =
      decodeLossy front ++ String.singleton (Char.ofNat t.toNat) ++ decodeLossy rest := by
  rw [decodeLossy_eq, decodeLossy_eq, decodeLossy_eq, lossyChars_append h]
  simp [← String.toList_inj]

end Paymaster.Text.Utf8

import Mathlib.Algebra.Order.Field.Rat
import Paymaster.Proofs.Text.AddressText
import Paymaster.Rollup.Balance
/-!
# What balances denote

A balance comes as a decimal text, as a hexadecimal text, as a number, or as a word of the storage.
Each of these goes through a reader of its own. Here the number that a value denotes is told without
any reader: by the digits of a text, or by the number itself. Whatever a reader finds is that number,
and a number that no amount can be is refused by all of them.
-/

namespace Paymaster

/-! ## Amounts in words -/

theorem Amount.bound_eq : Amount.bound = 2 ^ 128 := Nat.one_shiftLeft 128

namespace Word

variable {w : Word} {a : Amount}

theorem toAmount?_eq_some : w.toAmount? = some a ↔ w.toNat = a.toNat := by
  rw [toAmount?]
  by_cases h : w.toNat < Amount.bound
  · rw [if_pos h, Option.some.injEq]
    constructor
    · rintro rfl
      exact (Amount.toNat_ofNat h).symm
    · intro heq
      exact BitVec.eq_of_toNat_eq ((Amount.toNat_ofNat h).trans heq)
  · rw [if_neg h]
    have hne : w.toNat ≠ a.toNat := fun heq => h (heq ▸ a.toNat_lt_bound)
    exact ⟨fun hnone => absurd hnone (Option.some_ne_none a).symm, fun heq => absurd heq hne⟩

theorem toAmount?_eq_none : w.toAmount? = none ↔ 2 ^ 128 ≤ w.toNat := by
  rw [toAmount?, ← Amount.bound_eq]
  by_cases h : w.toNat < Amount.bound
  · rw [if_pos h]
    exact ⟨fun hsome => absurd hsome (Option.some_ne_none _),
      fun hle => absurd h (Nat.not_lt.mpr hle)⟩
  · rw [if_neg h]
    exact ⟨fun _ => Nat.not_lt.mp h, fun _ => rfl⟩

theorem toAmount?_eq_some_iff_ofAmount : w.toAmount? = some a ↔ w = ofAmount a := by
  constructor
  · intro h
    have hword : (ofAmount a).toNat = a.toNat := toAmount?_eq_some.mp (toAmount?_ofAmount a)
    exact BitVec.eq_of_toNat_eq ((toAmount?_eq_some.mp h).trans hword.symm)
  · rintro rfl
    exact toAmount?_ofAmount a

end Word

/-! ## Decimal texts -/

namespace Text

theorem isBlank_of_isDigit {c : Char} (h : isDigit c = true) : isBlank c = false := by
  have hhex : Hex.isDigit c = true := by
    unfold isDigit at h
    unfold Hex.isDigit
    rw [h, Bool.true_or, Bool.true_or]
  exact Hex.isBlank_of_isDigit hhex

/-- An unsigned number is a run of digits behind a plus sign or none, and lies below the bound. -/
theorem readUnsigned_eq_ok_iff {bound n : Nat} {s : String} (hbound : 0 < bound) :
    readUnsigned bound s = .ok n ↔ ∃ digits, (s.toList = digits ∨ s.toList = '+' :: digits) ∧
      digits ≠ [] ∧ (∀ c ∈ digits, isDigit c = true) ∧ digitsValue digits = n ∧ n < bound := by
  have hplus : isDigit '+' = false := by decide
  rw [readUnsigned]
  split
  · rename_i hempty
    rw [hempty]
    constructor
    · intro h
      cases h
    · rintro ⟨digits, hdigits | hdigits, hne, -⟩
      · exact absurd hdigits.symm hne
      · cases hdigits
  · rename_i rest hsign
    rw [hsign]
    have hread : readDigits bound 0 rest = .ok n ↔
        (∀ c ∈ rest, isDigit c = true) ∧ digitsValue rest = n ∧ n < bound := readDigits_eq_ok hbound
    constructor
    · intro h
      split at h
      · cases h
      · rename_i hrest
        exact ⟨rest, .inr rfl, by simpa using hrest, hread.mp h⟩
    · rintro ⟨digits, hdigits, hne, hall, hvalue⟩
      rcases hdigits with rfl | hdigits
      · -- the sign is no digit
        have hbad := hall '+' List.mem_cons_self
        rw [hplus] at hbad
        cases hbad
      · cases hdigits
        rw [if_neg (by simpa using hne)]
        exact hread.mpr ⟨hall, hvalue⟩
  · rename_i hne hsign
    have hread : readDigits bound 0 s.toList = .ok n ↔
        (∀ c ∈ s.toList, isDigit c = true) ∧ digitsValue s.toList = n ∧ n < bound :=
      readDigits_eq_ok hbound
    rw [hread]
    constructor
    · rintro ⟨hall, hvalue⟩
      exact ⟨s.toList, .inl rfl, hne, hall, hvalue⟩
    · rintro ⟨digits, hdigits, -, hall, hvalue⟩
      rcases hdigits with rfl | hdigits
      · exact ⟨hall, hvalue⟩
      · exact absurd hdigits (hsign digits)

end Text

namespace Rollup

open Address (Marked)

variable {s : String} {t rest : List Char} {a : Amount} {j : Json}

/-! ## Denotation -/

/-- What a text without blanks at its ends denotes. -/
inductive Numeral : List Char → ℤ → Prop where
  /-- Decimal digits. -/
  | unsigned {digits : List Char} (hne : digits ≠ [])
      (hdigits : ∀ c ∈ digits, Text.isDigit c = true) : Numeral digits (Text.digitsValue digits)
  /-- A plus sign and decimal digits. -/
  | plus {digits : List Char} (hne : digits ≠ [])
      (hdigits : ∀ c ∈ digits, Text.isDigit c = true) :
      Numeral ('+' :: digits) (Text.digitsValue digits)
  /-- A minus sign and decimal digits. -/
  | minus {digits : List Char} (hne : digits ≠ [])
      (hdigits : ∀ c ∈ digits, Text.isDigit c = true) :
      Numeral ('-' :: digits) (-Text.digitsValue digits)
  /-- A marker and hexadecimal digits. -/
  | marked {t digits : List Char} (h : Marked t digits) (hne : digits ≠ [])
      (hdigits : ∀ c ∈ digits, Text.Hex.isDigit c = true) :
      Numeral t (Text.Hex.digitsValue digits)

/-- The number that a JSON value denotes. -/
inductive Denotes : Json → ℚ → Prop where
  /-- A text denotes what it denotes without the blanks at its ends. -/
  | text {s : String} {n : ℤ} (h : Numeral (Text.trimChars s.toList) n) : Denotes (.text s) n
  | int (n : ℤ) : Denotes (.int n) n
  | float (negative : Bool) (mantissa : ℕ) (exponent : ℤ) :
      Denotes (.float (.finite negative mantissa exponent))
        ((if negative then -1 else 1) * mantissa * 2 ^ exponent)

/-- The forms in which a value may give an amount. -/
inductive Gives : Json → Amount → Prop where
  /-- Decimal digits behind a plus sign or none, with blanks around them or none. -/
  | decimal {front sign digits back : List Char} {a : Amount}
      (hfront : ∀ c ∈ front, Text.isBlank c = true) (hsign : sign = [] ∨ sign = ['+'])
      (hne : digits ≠ []) (hdigits : ∀ c ∈ digits, Text.isDigit c = true)
      (hback : ∀ c ∈ back, Text.isBlank c = true) (hvalue : Text.digitsValue digits = a.toNat) :
      Gives (.text (String.ofList (front ++ (sign ++ digits ++ back)))) a
  /-- A marker and up to 64 hexadecimal digits, with blanks behind them or none. -/
  | hex {mark : Char} {digits back : List Char} {a : Amount} (hmark : mark = 'x' ∨ mark = 'X')
      (hne : digits ≠ []) (hlength : digits.length ≤ 64)
      (hdigits : ∀ c ∈ digits, Text.Hex.isDigit c = true)
      (hback : ∀ c ∈ back, Text.isBlank c = true)
      (hvalue : Text.Hex.digitsValue digits = a.toNat) :
      Gives (.text (String.ofList ('0' :: mark :: digits ++ back))) a
  /-- A whole number of 64 bits. -/
  | int {a : Amount} (hlt : a.toNat < 2 ^ 64) : Gives (.int a.toNat) a

/-- The values that give no amount for what they are. -/
inductive Unfit : Json → Prop where
  | text {s : String} {q : ℚ} (h : Denotes (.text s) q) (hq : q < 0 ∨ 2 ^ 128 ≤ q) : Unfit (.text s)
  | int {n : ℤ} (hn : n < 0 ∨ 2 ^ 64 ≤ n) : Unfit (.int n)
  /-- A number with a fraction or a power, or one that does not fit 64 bits. -/
  | float (x : Decimal.Binary64) : Unfit (.float x)
  | bool (b : Bool) : Unfit (.bool b)
  | null : Unfit .null
  | list (items : List Json) : Unfit (.list items)
  | table (fields : List (String × Json)) : Unfit (.table fields)

/-- Decimal digits are neither a sign nor a marker. -/
theorem ne_of_digits (hdigits : ∀ c ∈ t, Text.isDigit c = true) :
    t ≠ '+' :: rest ∧ t ≠ '-' :: rest ∧ ¬Marked t rest := by
  refine ⟨?_, ?_, ?_⟩
  · rintro rfl
    exact absurd (hdigits '+' List.mem_cons_self) (by decide)
  · rintro rfl
    exact absurd (hdigits '-' List.mem_cons_self) (by decide)
  · rintro ⟨mark, rfl | rfl, rfl⟩
    · exact absurd (hdigits 'x' (by simp)) (by decide)
    · exact absurd (hdigits 'X' (by simp)) (by decide)

theorem not_marked_of_head {c : Char} (hc : c ≠ '0') : ¬Marked (c :: t) rest := by
  rintro ⟨mark, -, heq⟩
  exact hc (List.cons.inj heq).1

theorem Numeral.unique {m n : ℤ} (hm : Numeral t m) (hn : Numeral t n) : m = n := by
  cases hm with
  | unsigned hne hdigits =>
    cases hn with
    | unsigned => rfl
    | plus => exact absurd rfl (ne_of_digits hdigits).1
    | minus => exact absurd rfl (ne_of_digits hdigits).2.1
    | marked h => exact absurd h (ne_of_digits hdigits).2.2
  | plus hne hdigits =>
    cases hn with
    | unsigned _ hdigits' => exact absurd rfl (ne_of_digits hdigits').1
    | plus => rfl
    | marked h => exact absurd h (not_marked_of_head (by decide))
  | minus hne hdigits =>
    cases hn with
    | unsigned _ hdigits' => exact absurd rfl (ne_of_digits hdigits').2.1
    | minus => rfl
    | marked h => exact absurd h (not_marked_of_head (by decide))
  | marked h hne hdigits =>
    cases hn with
    | unsigned _ hdigits' => exact absurd h (ne_of_digits hdigits').2.2
    | plus => exact absurd h (not_marked_of_head (by decide))
    | minus => exact absurd h (not_marked_of_head (by decide))
    | marked h' =>
      cases h.iff.mp h'
      rfl

/-- A value denotes no more than one number. -/
theorem Denotes.unique {p q : ℚ} (hp : Denotes j p) (hq : Denotes j q) : p = q := by
  cases hp with
  | text h =>
    cases hq with
    | text h' => rw [h.unique h']
  | int => cases hq; rfl
  | float => cases hq; rfl

/-! ## The readers of texts -/

theorem isMarkedHex_iff : isMarkedHex s = true ↔ ∃ rest, Marked s.toList rest := by
  rw [isMarkedHex]
  constructor
  · intro h
    split at h
    · rename_i rest hs
      exact ⟨rest, 'x', .inl rfl, hs⟩
    · rename_i rest hs
      exact ⟨rest, 'X', .inr rfl, hs⟩
    · cases h
  · rintro ⟨rest, mark, rfl | rfl, hs⟩
    · rw [hs]
      rfl
    · rw [hs]
      rfl

theorem balanceOfHex_eq_ok : balanceOfHex s = .ok a ↔
    ∃ digits, Marked (Text.trimChars s.toList) digits ∧ digits ≠ [] ∧ digits.length ≤ 64 ∧
      (∀ c ∈ digits, Text.Hex.isDigit c = true) ∧ Text.Hex.digitsValue digits = a.toNat := by
  have hread : balanceOfHex s = .ok a ↔ ∃ b, Address.ofText s = .ok b ∧ b.word.toNat = a.toNat := by
    rw [balanceOfHex, Word.ofText]
    cases Address.ofText s with
    | error why => simp [Except.map]
    | ok b =>
      simp only [Except.map, Except.ok.injEq, exists_eq_left', ← Word.toAmount?_eq_some]
      cases b.word.toAmount? <;> simp
  rw [hread]
  constructor
  · rintro ⟨b, hb, hvalue⟩
    obtain ⟨digits, hmarked, hpos, hlength, hdigits, hbytes⟩ := Address.ofText_eq_ok_iff.mp hb
    rw [Address.ofBigEndian_toBytes, hvalue] at hbytes
    exact ⟨digits, hmarked, List.ne_nil_of_length_pos hpos, hlength, hdigits, hbytes.symm⟩
  · rintro ⟨digits, hmarked, hne, hlength, hdigits, hvalue⟩
    have hlt := a.isLt
    have hword : (BitVec.ofNat 256 (Text.Hex.digitsValue digits)).toNat = a.toNat := by
      rw [hvalue, BitVec.toNat_ofNat]
      exact Nat.mod_eq_of_lt (by omega)
    refine ⟨⟨BitVec.ofNat 256 (Text.Hex.digitsValue digits)⟩, ?_, hword⟩
    refine Address.ofText_eq_ok_iff.mpr
      ⟨digits, hmarked, List.length_pos_iff.mpr hne, hlength, hdigits, ?_⟩
    rw [Address.ofBigEndian_toBytes, hword, hvalue]

theorem balanceOfDecimal_eq_ok : balanceOfDecimal s = .ok a ↔
    ∃ digits, (Text.trimChars s.toList = digits ∨ Text.trimChars s.toList = '+' :: digits) ∧
      digits ≠ [] ∧ (∀ c ∈ digits, Text.isDigit c = true) ∧ Text.digitsValue digits = a.toNat := by
  have hbound : 0 < Amount.bound := by decide
  have htrim : (Text.trim s).toList = Text.trimChars s.toList := by
    rw [Text.trim, String.toList_ofList]
  have hread : balanceOfDecimal s = .ok a ↔
      Text.readUnsigned Amount.bound (Text.trim s) = .ok a.toNat := by
    rw [balanceOfDecimal]
    cases hn : Text.readUnsigned Amount.bound (Text.trim s) with
    | error why => exact ⟨nofun, nofun⟩
    | ok n =>
      obtain ⟨-, -, -, -, -, hlt⟩ := (Text.readUnsigned_eq_ok_iff hbound).mp hn
      have hvalue := Amount.toNat_ofNat hlt
      simp only [Except.ok.injEq]
      constructor
      · rintro rfl
        exact hvalue.symm
      · rintro rfl
        exact BitVec.eq_of_toNat_eq hvalue
  rw [hread, Text.readUnsigned_eq_ok_iff hbound, htrim]
  simp only [a.toNat_lt_bound, and_true]

/-! ## The reader of values -/

/-- A balance that is refused makes no sense. -/
theorem balanceOfJson_cases (j : Json) :
    (∃ a, balanceOfJson j = .ok a) ∨ ∃ why, balanceOfJson j = .error (.malformed why) := by
  cases j with
  | text s =>
    rw [balanceOfJson]
    split
    · rw [balanceOfHex]
      split
      · exact .inr ⟨_, rfl⟩
      · split
        · exact .inl ⟨_, rfl⟩
        · exact .inr ⟨_, rfl⟩
    · rw [balanceOfDecimal]
      split
      · exact .inl ⟨_, rfl⟩
      · exact .inr ⟨_, rfl⟩
  | int n =>
    rw [balanceOfJson]
    split
    · exact .inl ⟨_, rfl⟩
    · exact .inr ⟨_, rfl⟩
  | null | bool | float | list | table => exact .inr ⟨_, rfl⟩

section Forms

variable {front sign digits back : List Char} {mark : Char}

theorem trimChars_decimal (hfront : ∀ c ∈ front, Text.isBlank c = true)
    (hsign : sign = [] ∨ sign = ['+']) (hne : digits ≠ [])
    (hdigits : ∀ c ∈ digits, Text.isDigit c = true) (hback : ∀ c ∈ back, Text.isBlank c = true) :
    Text.trimChars (front ++ (sign ++ digits ++ back)) = sign ++ digits := by
  have hplain : ∀ c ∈ sign ++ digits, Text.isBlank c = false := by
    intro c hc
    rcases List.mem_append.mp hc with hc | hc
    · rcases hsign with rfl | rfl
      · cases hc
      · rw [List.mem_singleton.mp hc]
        decide
    · exact Text.isBlank_of_isDigit (hdigits c hc)
  exact Text.trimChars_append hfront hback (fun c hc => hplain c (List.mem_of_mem_head? hc))
    (fun c hc => hplain c (List.mem_of_getLast? hc)) (List.append_ne_nil_of_right_ne_nil sign hne)

theorem trimChars_hex (hmark : mark = 'x' ∨ mark = 'X')
    (hdigits : ∀ c ∈ digits, Text.Hex.isDigit c = true)
    (hback : ∀ c ∈ back, Text.isBlank c = true) :
    Text.trimChars ('0' :: mark :: digits ++ back) = '0' :: mark :: digits := by
  have hplain : ∀ c ∈ '0' :: mark :: digits, Text.isBlank c = false := by
    intro c hc
    rcases List.mem_cons.mp hc with rfl | hc
    · decide
    rcases List.mem_cons.mp hc with rfl | hc
    · rcases hmark with rfl | rfl
      · decide
      · decide
    · exact Text.Hex.isBlank_of_isDigit (hdigits c hc)
  have hfront : ∀ c ∈ ([] : List Char), Text.isBlank c = true := nofun
  exact Text.trimChars_append hfront hback
    (fun c hc => hplain c (List.mem_of_mem_head? hc))
    (fun c hc => hplain c (List.mem_of_getLast? hc)) (List.cons_ne_nil _ _)

/-- No decimal text begins with a marker: the second half of one is neither blank nor sign nor
digit. -/
theorem isMarkedHex_decimal (hfront : ∀ c ∈ front, Text.isBlank c = true)
    (hsign : sign = [] ∨ sign = ['+']) (hdigits : ∀ c ∈ digits, Text.isDigit c = true)
    (hback : ∀ c ∈ back, Text.isBlank c = true) :
    ¬isMarkedHex (String.ofList (front ++ (sign ++ digits ++ back))) = true := by
  rw [isMarkedHex_iff, String.toList_ofList]
  rintro ⟨rest, mark, hmark, heq⟩
  have hmem : mark ∈ front ++ (sign ++ digits ++ back) := by
    rw [heq]
    simp
  have hnone : Text.isBlank mark = false ∧ mark ≠ '+' ∧ Text.isDigit mark = false := by
    rcases hmark with rfl | rfl
    · decide
    · decide
  obtain ⟨hblank, hplus, hdigit⟩ := hnone
  simp only [List.mem_append] at hmem
  rcases hmem with hmem | (hmem | hmem) | hmem
  · simp [hfront mark hmem] at hblank
  · rcases hsign with rfl | rfl
    · cases hmem
    · exact hplus (List.mem_singleton.mp hmem)
  · simp [hdigits mark hmem] at hdigit
  · simp [hback mark hmem] at hblank

end Forms

theorem gives_of_hex (hmarked : isMarkedHex s = true) (h : balanceOfHex s = .ok a) :
    Gives (.text s) a := by
  obtain ⟨front, back, hs, hfront, hback⟩ := Text.exists_trimChars s.toList
  obtain ⟨rest, mark, -, hstart⟩ := isMarkedHex_iff.mp hmarked
  obtain ⟨digits, ⟨mark', hmark, htrim⟩, hne, hlength, hdigits, hvalue⟩ := balanceOfHex_eq_ok.mp h
  rw [htrim] at hs
  -- the marker stands at the very start, so no blank is in front of it
  cases front with
  | nil =>
    have hform := Gives.hex hmark hne hlength hdigits hback hvalue
    rw [List.nil_append] at hs
    rwa [← hs, String.ofList_toList] at hform
  | cons c front =>
    have hzero : c = '0' := by
      rw [hstart] at hs
      exact (List.cons.inj hs).1.symm
    have hblank := hfront c List.mem_cons_self
    rw [hzero] at hblank
    exact absurd hblank (by decide)

theorem gives_of_decimal (h : balanceOfDecimal s = .ok a) : Gives (.text s) a := by
  obtain ⟨front, back, hs, hfront, hback⟩ := Text.exists_trimChars s.toList
  obtain ⟨digits, htrim, hne, hdigits, hvalue⟩ := balanceOfDecimal_eq_ok.mp h
  obtain ⟨sign, hsign, htrim⟩ : ∃ sign, (sign = [] ∨ sign = ['+']) ∧
      Text.trimChars s.toList = sign ++ digits := by
    rcases htrim with htrim | htrim
    · exact ⟨[], .inl rfl, htrim⟩
    · exact ⟨['+'], .inr rfl, htrim⟩
  have hform := Gives.decimal hfront hsign hne hdigits hback hvalue
  rw [htrim] at hs
  rwa [← hs, String.ofList_toList] at hform

theorem gives_of_int {n : ℤ} (h : balanceOfJson (.int n) = .ok a) : Gives (.int n) a := by
  rw [balanceOfJson] at h
  split at h
  · rename_i hrange
    cases h
    have hsize : UInt64.size = 2 ^ 64 := rfl
    have hlt : n.toNat < Amount.bound := by
      rw [Amount.bound_eq]
      omega
    have hnat := Amount.toNat_ofNat hlt
    have hvalue : ((BitVec.ofNat 128 n.toNat).toNat : ℤ) = n := by
      rw [hnat]
      exact Int.toNat_of_nonneg hrange.1
    have hform := Gives.int (a := BitVec.ofNat 128 n.toNat) (by omega)
    rwa [hvalue] at hform
  · cases h

theorem Gives.read (h : Gives j a) : balanceOfJson j = .ok a := by
  cases h with
  | @decimal front sign digits back _ hfront hsign hne hdigits hback hvalue =>
    rw [balanceOfJson, if_neg (isMarkedHex_decimal hfront hsign hdigits hback),
      balanceOfDecimal_eq_ok, String.toList_ofList,
      trimChars_decimal hfront hsign hne hdigits hback]
    refine ⟨digits, ?_, hne, hdigits, hvalue⟩
    rcases hsign with rfl | rfl
    · exact .inl rfl
    · exact .inr rfl
  | @hex mark digits back _ hmark hne hlength hdigits hback hvalue =>
    have hmarked : isMarkedHex (String.ofList ('0' :: mark :: digits ++ back)) = true := by
      rw [isMarkedHex_iff, String.toList_ofList]
      exact ⟨digits ++ back, mark, hmark, rfl⟩
    rw [balanceOfJson, if_pos hmarked, balanceOfHex_eq_ok, String.toList_ofList,
      trimChars_hex hmark hdigits hback]
    exact ⟨digits, ⟨mark, hmark, rfl⟩, hne, hlength, hdigits, hvalue⟩
  | int hlt =>
    have hrange : (0 : ℤ) ≤ a.toNat ∧ (a.toNat : ℤ) < UInt64.size := by
      have hsize : UInt64.size = 2 ^ 64 := rfl
      omega
    rw [balanceOfJson, if_pos hrange, Int.toNat_natCast, BitVec.ofNat_toNat, BitVec.setWidth_eq]

/-- A value is read as an amount exactly if it gives it in one of the three forms. -/
theorem balanceOfJson_eq_ok : balanceOfJson j = .ok a ↔ Gives j a := by
  refine ⟨fun h => ?_, Gives.read⟩
  cases j with
  | text s =>
    rw [balanceOfJson] at h
    split at h
    · rename_i hmarked
      exact gives_of_hex hmarked h
    · exact gives_of_decimal h
  | int n => exact gives_of_int h
  | null | bool | float | list | table => cases h

/-- What a value gives is what it denotes. -/
theorem Gives.denotes (h : Gives j a) : Denotes j a.toNat := by
  cases h with
  | @decimal front sign digits back _ hfront hsign hne hdigits hback hvalue =>
    have hnumeral : Numeral (sign ++ digits) a.toNat := by
      rw [← hvalue]
      rcases hsign with rfl | rfl
      · exact .unsigned hne hdigits
      · exact .plus hne hdigits
    rw [← trimChars_decimal hfront hsign hne hdigits hback,
      ← String.toList_ofList (l := front ++ (sign ++ digits ++ back))] at hnumeral
    exact_mod_cast Denotes.text hnumeral
  | @hex mark digits back _ hmark hne hlength hdigits hback hvalue =>
    have hnumeral : Numeral ('0' :: mark :: digits) a.toNat := by
      rw [← hvalue]
      exact .marked ⟨mark, hmark, rfl⟩ hne hdigits
    rw [← trimChars_hex hmark hdigits hback,
      ← String.toList_ofList (l := '0' :: mark :: digits ++ back)] at hnumeral
    exact_mod_cast Denotes.text hnumeral
  | int hlt => exact_mod_cast Denotes.int a.toNat

/-- No amount is negative or too large. -/
theorem Gives.in_range {q : ℚ} (h : Gives j a) (hq : Denotes j q) : 0 ≤ q ∧ q < 2 ^ 128 := by
  rw [hq.unique h.denotes]
  have hlt : (a.toNat : ℚ) < 2 ^ 128 := by exact_mod_cast a.isLt
  exact ⟨Nat.cast_nonneg _, hlt⟩

theorem Unfit.not_gives (h : Unfit j) : ¬Gives j a := by
  intro hform
  cases h with
  | text hdenotes hq =>
    obtain ⟨hnonneg, hlt⟩ := hform.in_range hdenotes
    rcases hq with hq | hq
    · exact absurd hq (not_lt.mpr hnonneg)
    · exact absurd hlt (not_lt.mpr hq)
  | int hn =>
    cases hform with
    | int hlt => omega
  | float | bool | null | list | table => cases hform

theorem Unfit.malformed (h : Unfit j) : ∃ why, balanceOfJson j = .error (.malformed why) := by
  rcases balanceOfJson_cases j with ⟨a, ha⟩ | hmalformed
  · exact absurd (balanceOfJson_eq_ok.mp ha) h.not_gives
  · exact hmalformed

/-! ## Words of the storage -/

/-- A word is read from its text as it is read from the storage. -/
theorem balanceOfJson_toHex (w : Word) : balanceOfJson (.text w.toHex) =
    w.toAmount?.elim (.error (.malformed "balance exceeds u128")) .ok := by
  have hmarked : isMarkedHex w.toHex = true :=
    isMarkedHex_iff.mpr ⟨w.digits.toList, 'x', .inl rfl, w.toList_toHex⟩
  rw [balanceOfJson, if_pos hmarked, balanceOfHex, Word.ofText_toHex]
  simp only
  cases w.toAmount? with
  | none => rfl
  | some a => rfl

theorem balanceOfJson_toHex_eq_ok {w : Word} :
    balanceOfJson (.text w.toHex) = .ok a ↔ w.toAmount? = some a := by
  rw [balanceOfJson_toHex]
  cases w.toAmount? <;> simp

theorem balanceOfJson_toHex_malformed {w : Word} :
    (∃ why, balanceOfJson (.text w.toHex) = .error (.malformed why)) ↔ 2 ^ 128 ≤ w.toNat := by
  rw [balanceOfJson_toHex, ← Word.toAmount?_eq_none]
  cases w.toAmount? <;> simp

/-! ## Balances -/

/-- A value is read as an amount exactly if it gives it: by a decimal text, with blanks around it and
zeros in front or none, by up to 64 hexadecimal digits behind a marker, or as a whole number of 64
bits. Then the amount is the one number that the value denotes. Every value that is unfit is refused
as malformed: a text of a number that is negative or not below `2 ^ 128`, a number that is negative,
not whole or not below `2 ^ 64`, and a value that is neither text nor number. A word is read from its
text exactly if it is read from the storage, which is if it is the word of the amount; both refuse the
words from `2 ^ 128` on. -/
theorem balances_read_as_denoted :
    (∀ j a, balanceOfJson j = .ok a ↔ Gives j a) ∧
    (∀ j a, balanceOfJson j = .ok a → Denotes j a.toNat ∧ ∀ q, Denotes j q → q = a.toNat) ∧
    (∀ j, Unfit j → ∃ why, balanceOfJson j = .error (.malformed why)) ∧
    ∀ w : Word,
      (∀ a, (balanceOfJson (.text w.toHex) = .ok a ↔ w.toAmount? = some a) ∧
        (w.toAmount? = some a ↔ w = .ofAmount a)) ∧
      ((∃ why, balanceOfJson (.text w.toHex) = .error (.malformed why)) ↔ 2 ^ 128 ≤ w.toNat) ∧
      (w.toAmount? = none ↔ 2 ^ 128 ≤ w.toNat) := by
  refine ⟨fun j a => balanceOfJson_eq_ok, fun j a h => ?_, fun j h => h.malformed, fun w => ?_⟩
  · have hdenotes := (balanceOfJson_eq_ok.mp h).denotes
    exact ⟨hdenotes, fun q hq => hq.unique hdenotes⟩
  · exact ⟨fun a => ⟨balanceOfJson_toHex_eq_ok, Word.toAmount?_eq_some_iff_ofAmount⟩,
      balanceOfJson_toHex_malformed, Word.toAmount?_eq_none⟩

/-- Seven with a sign, a zero and blanks around it is read; the first number beyond the amounts is
refused. -/
theorem balances_read_as_denoted_bound :
    (Denotes (.text (String.ofList ['\t', '+', '0', '7', ' '])) (7 : Amount).toNat ∧
      ∀ q, Denotes (.text (String.ofList ['\t', '+', '0', '7', ' '])) q → q = (7 : Amount).toNat) ∧
    ∃ why, balanceOfJson (.text (String.ofList ('0' :: 'X' :: '1' :: List.replicate 32 '0'))) =
      .error (.malformed why) := by
  obtain ⟨hgives, hdenotes, hunfit, -⟩ := balances_read_as_denoted
  have hfront : ∀ c ∈ ['\t'], Text.isBlank c = true := List.all_eq_true.mp rfl
  have hdigits : ∀ c ∈ ['0', '7'], Text.isDigit c = true := List.all_eq_true.mp rfl
  have hback : ∀ c ∈ [' '], Text.isBlank c = true := List.all_eq_true.mp rfl
  have hvalue : Text.digitsValue ['0', '7'] = (7 : Amount).toNat := by decide
  have hseven : Gives (.text (String.ofList (['\t'] ++ (['+'] ++ ['0', '7'] ++ [' '])))) 7 :=
    .decimal hfront (.inr rfl) (by decide) hdigits hback hvalue
  refine ⟨hdenotes _ 7 ((hgives _ 7).mpr hseven), hunfit _ ?_⟩
  have hnumeral : Numeral ('0' :: 'X' :: '1' :: List.replicate 32 '0')
      (Text.Hex.digitsValue ('1' :: List.replicate 32 '0')) :=
    .marked ⟨'X', .inr rfl, rfl⟩ (by decide) (List.all_eq_true.mp rfl)
  have htrim : Text.trimChars (String.ofList ('0' :: 'X' :: '1' :: List.replicate 32 '0')).toList =
      '0' :: 'X' :: '1' :: List.replicate 32 '0' := by
    rw [String.toList_ofList]
    decide
  have hvalue : Text.Hex.digitsValue ('1' :: List.replicate 32 '0') = 2 ^ 128 := by decide
  rw [hvalue, ← htrim] at hnumeral
  refine .text (.text hnumeral) (.inr ?_)
  exact_mod_cast Nat.le_refl (2 ^ 128)

end Rollup
end Paymaster

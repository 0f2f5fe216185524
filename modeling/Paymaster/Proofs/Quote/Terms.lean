import Mathlib.Algebra.Order.Floor.Div
import Paymaster.Proofs.Outcomes
import Paymaster.Quote.Desk
/-!
# When a quote is given

Each function on the way from a request to a quote either refuses or gives the result that is told
here. The steps are put together at the end: a desk answers a request for a quote with the status
200 only if it has issued the quote that is in the body.
-/

namespace Paymaster

/-! ## Amounts -/

theorem Amount.ofNat?_eq_some {n : Nat} {a : Amount} : ofNat? n = some a ↔ a.toNat = n := by
  rw [ofNat?]
  split
  · rename_i h
    rw [Option.some.injEq]
    constructor
    · rintro rfl
      exact toNat_ofNat h
    · intro heq
      exact BitVec.eq_of_toNat_eq ((toNat_ofNat h).trans heq.symm)
  · rename_i h
    have hne : a.toNat ≠ n := fun heq => h (heq ▸ a.toNat_lt_bound)
    simp [hne]

theorem Amount.ne_zero_iff {a : Amount} : a ≠ 0 ↔ a.toNat ≠ 0 := by
  constructor
  · intro h heq
    exact h (BitVec.eq_of_toNat_eq heq)
  · rintro h rfl
    exact h rfl

theorem Amount.one_le {a : Amount} (h : a ≠ 0) : 1 ≤ a.toNat :=
  Nat.one_le_iff_ne_zero.mpr (ne_zero_iff.mp h)

theorem Address.isZero_iff {a : Address} : a.isZero = true ↔ a = .zero := by
  rw [isZero, beq_iff_eq, zero]
  constructor
  · intro h
    rw [← h]
  · rintro rfl
    rfl

/-! ## Payments -/

theorem checkedMul_eq_ok {a b : Nat} {quantity : String} {p : Amount} :
    checkedMul a b quantity = .ok p ↔ p.toNat = a * b := by
  rw [← Amount.ofNat?_eq_some, checkedMul]
  cases Amount.ofNat? (a * b) <;> simp

theorem checkedMul_eq_error {a b : Nat} {quantity : String} {e : QuoteError} :
    checkedMul a b quantity = .error e ↔ Amount.bound ≤ a * b ∧ e = .overflow quantity := by
  rw [checkedMul, Amount.ofNat?]
  by_cases h : a * b < Amount.bound
  · rw [if_pos h]
    have hnot : ¬Amount.bound ≤ a * b := Nat.not_le.mpr h
    simp [hnot]
  · rw [if_neg h]
    have hle : Amount.bound ≤ a * b := Nat.not_lt.mp h
    simp [hle, eq_comm]

theorem ceilDiv_le_self {n d : ℕ} (hd : 0 < d) : n ⌈/⌉ d ≤ n :=
  (ceilDiv_le_iff_le_mul hd).mpr (Nat.le_mul_of_pos_left n hd)

theorem payment_of_fits {fj num den : Amount} (hden : den ≠ 0)
    (hfits : fj.toNat * num.toNat < Amount.bound) :
    payment fj num den = .ok (BitVec.ofNat 128 ((fj.toNat * num.toNat) ⌈/⌉ den.toNat)) := by
  have hmul : checkedMul fj.toNat num.toNat "fj_amount * rate_num" = .ok _ :=
    checkedMul_eq_ok.mpr (Amount.toNat_ofNat hfits)
  rw [payment, if_neg hden, hmul]
  simp only [Amount.toNat_ofNat hfits]
  rfl

/-- A payment is only ever refused for its product. -/
theorem payment_eq_error {fj num den : Amount} {e : QuoteError} (hden : den ≠ 0) :
    payment fj num den = .error e ↔
      Amount.bound ≤ fj.toNat * num.toNat ∧ e = .overflow "fj_amount * rate_num" := by
  rw [← checkedMul_eq_error, payment, if_neg hden]
  cases checkedMul fj.toNat num.toNat "fj_amount * rate_num" with
  | error why => rfl
  | ok product => exact ⟨nofun, nofun⟩

/-- A payment is the least whole amount that covers the price; its product has to fit an amount. -/
theorem payment_eq_ok {fj num den p : Amount} (hden : den ≠ 0) : payment fj num den = .ok p ↔
    fj.toNat * num.toNat < Amount.bound ∧ p.toNat = (fj.toNat * num.toNat) ⌈/⌉ den.toNat := by
  by_cases hfits : fj.toNat * num.toNat < Amount.bound
  · have hpay : (BitVec.ofNat 128 ((fj.toNat * num.toNat) ⌈/⌉ den.toNat)).toNat =
        (fj.toNat * num.toNat) ⌈/⌉ den.toNat :=
      Amount.toNat_ofNat (Nat.lt_of_le_of_lt (ceilDiv_le_self (Amount.one_le hden)) hfits)
    rw [payment_of_fits hden hfits]
    constructor
    · rintro heq
      cases heq
      exact ⟨hfits, hpay⟩
    · rintro ⟨-, hp⟩
      exact congrArg Except.ok (BitVec.eq_of_toNat_eq (hpay.trans hp.symm))
  · have herror := (payment_eq_error hden).mpr ⟨Nat.not_lt.mp hfits, rfl⟩
    rw [herror]
    exact ⟨nofun, fun h => absurd h.1 hfits⟩

/-- Something is paid for every amount. -/
theorem one_le_payment {fj num den p : Amount} (hfj : fj ≠ 0) (hnum : num ≠ 0) (hden : den ≠ 0)
    (h : payment fj num den = .ok p) : 1 ≤ p.toNat := by
  have hprice : 1 ≤ fj.toNat * num.toNat := Nat.mul_pos (Amount.one_le hfj) (Amount.one_le hnum)
  rw [((payment_eq_ok hden).mp h).2]
  by_contra hzero
  have hle := (ceilDiv_le_iff_le_mul (Amount.one_le hden)).mp (Nat.le_of_lt_succ (not_le.mp hzero))
  omega

namespace Quote

/-! ## Binders -/

namespace Binder

variable {b : Binder} {user : Address} {feeJuice : Amount} {issuedAt : UInt64}

theorem of_eq_ok {facility asset : Address} {rate : Rate} {validity : UInt64} {signer : Signer}
    (h : of facility asset rate validity signer = .ok b) :
    b = ⟨facility, asset, rate, min validity maxValidity, signer⟩ := by
  rw [of] at h
  split at h
  · cases h
  split at h
  · cases h
  split at h
  · cases h
  · cases h
    rfl

/-- The terms of a quote. -/
theorem preimage_eq_ok {p : Preimage} : b.preimage user feeJuice issuedAt = .ok p ↔
    user ≠ .zero ∧ feeJuice ≠ 0 ∧ issuedAt.toNat + b.validity.toNat < UInt64.size ∧
      ∃ payment, b.rate.paymentFor feeJuice = .ok payment ∧
        p = ⟨b.facility, b.acceptedAsset, feeJuice, payment, issuedAt + b.validity, user⟩ := by
  by_cases huser : user.isZero = true
  · rw [preimage, if_pos huser]
    exact ⟨nofun, fun h => absurd (Address.isZero_iff.mp huser) h.1⟩
  by_cases hzero : feeJuice = 0
  · rw [preimage, if_neg huser, if_pos hzero]
    exact ⟨nofun, fun h => absurd hzero h.2.1⟩
  have hne : user ≠ .zero := fun heq => huser (Address.isZero_iff.mpr heq)
  simp only [preimage, huser, hzero, if_false]
  constructor
  · intro h
    obtain ⟨payment, hpayment, h⟩ := Except.bind_eq_ok.mp h
    split at h
    · rename_i hlt
      cases h
      exact ⟨hne, hzero, hlt, payment, hpayment, rfl⟩
    · cases h
  · rintro ⟨-, -, hlt, payment, hpayment, rfl⟩
    refine Except.bind_eq_ok.mpr ⟨payment, hpayment, ?_⟩
    rw [if_pos hlt]
    rfl

/-- There are no terms for a price that does not fit an amount. -/
theorem preimage_of_large (huser : user ≠ .zero) (hzero : feeJuice ≠ 0)
    (hlarge : Amount.bound ≤ feeJuice.toNat * b.rate.num.toNat) :
    b.preimage user feeJuice issuedAt = .error (.overflow "fj_amount * rate_num") := by
  have huser' : ¬user.isZero = true := fun h => huser (Address.isZero_iff.mp h)
  have hpayment : b.rate.paymentFor feeJuice = .error (.overflow "fj_amount * rate_num") :=
    (payment_eq_error b.rate.den_ne_zero).mpr ⟨hlarge, rfl⟩
  rw [preimage, if_neg huser', if_neg hzero, hpayment]
  rfl

/-- A signed quote shows the terms that were signed. -/
theorem issue_eq_ok {q : Signed} (h : b.issue user feeJuice issuedAt = .ok q) :
    ∃ p signature, b.preimage user feeJuice issuedAt = .ok p ∧
      b.signer.sign p.hash = .ok signature ∧
      q = ⟨p.acceptedAsset, p.feeJuice, p.payment, p.validUntil, p.user, signature⟩ := by
  rw [issue] at h
  obtain ⟨p, hp, h⟩ := Except.bind_eq_ok.mp h
  split at h
  · rename_i hsign
    cases h
    exact ⟨p, _, hp, hsign, rfl⟩
  · cases h

end Binder

/-! ## Parameters -/

theorem givenParameter_eq_some {raw : Option String} {s : String} :
    givenParameter raw = some s ↔ ∃ given, raw = some given ∧ s = Text.trim given ∧ s ≠ "" := by
  cases raw with
  | none => simp [givenParameter]
  | some given =>
    rw [givenParameter, Option.filter_eq_some_iff]
    constructor
    · rintro ⟨htrim, hne⟩
      cases htrim
      exact ⟨given, rfl, rfl, by simpa using hne⟩
    · rintro ⟨_, hgiven, rfl, hne⟩
      cases hgiven
      exact ⟨rfl, by simpa using hne⟩

theorem readUser_eq_ok {raw : Option String} {a : Address} : readUser raw = .ok a ↔
    ∃ given, raw = some given ∧ Address.ofText (Text.trim given) = .ok a ∧ a ≠ .zero := by
  constructor
  · intro h
    rw [readUser] at h
    split at h
    · cases h
    · rename_i hgiven
      obtain ⟨given, rfl, rfl, -⟩ := givenParameter_eq_some.mp hgiven
      split at h
      · cases h
      · rename_i htext
        split at h
        · cases h
        · rename_i hzero
          cases h
          exact ⟨given, rfl, htext, fun heq => hzero (Address.isZero_iff.mpr heq)⟩
  · rintro ⟨given, rfl, htext, hzero⟩
    -- A text that denotes an address is not empty.
    have hne : Text.trim given ≠ "" := by
      intro hempty
      rw [hempty] at htext
      cases htext
    have hgiven : givenParameter (some given) = some (Text.trim given) :=
      givenParameter_eq_some.mpr ⟨given, rfl, rfl, hne⟩
    have hnonzero : ¬a.isZero = true := fun h => hzero (Address.isZero_iff.mp h)
    simp only [readUser, hgiven, htext, if_neg hnonzero]

theorem readAmount_eq_ok {raw : Option String} {n : Amount} : readAmount raw = .ok n ↔
    ∃ given, raw = some given ∧ Text.trim given ≠ "" ∧
      (Text.trim given).toList.all Text.isDigit = true ∧
      Text.digitsValue (Text.trim given).toList = n.toNat ∧ n ≠ 0 := by
  constructor
  · intro h
    rw [readAmount] at h
    split at h
    · cases h
    · rename_i hgiven
      obtain ⟨given, rfl, rfl, hne⟩ := givenParameter_eq_some.mp hgiven
      split at h
      · cases h
      · rename_i hdigits
        split at h
        · cases h
        · rename_i hvalue
          split at h
          · cases h
          · rename_i hzero
            cases h
            exact ⟨given, rfl, hne, by simpa using hdigits, (Amount.ofNat?_eq_some.mp hvalue).symm,
              hzero⟩
  · rintro ⟨given, rfl, hne, hdigits, hvalue, hzero⟩
    have hgiven : givenParameter (some given) = some (Text.trim given) :=
      givenParameter_eq_some.mpr ⟨given, rfl, rfl, hne⟩
    have hamount := Amount.ofNat?_eq_some.mpr hvalue.symm
    simp only [readAmount, hgiven, hdigits, hamount, if_neg hzero]
    rfl

/-- A parameter that is refused is the caller's fault. -/
theorem readUser_eq_error {raw : Option String} {r : Refusal} (h : readUser raw = .error r) :
    ∃ why, r = .badRequest why := by
  rw [readUser] at h
  split at h
  · cases h
    exact ⟨_, rfl⟩
  · split at h
    · cases h
      exact ⟨_, rfl⟩
    · split at h
      · cases h
        exact ⟨_, rfl⟩
      · cases h

theorem readAmount_eq_error {raw : Option String} {r : Refusal} (h : readAmount raw = .error r) :
    ∃ why, r = .badRequest why := by
  rw [readAmount] at h
  split at h
  · cases h
    exact ⟨_, rfl⟩
  · split at h
    · cases h
      exact ⟨_, rfl⟩
    · split at h
      · cases h
        exact ⟨_, rfl⟩
      · split at h
        · cases h
          exact ⟨_, rfl⟩
        · cases h

/-- The parameters of a query ask for an amount for a user. -/
structure Asks (q : Http.Query) (user : Address) (amount : Amount) : Prop where
  user_given : ∃ given, q.get? "user" = some given ∧ Address.ofText (Text.trim given) = .ok user
  user_ne_zero : user ≠ .zero
  amount_given : ∃ given, q.get? "fj_amount" = some given ∧ Text.trim given ≠ "" ∧
    (Text.trim given).toList.all Text.isDigit = true ∧
    Text.digitsValue (Text.trim given).toList = amount.toNat
  one_le_amount : 1 ≤ amount.toNat

variable {q : Http.Query} {user : Address} {amount : Amount}

theorem asks_of_read (huser : readUser (q.get? "user") = .ok user)
    (hamount : readAmount (q.get? "fj_amount") = .ok amount) : Asks q user amount := by
  obtain ⟨given, hgiven, htext, hzero⟩ := readUser_eq_ok.mp huser
  obtain ⟨digits, hdigits, hne, hall, hvalue, hamount⟩ := readAmount_eq_ok.mp hamount
  exact ⟨⟨given, hgiven, htext⟩, hzero, ⟨digits, hdigits, hne, hall, hvalue⟩,
    Amount.one_le hamount⟩

theorem Asks.amount_ne_zero (h : Asks q user amount) : amount ≠ 0 :=
  Amount.ne_zero_iff.mpr (Nat.one_le_iff_ne_zero.mp h.one_le_amount)

theorem Asks.readUser (h : Asks q user amount) : readUser (q.get? "user") = .ok user := by
  obtain ⟨given, hgiven, htext⟩ := h.user_given
  exact readUser_eq_ok.mpr ⟨given, hgiven, htext, h.user_ne_zero⟩

theorem Asks.readAmount (h : Asks q user amount) : readAmount (q.get? "fj_amount") = .ok amount := by
  obtain ⟨given, hgiven, hne, hall, hvalue⟩ := h.amount_given
  exact readAmount_eq_ok.mpr ⟨given, hgiven, hne, hall, hvalue, h.amount_ne_zero⟩

/-! ## Desks -/

/-- The request is one for what is at a path. -/
def Request.IsFor (r : Request) (path : String) : Prop :=
  r.method = "GET" ∧ (Http.splitTarget r.url).1 = path

/-- The parameters of a request. -/
def Request.query (r : Request) : Http.Query := .parse (Http.splitTarget r.url).2

theorem Refusal.status_ne_ok (r : Refusal) : r.reply.status ≠ 200 := by
  cases r <;> nofun

namespace Desk

variable {d : Desk} {now : ClockReadings}

theorem quoteFor_eq_ok {now : UInt64} {q : Http.Query} {s : Signed}
    (h : d.quoteFor now q = .ok s) :
    ∃ user amount, readUser (q.get? "user") = .ok user ∧
      readAmount (q.get? "fj_amount") = .ok amount ∧
      d.binder.issue user amount (now / 1000) = .ok s := by
  rw [quoteFor] at h
  obtain ⟨user, huser, h⟩ := Except.bind_eq_ok.mp h
  obtain ⟨amount, hamount, h⟩ := Except.bind_eq_ok.mp h
  split at h
  · rename_i hissue
    cases h
    exact ⟨user, amount, huser, hamount, hissue⟩
  · cases h
  · cases h

theorem judge_eq_ok {c : Access.Credentials} {q : Http.Query} {t : RateLimit.Table} {s : Signed}
    (h : (d.judge now c q t).1 = .ok s) : d.quoteFor now.quote q = .ok s := by
  rw [judge] at h
  split at h
  · cases h
  · simp only at h
    split at h
    · exact h
    · cases h

/-- A request for a quote is judged by the table of calls alone, and then counted. -/
theorem route_quote {r : Request} (h : r.IsFor "/quote") (s : DeskState) : d.route now r s =
    (quoteReply (d.judge now r.credentials r.query s.table).1,
      ⟨(d.judge now r.credentials r.query s.table).2,
        s.metrics.observe (outcomeOf (d.judge now r.credentials r.query s.table).1)⟩) := by
  obtain ⟨hmethod, hpath⟩ := h
  rw [route]
  simp only [hmethod, hpath]
  rfl

/-- A request for a quote that is answered with the status 200 is answered with a quote. -/
theorem route_quote_ok {r : Request} {s : DeskState} (hmethod : r.method = "GET")
    (hpath : (Http.splitTarget r.url).1 = "/quote") (hok : (d.route now r s).1.status = 200) :
    ∃ q, d.quoteFor now.quote (.parse (Http.splitTarget r.url).2) = .ok q ∧
      (d.route now r s).1 = .json 200 q.toJson := by
  rw [route_quote ⟨hmethod, hpath⟩] at hok ⊢
  cases hanswer : (d.judge now r.credentials r.query s.table).1 with
  | error why =>
    rw [hanswer] at hok
    exact absurd hok why.status_ne_ok
  | ok q => exact ⟨q, judge_eq_ok hanswer, rfl⟩

end Desk
end Quote
end Paymaster

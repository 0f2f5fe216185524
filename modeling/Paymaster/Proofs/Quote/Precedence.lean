import Paymaster.Proofs.Quote.Terms
import Paymaster.Proofs.RateLimit.Counting
/-!
# Which check decides

A desk checks a request for a quote in a fixed order: the credentials, the rate limit, the
parameters, the price and the signature. The first check that fails decides the reply. The limit is
charged as soon as the credentials are right, whatever comes after it.
-/

namespace Paymaster.Quote

open RateLimit (check millisPerSecond)

variable {d : Desk} {now : UInt64} {c : Access.Credentials} {q : Http.Query}
  {t t' : RateLimit.Table} {user : Address} {amount : Amount}

/-! ## The terms of a quote -/

/-- The quote that shows some terms. -/
def Preimage.signed (p : Preimage) (signature : List UInt8) : Signed :=
  ⟨p.acceptedAsset, p.feeJuice, p.payment, p.validUntil, p.user, signature⟩

namespace Binder

variable {b : Binder} {issuedAt : UInt64}

/-- The terms on which an amount is sold to a user. -/
def terms (b : Binder) (user : Address) (amount : Amount) (issuedAt : UInt64) : Preimage where
  facility := b.facility
  acceptedAsset := b.acceptedAsset
  feeJuice := amount
  payment := BitVec.ofNat 128 ((amount.toNat * b.rate.num.toNat) ⌈/⌉ b.rate.den.toNat)
  validUntil := issuedAt + b.validity
  user := user

theorem preimage_of_fits (huser : user ≠ .zero) (hamount : amount ≠ 0)
    (hprice : amount.toNat * b.rate.num.toNat < Amount.bound)
    (hvalid : issuedAt.toNat + b.validity.toNat < UInt64.size) :
    b.preimage user amount issuedAt = .ok (b.terms user amount issuedAt) :=
  preimage_eq_ok.mpr ⟨huser, hamount, hvalid, _, payment_of_fits b.rate.den_ne_zero hprice, rfl⟩

/-- The second of a clock in milliseconds is so far from the end of time that a quote can always be
valid for an hour. -/
theorem validUntil_fits (now : UInt64) (hvalid : b.validity ≤ maxValidity) :
    (now / 1000).toNat + b.validity.toNat < UInt64.size := by
  have hnow := now.toNat_lt
  have hcap : b.validity.toNat ≤ 3600 := UInt64.le_iff_toNat_le.mp hvalid
  have hsecond : (now / 1000).toNat = now.toNat / 1000 := UInt64.toNat_div now 1000
  rw [hsecond, UInt64.size]
  omega

end Binder

/-! ## The parameters -/

theorem Asks.unique {user' : Address} {amount' : Amount} (h : Asks q user amount)
    (h' : Asks q user' amount') : user' = user ∧ amount' = amount := by
  have huser := h'.readUser.symm.trans h.readUser
  have hamount := h'.readAmount.symm.trans h.readAmount
  cases huser
  cases hamount
  exact ⟨rfl, rfl⟩

/-- A query cannot be quoted: it does not ask for an amount for a user, or the price of the amount
does not fit an amount. -/
def Unfit (rate : Rate) (q : Http.Query) : Prop :=
  (∀ user amount, ¬Asks q user amount) ∨
    ∃ user amount, Asks q user amount ∧ Amount.bound ≤ amount.toNat * rate.num.toNat

theorem Asks.unfit_iff {rate : Rate} (h : Asks q user amount) :
    Unfit rate q ↔ Amount.bound ≤ amount.toNat * rate.num.toNat := by
  constructor
  · rintro (hnone | ⟨user', amount', hasks, hlarge⟩)
    · exact absurd h (hnone user amount)
    · rwa [(h.unique hasks).2] at hlarge
  · intro hlarge
    exact .inr ⟨user, amount, h, hlarge⟩

theorem exists_of_not_unfit {rate : Rate} (h : ¬Unfit rate q) : ∃ user amount,
    Asks q user amount ∧ amount.toNat * rate.num.toNat < Amount.bound := by
  by_contra hnone
  apply h
  by_cases hasks : ∃ user amount, Asks q user amount
  · obtain ⟨user, amount, hasks⟩ := hasks
    rw [hasks.unfit_iff]
    by_contra hsmall
    exact hnone ⟨user, amount, hasks, Nat.not_le.mp hsmall⟩
  · exact .inl fun user amount h => hasks ⟨user, amount, h⟩

namespace Desk

/-! ## The quote -/

theorem quoteFor_of_not_asks (h : ∀ user amount, ¬Asks q user amount) :
    ∃ why, d.quoteFor now q = .error (.badRequest why) := by
  rw [quoteFor]
  cases huser : readUser (q.get? "user") with
  | error r =>
    obtain ⟨why, rfl⟩ := readUser_eq_error huser
    exact ⟨why, rfl⟩
  | ok user =>
    cases hamount : readAmount (q.get? "fj_amount") with
    | error r =>
      obtain ⟨why, rfl⟩ := readAmount_eq_error hamount
      exact ⟨why, rfl⟩
    | ok amount => exact absurd (asks_of_read huser hamount) (h user amount)

theorem quoteFor_of_large (h : Asks q user amount)
    (hlarge : Amount.bound ≤ amount.toNat * d.binder.rate.num.toNat) : d.quoteFor now q =
      .error (.badRequest "fj_amount too large (fj_amount * rate_num overflows)") := by
  have hissue : d.binder.issue user amount (now / 1000) =
      .error (.overflow "fj_amount * rate_num") := by
    rw [Binder.issue, Binder.preimage_of_large h.user_ne_zero h.amount_ne_zero hlarge]
    rfl
  rw [quoteFor, h.readUser, h.readAmount]
  simp only [bind, Except.bind, hissue]
  rfl

theorem quoteFor_of_unfit (h : Unfit d.binder.rate q) :
    ∃ why, d.quoteFor now q = .error (.badRequest why) := by
  rcases h with hnone | ⟨user, amount, hasks, hlarge⟩
  · exact quoteFor_of_not_asks hnone
  · exact ⟨_, quoteFor_of_large hasks hlarge⟩

/-- The parameters are refused to the caller, or something goes wrong inside. -/
theorem quoteFor_eq_error {r : Refusal} (h : d.quoteFor now q = .error r) :
    (∃ why, r = .badRequest why) ∨ ∃ why, r = .internal why := by
  rw [quoteFor] at h
  cases huser : readUser (q.get? "user") with
  | error r' =>
    rw [huser] at h
    cases h
    exact .inl (readUser_eq_error huser)
  | ok user =>
    cases hamount : readAmount (q.get? "fj_amount") with
    | error r' =>
      rw [huser, hamount] at h
      cases h
      exact .inl (readAmount_eq_error hamount)
    | ok amount =>
      rw [huser, hamount] at h
      simp only [bind, Except.bind] at h
      split at h
      · cases h
      · cases h
        exact .inl ⟨_, rfl⟩
      · cases h
        exact .inr ⟨_, rfl⟩

theorem status_quoteFor (d : Desk) (now : UInt64) (q : Http.Query) :
    (quoteReply (d.quoteFor now q)).status = 400 ∨ (quoteReply (d.quoteFor now q)).status = 500 ∨
      (quoteReply (d.quoteFor now q)).status = 200 := by
  cases h : d.quoteFor now q with
  | ok quote => exact .inr (.inr rfl)
  | error r =>
    rcases quoteFor_eq_error h with ⟨why, rfl⟩ | ⟨why, rfl⟩
    · exact .inl rfl
    · exact .inr (.inl rfl)

theorem retryAfter_quoteFor (d : Desk) (now : UInt64) (q : Http.Query) :
    (quoteReply (d.quoteFor now q)).retryAfter = none := by
  cases h : d.quoteFor now q with
  | ok quote => rfl
  | error r =>
    rcases quoteFor_eq_error h with ⟨why, rfl⟩ | ⟨why, rfl⟩
    · rfl
    · rfl

/-- What comes of the parameters of a request whose credentials and limit are in order. -/
inductive Quoting (d : Desk) (now : UInt64) (q : Http.Query) : Except Refusal Signed → Prop
  | badRequest {why : String} (hunfit : Unfit d.binder.rate q) :
    Quoting d now q (.error (.badRequest why))
  | internal {user : Address} {amount : Amount} {why : SigningError} (hasks : Asks q user amount)
    (hprice : amount.toNat * d.binder.rate.num.toNat < Amount.bound)
    (hsign : d.binder.signer.sign (d.binder.terms user amount (now / 1000)).hash = .error why) :
    Quoting d now q (.error (.internal (.signing why)))
  | ok {user : Address} {amount : Amount} {signature : List UInt8} (hasks : Asks q user amount)
    (hprice : amount.toNat * d.binder.rate.num.toNat < Amount.bound)
    (hsign : d.binder.signer.sign (d.binder.terms user amount (now / 1000)).hash = .ok signature) :
    Quoting d now q (.ok ((d.binder.terms user amount (now / 1000)).signed signature))

theorem quoteFor_quoting (hvalid : d.binder.validity ≤ maxValidity) :
    Quoting d now q (d.quoteFor now q) := by
  by_cases hunfit : Unfit d.binder.rate q
  · obtain ⟨why, hquote⟩ : ∃ why, d.quoteFor now q = .error (.badRequest why) :=
      quoteFor_of_unfit hunfit
    rw [hquote]
    exact .badRequest hunfit
  obtain ⟨user, amount, hasks, hprice⟩ := exists_of_not_unfit hunfit
  have hpreimage := Binder.preimage_of_fits hasks.user_ne_zero hasks.amount_ne_zero hprice
    (Binder.validUntil_fits now hvalid)
  rw [quoteFor, hasks.readUser, hasks.readAmount]
  simp only [bind, Except.bind, Binder.issue, hpreimage]
  cases hsign : d.binder.signer.sign (d.binder.terms user amount (now / 1000)).hash with
  | ok signature => exact .ok hasks hprice hsign
  | error why => exact .internal hasks hprice hsign

namespace Quoting

variable {answer : Except Refusal Signed}

theorem status_badRequest (h : Quoting d now q answer) :
    (quoteReply answer).status = 400 ↔ Unfit d.binder.rate q := by
  cases h with
  | badRequest hunfit => exact ⟨fun _ => hunfit, fun _ => rfl⟩
  | internal hasks hprice =>
    rw [hasks.unfit_iff]
    exact ⟨nofun, fun hlarge => absurd hprice (Nat.not_lt.mpr hlarge)⟩
  | ok hasks hprice =>
    rw [hasks.unfit_iff]
    exact ⟨nofun, fun hlarge => absurd hprice (Nat.not_lt.mpr hlarge)⟩

theorem status_internal (h : Quoting d now q answer) (hfit : (quoteReply answer).status ≠ 400) :
    (quoteReply answer).status = 500 ↔ ∃ user amount why, Asks q user amount ∧
      d.binder.signer.sign (d.binder.terms user amount (now / 1000)).hash = .error why := by
  cases h with
  | badRequest => exact absurd rfl hfit
  | internal hasks hprice hsign => exact ⟨fun _ => ⟨_, _, _, hasks, hsign⟩, fun _ => rfl⟩
  | ok hasks hprice hsign =>
    refine ⟨nofun, ?_⟩
    -- Only the terms that were signed are asked for.
    rintro ⟨user', amount', why, hasks', hfails⟩
    obtain ⟨rfl, rfl⟩ := hasks.unique hasks'
    rw [hsign] at hfails
    cases hfails

end Quoting

/-! ## The order of the checks -/

variable {now : ClockReadings}

/-- How a request for a quote is judged, and the table of calls after it. -/
inductive Ending (d : Desk) (now : ClockReadings) (c : Access.Credentials) (q : Http.Query)
    (t : RateLimit.Table) : Except Refusal Signed → RateLimit.Table → Prop
  | unauthorized {why : Access.Refusal} (hgate : d.gate.authenticate c = .error why) :
    Ending d now c q t (.error (.unauthorized why)) t
  | rateLimited {identity : Access.Identity} (hgate : d.gate.authenticate c = .ok identity)
    (hlimit : (check d.limits t identity.rateKey now.limiter).1.allowed = false) :
    Ending d now c q t
      (.error (.rateLimited (check d.limits t identity.rateKey now.limiter).1.retryAfter))
      (check d.limits t identity.rateKey now.limiter).2
  | quoting {identity : Access.Identity} (hgate : d.gate.authenticate c = .ok identity)
    (hlimit : (check d.limits t identity.rateKey now.limiter).1.allowed = true) :
    Ending d now c q t (d.quoteFor now.quote q) (check d.limits t identity.rateKey now.limiter).2

theorem judge_ending (d : Desk) (now : ClockReadings) (c : Access.Credentials) (q : Http.Query)
    (t : RateLimit.Table) : Ending d now c q t (d.judge now c q t).1 (d.judge now c q t).2 := by
  rw [judge]
  cases hgate : d.gate.authenticate c with
  | error why => exact .unauthorized hgate
  | ok identity =>
    dsimp only
    cases hlimit : (check d.limits t identity.rateKey now.limiter).1.allowed with
    | false => exact .rateLimited hgate hlimit
    | true => exact .quoting hgate hlimit

namespace Ending

variable {answer : Except Refusal Signed} {identity : Access.Identity}

theorem status_unauthorized (h : Ending d now c q t answer t') :
    (quoteReply answer).status = 401 ↔ ∃ why, d.gate.authenticate c = .error why := by
  cases h with
  | unauthorized hgate => exact ⟨fun _ => ⟨_, hgate⟩, fun _ => rfl⟩
  | rateLimited hgate =>
    rw [hgate]
    exact ⟨nofun, nofun⟩
  | quoting hgate =>
    have hquote := status_quoteFor d now.quote q
    rw [hgate]
    exact ⟨fun hstatus => (by omega), nofun⟩

/-- The limit of whoever is let in is charged once, and either it refuses or the parameters
decide. -/
theorem of_authorized (h : Ending d now c q t answer t')
    (hgate : d.gate.authenticate c = .ok identity) :
    t' = (check d.limits t identity.rateKey now.limiter).2 ∧
      ((check d.limits t identity.rateKey now.limiter).1.allowed = false ∧
          answer =
            .error (.rateLimited (check d.limits t identity.rateKey now.limiter).1.retryAfter) ∨
        (check d.limits t identity.rateKey now.limiter).1.allowed = true ∧
          answer = d.quoteFor now.quote q) := by
  cases h with
  | unauthorized hrefused =>
    rw [hgate] at hrefused
    cases hrefused
  | rateLimited hgate' hlimit =>
    rw [hgate] at hgate'
    cases hgate'
    exact ⟨rfl, .inl ⟨hlimit, rfl⟩⟩
  | quoting hgate' hlimit =>
    rw [hgate] at hgate'
    cases hgate'
    exact ⟨rfl, .inr ⟨hlimit, rfl⟩⟩

theorem status_rateLimited (h : Ending d now c q t answer t')
    (hgate : d.gate.authenticate c = .ok identity) : (quoteReply answer).status = 429 ↔
      (check d.limits t identity.rateKey now.limiter).1.allowed = false := by
  obtain ⟨-, ⟨hlimit, rfl⟩ | ⟨hlimit, rfl⟩⟩ := h.of_authorized hgate
  · exact ⟨fun _ => hlimit, fun _ => rfl⟩
  · have hquote := status_quoteFor d now.quote q
    rw [hlimit]
    exact ⟨fun hstatus => (by omega), nofun⟩

/-- Whoever is not let in does not touch the table. -/
theorem of_unauthorized (h : Ending d now c q t answer t')
    (hstatus : (quoteReply answer).status = 401) :
    (∃ why, answer = .error (.unauthorized why)) ∧ t' = t := by
  cases h with
  | unauthorized => exact ⟨⟨_, rfl⟩, rfl⟩
  | rateLimited => cases hstatus
  | quoting =>
    have hquote := status_quoteFor d now.quote q
    omega

theorem eq_quoteFor (h : Ending d now c q t answer t')
    (hgate : (quoteReply answer).status ≠ 401) (hlimit : (quoteReply answer).status ≠ 429) :
    answer = d.quoteFor now.quote q := by
  cases h with
  | unauthorized => exact absurd rfl hgate
  | rateLimited => exact absurd rfl hlimit
  | quoting => rfl

theorem retryAfter_iff (h : Ending d now c q t answer t') :
    (quoteReply answer).retryAfter.isSome = true ↔ (quoteReply answer).status = 429 := by
  cases h with
  | unauthorized => exact ⟨nofun, nofun⟩
  | rateLimited => exact ⟨fun _ => rfl, fun _ => rfl⟩
  | quoting =>
    have hquote := status_quoteFor d now.quote q
    rw [retryAfter_quoteFor]
    exact ⟨nofun, fun hstatus => (by omega)⟩

end Ending

/-! ## Replies -/

/-- A reply to a request for a quote, and the state after it, as the first check that fails decides
them. -/
structure InOrder (d : Desk) (now : ClockReadings) (r : Request) (s : DeskState)
    (reply : Http.Reply) (after : DeskState) : Prop where
  unauthorized : reply.status = 401 ↔ ∃ why, d.gate.authenticate r.credentials = .error why
  uncharged : reply.status = 401 → after.table = s.table
  charged : ∀ identity, d.gate.authenticate r.credentials = .ok identity →
    after.table = (check d.limits s.table identity.rateKey now.limiter).2
  rateLimited : ∀ identity, d.gate.authenticate r.credentials = .ok identity →
    (reply.status = 429 ↔ (check d.limits s.table identity.rateKey now.limiter).1.allowed = false)
  counted : ∀ identity, d.gate.authenticate r.credentials = .ok identity →
    d.limits.enabled = true → reply.status ≠ 429 →
      after.table.countAt d.limits identity.rateKey (now.limiter.toNat / 1000) =
        s.table.countAt d.limits identity.rateKey (now.limiter.toNat / 1000) + 1
  badRequest : reply.status ≠ 401 → reply.status ≠ 429 → (reply.status = 400 ↔
    (∀ user amount, ¬Asks r.query user amount) ∨
      ∃ user amount, Asks r.query user amount ∧
        Amount.bound ≤ amount.toNat * d.binder.rate.num.toNat)
  internal : reply.status ≠ 401 → reply.status ≠ 429 → reply.status ≠ 400 → (reply.status = 500 ↔
    ∃ user amount why, Asks r.query user amount ∧
      d.binder.signer.sign (d.binder.terms user amount (now.quote / 1000)).hash = .error why)
  ok : reply.status ≠ 401 → reply.status ≠ 429 → reply.status ≠ 400 → reply.status ≠ 500 →
    reply.status = 200
  retryAfter : reply.retryAfter.isSome = true ↔ reply.status = 429

/-- The key of an identity is never blank, so calls are counted under it. -/
theorem effectiveKey_rateKey (identity : Access.Identity) :
    RateLimit.effectiveKey identity.rateKey = identity.rateKey := by
  have hblank : Text.isBlankText identity.rateKey = false := by
    cases identity with
    | key digest =>
      have hk : Text.isBlank 'k' = false := by decide
      simp [Text.isBlankText, Access.Identity.rateKey, hk]
    | remote address =>
      have ha : Text.isBlank 'a' = false := by decide
      simp [Text.isBlankText, Access.Identity.rateKey, ha]
  rw [RateLimit.effectiveKey, hblank]
  rfl

theorem countAt_check {p : RateLimit.Policy} {identity : Access.Identity} (he : p.enabled = true)
    (hallowed : (check p t identity.rateKey now.limiter).1.allowed = true) :
    (check p t identity.rateKey now.limiter).2.countAt p identity.rateKey
        (now.limiter.toNat / millisPerSecond) =
      t.countAt p identity.rateKey (now.limiter.toNat / millisPerSecond) + 1 := by
  rw [check, if_pos he, effectiveKey_rateKey] at hallowed ⊢
  exact RateLimit.countAt_checkAt hallowed

/-- Every request for a quote is answered as the first check that fails decides: the credentials,
the rate limit, the parameters with their price, and the signature. -/
theorem route_in_order {facility asset : Address} {rate : Rate} {validity : UInt64}
    {signer : Signer} (hbinder : Binder.of facility asset rate validity signer = .ok d.binder)
    {r : Request} (hquote : r.IsFor "/quote") (s : DeskState) :
    InOrder d now r s (d.route now r s).1 (d.route now r s).2 := by
  have hvalid : d.binder.validity ≤ maxValidity := by
    rw [Binder.of_eq_ok hbinder, UInt64.le_iff_toNat_le, UInt64.toNat_min]
    exact Nat.min_le_right _ _
  have hquoting : Quoting d now.quote r.query (d.quoteFor now.quote r.query) :=
    quoteFor_quoting hvalid
  have hending := judge_ending d now r.credentials r.query s.table
  rw [route_quote hquote]
  constructor
  case unauthorized => exact hending.status_unauthorized
  case uncharged => exact fun h401 => (hending.of_unauthorized h401).2
  case charged => exact fun identity hgate => (hending.of_authorized hgate).1
  case rateLimited => exact fun identity hgate => hending.status_rateLimited hgate
  case retryAfter => exact hending.retryAfter_iff
  case counted =>
    intro identity hgate he h429
    have hallowed := mt (hending.status_rateLimited hgate).mpr h429
    rw [Bool.not_eq_false] at hallowed
    dsimp only
    rw [(hending.of_authorized hgate).1]
    exact countAt_check he hallowed
  case badRequest =>
    intro h401 h429
    rw [hending.eq_quoteFor h401 h429]
    exact hquoting.status_badRequest
  case internal =>
    intro h401 h429 h400
    have hanswer := hending.eq_quoteFor h401 h429
    rw [hanswer] at h400 ⊢
    exact hquoting.status_internal h400
  case ok =>
    intro h401 h429 h400 h500
    have hanswer := hending.eq_quoteFor h401 h429
    have hstatus := status_quoteFor d now.quote r.query
    rw [← hanswer] at hstatus
    dsimp only at *
    omega

/-- A desk whose signer is out of service. It grants everybody one request in a minute. -/
def silentDesk : Desk where
  binder := ⟨⟨1⟩, ⟨2⟩, ⟨5, 4, by decide, by decide⟩, maxValidity, .failing (.unavailable "away")⟩
  assetName := "coin"
  gate := .disabled
  limits := ⟨true, 1, 60, 100⟩
  metricsEnabled := false

/-- A request for half of what an amount can hold. -/
def largeRequest : Request where
  method := "GET"
  url := "/quote?fj_amount=170141183460469231731687303715884105728&user=0x5"
  credentials := ⟨none, none, "10.0.0.7"⟩

theorem asks_largeRequest : Asks largeRequest.query ⟨5⟩ (1 <<< 127) where
  user_given := ⟨"0x5", by decide, rfl⟩
  user_ne_zero := by decide
  amount_given :=
    ⟨"170141183460469231731687303715884105728", by decide, by decide, by decide, by decide⟩
  one_le_amount := by decide

/-- The price is too large, so nobody asks the signer; but the request is counted. -/
theorem route_in_order_large :
    (silentDesk.route ⟨1700000000998, 1700000000999⟩ largeRequest .initial).1.status = 400 ∧
      (silentDesk.route ⟨1700000000998, 1700000000999⟩ largeRequest .initial).2.table.countAt
        silentDesk.limits "addr:10.0.0.7" 1700000000 = 1 := by
  have hbinder : Binder.of ⟨1⟩ ⟨2⟩ silentDesk.binder.rate 5000 silentDesk.binder.signer =
      .ok silentDesk.binder := rfl
  have hgate : silentDesk.gate.authenticate largeRequest.credentials =
      .ok (.remote "10.0.0.7") := rfl
  have horder : InOrder silentDesk ⟨1700000000998, 1700000000999⟩ largeRequest .initial _ _ :=
    route_in_order hbinder ⟨rfl, by decide⟩ .initial
  have h401 := mt horder.unauthorized.mp (by rw [hgate]; exact nofun)
  have h429 := mt (horder.rateLimited _ hgate).mp (by decide)
  have hlarge := (horder.badRequest h401 h429).mpr
    (.inr ⟨⟨5⟩, 1 <<< 127, asks_largeRequest, by decide⟩)
  exact ⟨hlarge, horder.counted _ hgate rfl h429⟩

end Desk
end Paymaster.Quote

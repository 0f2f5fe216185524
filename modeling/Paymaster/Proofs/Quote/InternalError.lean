import Paymaster.Proofs.Json.ReadBack
import Paymaster.Proofs.Quote.TurnedAway
/-!
# Internal errors

A desk answers with the status 500 only if its signer was asked for a quote and failed, which the
local signer never does. The reply is then the same, whatever failed and for whom. All else that
could stop a quote is refused before the binder is asked for it, or cannot be: so a caller who is
told of an overflow has asked for an amount whose price is too large.
-/

namespace Paymaster

/-! ## Words in texts -/

namespace Text

/-- A word stands somewhere in a text. -/
def Mentions (word s : String) : Prop := word.toList <:+: s.toList

instance (word s : String) : Decidable (Mentions word s) :=
  inferInstanceAs (Decidable (_ <:+: _))

theorem exists_digit_of_mem_toDigits {b : Nat} (hb : 1 < b) (n : Nat) {c : Char}
    (h : c ∈ Nat.toDigits b n) : ∃ d < b, c = d.digitChar := by
  induction n using Nat.strongRecOn with
  | ind n ih =>
    rw [Nat.toDigits_eq_if hb] at h
    split at h
    · rename_i hn
      exact ⟨n, hn, List.mem_singleton.mp h⟩
    · rename_i hn
      rcases List.mem_append.mp h with h | h
      · exact ih (n / b) (Nat.div_lt_self (by omega) hb) h
      · exact ⟨n % b, Nat.mod_lt n (by omega), List.mem_singleton.mp h⟩

theorem not_mem_toString {c : Char} (hc : isDigit c = false) (n : Nat) :
    c ∉ (toString n).toList := by
  rw [Nat.toString_eq_ofList_toDigits, String.toList_ofList]
  intro h
  rw [isDigit_of_mem_toDigits h] at hc
  cases hc

theorem w_not_mem_codePointEscape (c : Char) : 'w' ∉ (codePointEscape c).toList := by
  have hdigits : 'w' ∉ (hexDigits c.toNat).toList := by
    rw [hexDigits, String.toList_ofList]
    intro h
    obtain ⟨d, hd, hw⟩ := exists_digit_of_mem_toDigits (by decide) _ h
    revert d
    decide
  simp only [codePointEscape, String.toList_append, List.mem_append, hdigits, or_false]
  decide

/-- The letter `w` is shown only for itself. -/
theorem w_mem_quoteChar {c : Char} (h : 'w' ∈ (quoteChar c).toList) : c = 'w' := by
  simp only [quoteChar, String.toList_append, List.mem_append] at h
  rcases h with (h | h) | h
  · exact absurd h (by decide)
  · rw [escapeChar] at h
    split_ifs at h
    all_goals try exact absurd h (by decide)
    · exact absurd h (w_not_mem_codePointEscape c)
    · simpa [eq_comm] using h
  · exact absurd h (by decide)

end Text

namespace Json

theorem isPlainText_append (s t : String) :
    isPlainText (s ++ t) = (isPlainText s && isPlainText t) := by
  rw [isPlainText, String.toList_append, List.all_append]
  rfl

/-- Of all characters only a `w` brings a `w` into a JSON string. -/
theorem w_mem_escapeChar {c : Char} (h : 'w' ∈ escapeChar c) : c = 'w' := by
  have hcontrol : ∀ n < 32, 'w' ∉ '\\' :: 'u' :: fourDigits n := by decide
  rw [escapeChar] at h
  -- The escapes by a letter are `n`, `r`, `t`, `b` and `f`; all other controls become digits.
  split_ifs at h with _ _ _ _ _ _ _ hlt
  all_goals try exact absurd h (by decide)
  · exact absurd h (hcontrol _ hlt)
  · exact (List.mem_singleton.mp h).symm

theorem w_mem_quoteText {s : String} (h : 'w' ∈ (quoteText s).toList) : 'w' ∈ s.toList := by
  rw [quoteText, String.toList_ofList] at h
  rcases List.mem_cons.mp h with h | h
  · exact absurd h (by decide)
  rcases List.mem_append.mp h with h | h
  · obtain ⟨c, hc, h⟩ := List.mem_flatMap.mp h
    rwa [w_mem_escapeChar h] at hc
  · exact absurd h (by decide)

end Json

namespace Quote

open Text (Mentions)

/-! ## Messages about parameters -/

/-- A message that cannot be read as one about an overflow: it has no `w`, or it has no `f` and
stands in JSON as it is. -/
def Unrelated (why : String) : Prop :=
  'w' ∉ why.toList ∨ 'f' ∉ why.toList ∧ Json.isPlainText why = true

/-- The one byte of the caller's text that is shown may be a `w`. -/
theorem unrelated_badDigit (b : UInt8) (position : Nat) : Unrelated ("invalid user: " ++
    (AddressError.invalidHex (.badDigit b position)).message) := by
  have hmessage : (AddressError.invalidHex (.badDigit b position)).message =
      "address is not valid hex: " ++ ("Invalid character " ++
        Text.quoteChar (Char.ofNat b.toNat) ++ " at position " ++ toString position) := rfl
  have hw : 'w' ∉ (toString position).toList := Text.not_mem_toString (by decide) position
  have hf : 'f' ∉ (toString position).toList := Text.not_mem_toString (by decide) position
  rw [hmessage, Unrelated]
  by_cases hshown : 'w' ∈ (Text.quoteChar (Char.ofNat b.toNat)).toList
  · have hquoted : Text.quoteChar 'w' = "'w'" := by decide
    rw [Text.w_mem_quoteChar hshown, hquoted]
    right
    constructor
    · simp only [String.toList_append, List.mem_append, hf, or_false]
      decide
    · simp only [Json.isPlainText_append, Json.isPlainText_toString, Bool.and_true]
      decide
  · left
    simp only [String.toList_append, List.mem_append, hshown, hw, or_false]
    decide

theorem unrelated_address (e : AddressError) : Unrelated ("invalid user: " ++ e.message) := by
  cases e with
  | empty => exact .inl (by decide)
  | missingMarker => exact .inl (by decide)
  | tooLong n =>
    have hmessage : (AddressError.tooLong n).message =
        "address has " ++ toString n ++ " hex digits, expected at most 64" := rfl
    have hw : 'w' ∉ (toString n).toList := Text.not_mem_toString (by decide) n
    left
    simp only [hmessage, String.toList_append, List.mem_append, hw, or_false]
    decide
  | invalidHex e =>
    cases e with
    | oddLength => exact .inl (by decide)
    | badDigit b position => exact unrelated_badDigit b position

/-- A letter in the body of a refusal is one of the message, unless it is in the body of every
refusal. -/
theorem mem_body_badRequest {x : Char} {why : String}
    (hx : x ∉ (Refusal.badRequest "").reply.body.toList)
    (h : x ∈ (Refusal.badRequest why).reply.body.toList) : x ∈ (Json.quoteText why).toList := by
  have hbody (why : String) : (Refusal.badRequest why).reply.body = (Http.Reply.errorBody
      "BAD_REQUEST" why).compact := rfl
  rw [hbody, Http.Reply.errorBody] at hx h
  simp only [Json.compact, Json.compactFields, String.toList_append, List.mem_append,
    not_or] at hx h
  simpa only [hx, or_false, false_or] using h

theorem readUser_unrelated {raw : Option String} {why : String}
    (h : readUser raw = .error (.badRequest why)) : Unrelated why := by
  rw [readUser] at h
  split at h
  · cases h
    exact .inl (by decide)
  · split at h
    · cases h
      exact unrelated_address _
    · split at h
      · cases h
        exact .inl (by decide)
      · cases h

theorem readAmount_unrelated {raw : Option String} {why : String}
    (h : readAmount raw = .error (.badRequest why)) : Unrelated why := by
  rw [readAmount] at h
  split at h
  · cases h
    exact .inl (by decide)
  · split at h
    · cases h
      exact .inl (by decide)
    · split at h
      · cases h
        exact .inl (by decide)
      · split at h
        · cases h
          exact .inl (by decide)
        · cases h

theorem Unrelated.not_mentions {why : String} (h : Unrelated why) :
    ¬Mentions "overflow" (Refusal.badRequest why).reply.body := by
  intro hword
  -- The word has both letters, and around the message there is neither of them.
  have hw : 'w' ∈ (Json.quoteText why).toList :=
    mem_body_badRequest (by decide) (hword.subset (by decide))
  have hf : 'f' ∈ (Json.quoteText why).toList :=
    mem_body_badRequest (by decide) (hword.subset (by decide))
  rcases h with h | ⟨h, hplain⟩
  · exact h (Json.w_mem_quoteText hw)
  · rw [Json.quoteText_plain hplain, String.toList_ofList] at hf
    simp [h] at hf

/-! ## Binders -/

/-- Of a user and an amount there is a quote, unless the price is too large or the signer fails. -/
theorem Binder.issue_eq_error {b : Binder} (hvalid : b.validity ≤ maxValidity) {now : UInt64}
    {user : Address} {amount : Amount} (huser : user ≠ .zero) (hamount : amount ≠ 0)
    {e : QuoteError} : b.issue user amount (now / 1000) = .error e ↔
      (Amount.bound ≤ amount.toNat * b.rate.num.toNat ∧ e = .overflow "fj_amount * rate_num") ∨
      (amount.toNat * b.rate.num.toNat < Amount.bound ∧
        ∃ why, b.signer.sign (b.terms user amount (now / 1000)).hash = .error why ∧
          e = .signing why) := by
  by_cases hlarge : Amount.bound ≤ amount.toNat * b.rate.num.toNat
  · rw [issue, preimage_of_large huser hamount hlarge]
    simp [bind, Except.bind, hlarge, eq_comm]
  · have hprice := Nat.not_le.mp hlarge
    rw [issue, preimage_of_fits huser hamount hprice (validUntil_fits now hvalid)]
    simp only [bind, Except.bind]
    cases hsign : b.signer.sign (b.terms user amount (now / 1000)).hash with
    | ok signature => simp [hlarge, pure, Except.pure]
    | error why => simp [hlarge, hprice, eq_comm, throw, throwThe, MonadExceptOf.throw]

namespace Desk

variable {d : Desk} {now : UInt64} {q : Http.Query} {r : Request} {s : DeskState}

/-! ## Refused parameters -/

theorem quoteFor_unrelated (h : ∀ user amount, ¬Asks q user amount) {why : String}
    (hquote : d.quoteFor now q = .error (.badRequest why)) : Unrelated why := by
  rw [quoteFor] at hquote
  cases huser : readUser (q.get? "user") with
  | error refusal =>
    rw [huser] at hquote
    cases hquote
    exact readUser_unrelated huser
  | ok user =>
    cases hamount : readAmount (q.get? "fj_amount") with
    | error refusal =>
      rw [huser, hamount] at hquote
      cases hquote
      exact readAmount_unrelated hamount
    | ok amount => exact absurd (asks_of_read huser hamount) (h user amount)

theorem mentions_overflow_iff (hvalid : d.binder.validity ≤ maxValidity) {why : String}
    (hquote : d.quoteFor now q = .error (.badRequest why)) :
    Mentions "overflow" (Refusal.badRequest why).reply.body ↔ ∃ user amount, Asks q user amount ∧
      Amount.bound ≤ amount.toNat * d.binder.rate.num.toNat := by
  have hquoting : Quoting d now q (d.quoteFor now q) := quoteFor_quoting hvalid
  rw [hquote] at hquoting
  rcases hquoting.status_badRequest.mp rfl with hnone | ⟨user, amount, hasks, hlarge⟩
  · constructor
    · exact fun hword => absurd hword (quoteFor_unrelated hnone hquote).not_mentions
    · exact fun ⟨user, amount, hasks, _⟩ => absurd hasks (hnone user amount)
  · rw [quoteFor_of_large hasks hlarge] at hquote
    cases hquote
    exact ⟨fun _ => ⟨user, amount, hasks, hlarge⟩, fun _ => (by decide +kernel)⟩

/-! ## Replies -/

/-- The reply to whoever asks for a quote that the signer fails to sign. -/
def internalReply : Http.Reply where
  status := 500
  contentType := "application/json"
  body := "\x7b\"error\":\x7b\"code\":\"INTERNAL_ERROR\",\"message\":\"internal error\"\x7d\x7d"
  retryAfter := none

theorem quoteReply_badRequest {answer : Except Refusal Signed}
    (h : (quoteReply answer).status = 400) : ∃ why, answer = .error (.badRequest why) := by
  cases answer with
  | ok quote => cases h
  | error refusal =>
    cases refusal with
    | badRequest why => exact ⟨why, rfl⟩
    | unauthorized => cases h
    | rateLimited => cases h
    | internal => cases h

theorem quoteReply_internal {answer : Except Refusal Signed}
    (h : (quoteReply answer).status = 500) : quoteReply answer = internalReply := by
  cases answer with
  | ok quote => cases h
  | error refusal =>
    cases refusal with
    | badRequest => cases h
    | unauthorized => cases h
    | rateLimited => cases h
    | internal why =>
      have hreply : (Refusal.internal why).reply = (Refusal.internal .zeroUser).reply := rfl
      rw [quoteReply, hreply]
      decide

variable {now : ClockReadings}

/-- Only requests for a quote have replies with other statuses than 200 and 404. -/
theorem isFor_quote_of_status {status : Nat} (h : (d.route now r s).1.status = status)
    (hok : status ≠ 200) (hmissing : status ≠ 404) : r.IsFor "/quote" := by
  by_contra hother
  rw [route] at h
  dsimp only at h
  split_ifs at h with hmethod hhealth hasset hquote hmetrics hshown
  · exact hmissing h.symm
  · exact hok h.symm
  · exact hok h.symm
  · exact hother ⟨not_not.mp hmethod, hquote⟩
  · exact hok h.symm
  · exact hmissing h.symm
  · exact hmissing h.symm

/-- The signer is asked for the quote that a request is for, and fails. -/
structure SignerFails (d : Desk) (now : ClockReadings) (r : Request) (s : DeskState)
    (user : Address) (amount : Amount) (why : SigningError) : Prop where
  quote : r.IsFor "/quote"
  admitted : ∃ identity, d.gate.authenticate r.credentials = .ok identity ∧
    (RateLimit.check d.limits s.table identity.rateKey now.limiter).1.allowed = true
  asks : Asks r.query user amount
  fits : amount.toNat * d.binder.rate.num.toNat < Amount.bound
  fails : d.binder.signer.sign (d.binder.terms user amount (now.quote / 1000)).hash = .error why

theorem Quoting.status_fails {now : UInt64} {answer : Except Refusal Signed}
    (h : Quoting d now q answer) :
    (quoteReply answer).status = 500 ↔ ∃ user amount why, Asks q user amount ∧
      amount.toNat * d.binder.rate.num.toNat < Amount.bound ∧
      d.binder.signer.sign (d.binder.terms user amount (now / 1000)).hash = .error why := by
  constructor
  · intro h500
    have h400 : (quoteReply answer).status ≠ 400 := by omega
    obtain ⟨user, amount, why, hasks, hfails⟩ := (h.status_internal h400).mp h500
    have hprice := mt h.status_badRequest.mpr h400
    rw [hasks.unfit_iff] at hprice
    exact ⟨user, amount, why, hasks, Nat.not_le.mp hprice, hfails⟩
  · rintro ⟨user, amount, why, hasks, hprice, hfails⟩
    have h400 : (quoteReply answer).status ≠ 400 := by
      rw [Ne, h.status_badRequest, hasks.unfit_iff]
      exact Nat.not_le.mpr hprice
    exact (h.status_internal h400).mpr ⟨user, amount, why, hasks, hfails⟩

/-- Who is let in and within the limit is answered by what comes of the parameters. -/
theorem Ending.eq_quoteFor_of_admitted {c : Access.Credentials} {t t' : RateLimit.Table}
    {answer : Except Refusal Signed} (h : Ending d now c q t answer t')
    {identity : Access.Identity} (hgate : d.gate.authenticate c = .ok identity)
    (hlimit : (RateLimit.check d.limits t identity.rateKey now.limiter).1.allowed = true) :
    answer = d.quoteFor now.quote q := by
  obtain ⟨-, ⟨hrefused, -⟩ | ⟨-, hanswer⟩⟩ := h.of_authorized hgate
  · rw [hlimit] at hrefused
    cases hrefused
  · exact hanswer

theorem Ending.admitted {c : Access.Credentials} {t t' : RateLimit.Table}
    {answer : Except Refusal Signed} (h : Ending d now c q t answer t')
    (h401 : (quoteReply answer).status ≠ 401) (h429 : (quoteReply answer).status ≠ 429) :
    ∃ identity, d.gate.authenticate c = .ok identity ∧
      (RateLimit.check d.limits t identity.rateKey now.limiter).1.allowed = true := by
  cases h with
  | unauthorized => exact absurd rfl h401
  | rateLimited => exact absurd rfl h429
  | quoting hgate hlimit => exact ⟨_, hgate, hlimit⟩

theorem status_route_internal (hvalid : d.binder.validity ≤ maxValidity) :
    (d.route now r s).1.status = 500 ↔
      ∃ user amount why, d.SignerFails now r s user amount why := by
  have hquoting : Quoting d now.quote r.query (d.quoteFor now.quote r.query) :=
    quoteFor_quoting hvalid
  have hending := judge_ending d now r.credentials r.query s.table
  constructor
  · intro h500
    have hquote : r.IsFor "/quote" := isFor_quote_of_status h500 (by decide) (by decide)
    rw [route_quote hquote] at h500
    have h401 := h500.trans_ne (by decide : 500 ≠ 401)
    have h429 := h500.trans_ne (by decide : 500 ≠ 429)
    rw [hending.eq_quoteFor h401 h429] at h500
    obtain ⟨user, amount, why, hasks, hprice, hfails⟩ := hquoting.status_fails.mp h500
    exact ⟨user, amount, why, hquote, hending.admitted h401 h429, hasks, hprice, hfails⟩
  · rintro ⟨user, amount, why, h⟩
    obtain ⟨identity, hgate, hlimit⟩ := h.admitted
    rw [route_quote h.quote, hending.eq_quoteFor_of_admitted hgate hlimit]
    exact hquoting.status_fails.mpr ⟨user, amount, why, h.asks, h.fits, h.fails⟩

theorem route_internal (h : (d.route now r s).1.status = 500) :
    (d.route now r s).1 = internalReply := by
  have hquote : r.IsFor "/quote" := isFor_quote_of_status h (by decide) (by decide)
  rw [route_quote hquote] at h ⊢
  exact quoteReply_internal h

theorem route_mentions_iff (hvalid : d.binder.validity ≤ maxValidity)
    (h : (d.route now r s).1.status = 400) : Mentions "overflow" (d.route now r s).1.body ↔
      ∃ user amount, Asks r.query user amount ∧
        Amount.bound ≤ amount.toNat * d.binder.rate.num.toNat := by
  have hquote : r.IsFor "/quote" := isFor_quote_of_status h (by decide) (by decide)
  have hending := judge_ending d now r.credentials r.query s.table
  rw [route_quote hquote] at h ⊢
  have h401 := h.trans_ne (by decide : 400 ≠ 401)
  have h429 := h.trans_ne (by decide : 400 ≠ 429)
  rw [hending.eq_quoteFor h401 h429] at h ⊢
  obtain ⟨why, hwhy⟩ := quoteReply_badRequest h
  rw [hwhy]
  exact mentions_overflow_iff hvalid hwhy

/-- A desk answers with the status 500 exactly when its signer is asked for a quote and fails, and
then always with the same reply. The local signer does not fail. Nothing else that could stop a
binder does: for what a caller may ask for, there is no quote only if the price is too large or the
signer fails, and a caller who is told of an overflow is told of the price. -/
theorem fails_only_by_signer {facility asset : Address} {rate : Rate} {validity : UInt64}
    {signer : Signer} (hbinder : Binder.of facility asset rate validity signer = .ok d.binder)
    (now : ClockReadings) (r : Request) (s : DeskState) :
    let reply := (d.route now r s).1
    (∀ key, signer = .ofKey key → reply.status ≠ 500) ∧
    (∀ user amount e, Asks r.query user amount →
      (d.binder.issue user amount (now.quote / 1000) = .error e ↔
        (Amount.bound ≤ amount.toNat * rate.num.toNat ∧ e = .overflow "fj_amount * rate_num") ∨
        (amount.toNat * rate.num.toNat < Amount.bound ∧
          ∃ why, signer.sign (d.binder.terms user amount (now.quote / 1000)).hash = .error why ∧
            e = .signing why))) ∧
    (reply.status = 400 → (Mentions "overflow" reply.body ↔
      ∃ user amount, Asks r.query user amount ∧ Amount.bound ≤ amount.toNat * rate.num.toNat)) ∧
    (reply.status = 500 ↔ ∃ user amount why, d.SignerFails now r s user amount why) ∧
    (reply.status = 500 → reply = internalReply) := by
  intro reply
  have hparts := Binder.of_eq_ok hbinder
  have hvalid : d.binder.validity ≤ maxValidity := by
    rw [hparts, UInt64.le_iff_toNat_le, UInt64.toNat_min]
    exact Nat.min_le_right _ _
  have hrate : d.binder.rate = rate := by rw [hparts]
  have hsigner : d.binder.signer = signer := by rw [hparts]
  have h500 : reply.status = 500 ↔ ∃ user amount why, d.SignerFails now r s user amount why :=
    status_route_internal hvalid
  refine ⟨?_, ?_, ?_, h500, route_internal⟩
  · rintro key rfl hinternal
    obtain ⟨user, amount, why, hfailing⟩ := h500.mp hinternal
    have hfails := hfailing.fails
    rw [hsigner] at hfails
    cases hfails
  · intro user amount e hasks
    rw [← hrate, ← hsigner]
    exact Binder.issue_eq_error hvalid hasks.user_ne_zero hasks.amount_ne_zero
  · rw [← hrate]
    exact route_mentions_iff hvalid

/-- A desk with the same terms as the silent one, whose signer holds a key. -/
def keyedDesk : Desk :=
  { silentDesk with binder := { silentDesk.binder with signer := .ofKey ⟨List.replicate 32 7⟩ } }

theorem asks_requestWith : Asks (requestWith none).query ⟨5⟩ 101 where
  user_given := ⟨"0x5", by decide, rfl⟩
  user_ne_zero := by decide
  amount_given := ⟨"101", by decide, by decide, by decide, by decide⟩
  one_le_amount := by decide

theorem signerFails_silentDesk : silentDesk.SignerFails ⟨1700000000998, 1700000000999⟩
    (requestWith none) .initial ⟨5⟩ 101 (.unavailable "away") where
  quote := ⟨rfl, by decide⟩
  admitted := ⟨.remote "10.0.0.7", rfl, by decide⟩
  asks := asks_requestWith
  fits := by decide
  fails := rfl

/-- The caller of the desk whose signer is out of service learns nothing of it; the caller of the
desk with a key has asked for too much, and is told so. -/
theorem fails_only_by_signer_silent :
    (silentDesk.route ⟨1700000000998, 1700000000999⟩ (requestWith none) .initial).1 = internalReply ∧
      (keyedDesk.route ⟨1700000000998, 1700000000999⟩ largeRequest .initial).1.status ≠ 500 ∧
      Mentions "overflow"
        (keyedDesk.route ⟨1700000000998, 1700000000999⟩ largeRequest .initial).1.body := by
  have hsilent : Binder.of ⟨1⟩ ⟨2⟩ silentDesk.binder.rate 5000 silentDesk.binder.signer =
      .ok silentDesk.binder := rfl
  have hkeyed : Binder.of ⟨1⟩ ⟨2⟩ keyedDesk.binder.rate 5000 keyedDesk.binder.signer =
      .ok keyedDesk.binder := rfl
  obtain ⟨-, -, -, hasked, hreply⟩ :=
    fails_only_by_signer hsilent ⟨1700000000998, 1700000000999⟩ (requestWith none) .initial
  obtain ⟨hlocal, -, hmentions, -⟩ :=
    fails_only_by_signer hkeyed ⟨1700000000998, 1700000000999⟩ largeRequest .initial
  have h400 :
      (keyedDesk.route ⟨1700000000998, 1700000000999⟩ largeRequest .initial).1.status = 400 := by
    decide +kernel
  refine ⟨hreply (hasked.mpr ⟨_, _, _, signerFails_silentDesk⟩), hlocal _ rfl, ?_⟩
  exact (hmentions h400).mpr ⟨⟨5⟩, 1 <<< 127, asks_largeRequest, by decide⟩

end Desk
end Quote
end Paymaster

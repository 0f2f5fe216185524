import Paymaster.Access
import Paymaster.Http.Query
import Paymaster.Http.Reply
import Paymaster.Quote.Binder
import Paymaster.Quote.Metrics
import Paymaster.RateLimit
import Paymaster.Text.Unsigned
/-!
# The quote desk

The desk answers requests for quotes. The gate comes first, then the rate limit under the identity
that the gate found, then the user, then the amount, and last the quote itself. The first of them
that refuses decides the reply. What goes wrong inside is told to nobody but the log.
-/

namespace Paymaster.Quote

/-- Why a request is refused. -/
inductive Refusal where
  /-- The parameters are wrong. -/
  | badRequest (why : String)
  /-- The credentials are wrong. -/
  | unauthorized (why : Access.Refusal)
  /-- The caller has to wait. -/
  | rateLimited (retryAfter : Nat)
  | internal (why : QuoteError)
  deriving DecidableEq, Repr

namespace Refusal

/-- The code of a refusal in the body of the reply. -/
def code : Refusal → String
  | .badRequest _ => "BAD_REQUEST"
  | .unauthorized _ => "UNAUTHORIZED"
  | .rateLimited _ => "RATE_LIMITED"
  | .internal _ => "INTERNAL_ERROR"

/-- The status of a refusal. -/
def status : Refusal → Nat
  | .badRequest _ => 400
  | .unauthorized _ => 401
  | .rateLimited _ => 429
  | .internal _ => 500

/-- The message for the caller. -/
def message : Refusal → String
  | .badRequest why => why
  | .unauthorized why => why.message
  | .rateLimited n => s!"rate limit exceeded, retry after {n}s"
  | .internal _ => "internal error"

/-- The outcome under which a refusal is counted. -/
def outcome : Refusal → Outcome
  | .badRequest _ => .badRequest
  | .unauthorized _ => .unauthorized
  | .rateLimited _ => .rateLimited
  | .internal _ => .internalError

/-- When the caller may come back. -/
def retryAfter? : Refusal → Option Nat
  | .rateLimited n => some n
  | _ => none

/-- The reply that tells the caller. -/
def reply (r : Refusal) : Http.Reply :=
  { Http.Reply.json r.status (Http.Reply.errorBody r.code r.message) with
    retryAfter := r.retryAfter? }

end Refusal

/-- A parameter without the blanks at its ends, unless nothing is left of it. -/
def givenParameter (raw : Option String) : Option String :=
  (raw.map Text.trim).filter fun s => !s.isEmpty

/-- The user of a request. -/
def readUser (raw : Option String) : Except Refusal Address :=
  match givenParameter raw with
  | none => .error (.badRequest "missing user")
  | some s =>
    match Address.ofText s with
    | .error e => .error (.badRequest s!"invalid user: {e.message}")
    | .ok a => if a.isZero then .error (.badRequest "user must not be the zero address") else .ok a

/-- The amount of a request. -/
def readAmount (raw : Option String) : Except Refusal Amount :=
  match givenParameter raw with
  | none => .error (.badRequest "missing fj_amount")
  | some s =>
    if !s.toList.all Text.isDigit then
      .error (.badRequest "fj_amount must be a decimal unsigned integer")
    else match Amount.ofNat? (Text.digitsValue s.toList) with
      | none => .error (.badRequest "fj_amount is out of range")
      | some n => if n = 0 then .error (.badRequest "fj_amount must be > 0") else .ok n

/-- What stays the same while a desk is open. -/
structure Desk where
  /-- The terms of all quotes. -/
  binder : Binder
  /-- The name of the accepted asset. -/
  assetName : String
  /-- Who is let in. -/
  gate : Access.Gate
  /-- How often. -/
  limits : RateLimit.Policy
  /-- Metrics are published. -/
  metricsEnabled : Bool

/-- What changes with every request. -/
structure DeskState where
  /-- The calls of each identity. -/
  table : RateLimit.Table
  /-- The counts. -/
  metrics : DeskMetrics

/-- The state at the start. -/
def DeskState.initial : DeskState := ⟨.empty, .initial⟩

/-- What the clock shows, in milliseconds, while a request is answered. It is read twice, and time
goes on in between. -/
structure ClockReadings where
  /-- When the call is counted. -/
  limiter : UInt64
  /-- When the quote is issued. -/
  quote : UInt64
  deriving DecidableEq, Repr

/-- A request. -/
structure Request where
  method : String
  /-- The path and the query. -/
  url : String
  /-- What the caller presents. -/
  credentials : Access.Credentials

namespace Desk

/-- The quote for some parameters at a time in milliseconds. -/
def quoteFor (d : Desk) (nowMillis : UInt64) (q : Http.Query) : Except Refusal Signed := do
  let user ← readUser (q.get? "user")
  let amount ← readAmount (q.get? "fj_amount")
  match d.binder.issue user amount (nowMillis / 1000) with
  | .ok s => return s
  | .error (.overflow what) => throw (.badRequest s!"fj_amount too large ({what} overflows)")
  | .error e => throw (.internal e)

/-- Judges a request for a quote; the second part is the table after it. -/
def judge (d : Desk) (now : ClockReadings) (c : Access.Credentials) (q : Http.Query)
    (t : RateLimit.Table) : Except Refusal Signed × RateLimit.Table :=
  match d.gate.authenticate c with
  | .error e => (.error (.unauthorized e), t)
  | .ok identity =>
    let (decision, t) := RateLimit.check d.limits t identity.rateKey now.limiter
    if decision.allowed then (d.quoteFor now.quote q, t)
    else (.error (.rateLimited decision.retryAfter), t)

/-- The outcome of a judged request. -/
def outcomeOf : Except Refusal Signed → Outcome
  | .ok _ => .ok
  | .error r => r.outcome

/-- Judges a request for a quote and counts it. -/
def quote (d : Desk) (now : ClockReadings) (c : Access.Credentials) (q : Http.Query)
    (s : DeskState) : Except Refusal Signed × DeskState :=
  let (answer, t) := d.judge now c q s.table
  (answer, ⟨t, s.metrics.observe (outcomeOf answer)⟩)

end Desk

/-- A quote in the body of a reply; numbers are decimal strings. -/
def Signed.toJson (q : Signed) : Json :=
  .table [("accepted_asset", .text q.acceptedAsset.toHex),
    ("fj_amount", .text q.feeJuice.toDecimal),
    ("aa_payment_amount", .text q.payment.toDecimal),
    ("valid_until", .text (toString q.validUntil.toNat)),
    ("signature", .text q.signatureHex)]

namespace Desk

/-- The accepted asset in the body of a reply. -/
def asset (d : Desk) : Json :=
  .table [("name", .text d.assetName), ("address", .text d.binder.acceptedAsset.toHex)]

/-- The reply to a request for a quote. -/
def quoteReply : Except Refusal Signed → Http.Reply
  | .ok q => .json 200 q.toJson
  | .error r => r.reply

/-- Answers a request. -/
def route (d : Desk) (now : ClockReadings) (r : Request) (s : DeskState) : Http.Reply × DeskState :=
  let (path, query) := Http.splitTarget r.url
  if r.method ≠ "GET" then (.notFound, s)
  else if path = "/health" then (.json 200 (.table [("status", .text "ok")]), s)
  else if path = "/asset" then (.json 200 d.asset, s)
  else if path = "/quote" then
    let (answer, s) := d.quote now r.credentials (.parse query) s
    (quoteReply answer, s)
  else if path = "/metrics" then
    (if d.metricsEnabled then .text 200 Http.Reply.metricsType s.metrics.text
      else .metricsDisabled, s)
  else (.notFound, s)

/-- The header that carries the API key. -/
def apiKeyHeader : String := "x-api-key"

/-- The credentials in the headers of a request. -/
def credentials (d : Desk) (headers : List (String × String)) (remote : String) :
    Access.Credentials where
  apiKey := Http.header? headers apiKeyHeader
  trustedHeader := Http.header? headers d.gate.headerName
  remote := remote

end Desk
end Paymaster.Quote

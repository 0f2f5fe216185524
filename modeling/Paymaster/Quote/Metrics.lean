import Paymaster.Metrics.Exposition
/-!
# Metrics of the quote desk

Every request for a quote is counted once under its outcome, once among the latency samples, and
once more if the rate limit refused it.
-/

namespace Paymaster.Quote

/-- How a request for a quote ends. -/
inductive Outcome where
  /-- With a quote. -/
  | ok
  /-- With a refusal of the parameters. -/
  | badRequest
  /-- With a refusal of the credentials. -/
  | unauthorized
  /-- With a refusal by the rate limit. -/
  | rateLimited
  /-- Without a signature. -/
  | internalError
  deriving DecidableEq, Repr

/-- The label of an outcome. -/
def Outcome.label : Outcome → String
  | .ok => "ok"
  | .badRequest => "bad_request"
  | .unauthorized => "unauthorized"
  | .rateLimited => "rate_limited"
  | .internalError => "internal_error"

/-- All outcomes in the order of their labels. -/
def Outcome.sorted : List Outcome :=
  [.badRequest, .internalError, .ok, .rateLimited, .unauthorized]

/-- The counts of the quote desk. -/
structure DeskMetrics where
  requests : Metrics.Tally Outcome
  /-- Latency samples by outcome. -/
  latencies : Metrics.Tally Outcome
  /-- Requests that the rate limit refused. -/
  rateLimited : Nat
  deriving Repr

namespace DeskMetrics

/-- The counts at the start. -/
def initial : DeskMetrics := ⟨.empty, .empty, 0⟩

/-- The counts after a request with an outcome. -/
def observe (m : DeskMetrics) (o : Outcome) : DeskMetrics where
  requests := m.requests.bump o
  latencies := m.latencies.bump o
  rateLimited := if o = .rateLimited then m.rateLimited + 1 else m.rateLimited

/-- The families of the quote desk in the order of their names. -/
def families (m : DeskMetrics) : List Metrics.Family :=
  [ ⟨"fpc_quote_latency_seconds", "Quote request handling latency by outcome", .histogram,
      m.latencies.samples Outcome.sorted "_count" "outcome" Outcome.label, false⟩,
    ⟨"fpc_quote_requests_total", "Quote requests by outcome", .counter,
      m.requests.samples Outcome.sorted "" "outcome" Outcome.label, false⟩,
    ⟨"fpc_rate_limited_total", "Quote requests rejected by the rate limiter", .counter,
      [("", toString m.rateLimited)], false⟩,
    Metrics.uptime ]

/-- The counts as text. -/
def text (m : DeskMetrics) : String := Metrics.exposition m.families

end DeskMetrics
end Paymaster.Quote

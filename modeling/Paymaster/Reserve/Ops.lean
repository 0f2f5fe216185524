import Paymaster.Http.Query
import Paymaster.Http.Reply
import Paymaster.Reserve.Metrics
/-!
# The operator's view of the top-up controller

Operators ask whether the controller lives, whether it is ready, and for its metrics. Each look at
the readiness also puts it on the gauge, so that the two agree.
-/

namespace Paymaster.Reserve

/-- What operators can see. -/
structure OpsView where
  /-- The health of the controller. -/
  readiness : Readiness
  metrics : ControllerMetrics

namespace OpsView

/-- The view with the readiness at a time on the gauge. -/
def refresh (v : OpsView) (now : Nat) : OpsView :=
  { v with metrics := { v.metrics with ready := v.readiness.isReady now } }

/-- Answers a request at a time. -/
def route (metricsEnabled : Bool) (v : OpsView) (method url : String) (now : Nat) :
    Http.Reply × OpsView :=
  let path := (Http.splitTarget url).1
  if method ≠ "GET" then (.notFound, v)
  else if path = "/health" then (.json 200 (.table [("status", .text "ok")]), v)
  else if path = "/ready" then
    let v := v.refresh now
    (.json (if v.readiness.isReady now then 200 else 503) (v.readiness.snapshot now), v)
  else if path = "/metrics" ∧ metricsEnabled then
    let v := v.refresh now
    (.text 200 Http.Reply.metricsType v.metrics.text, v)
  else (.notFound, v)

end OpsView
end Paymaster.Reserve

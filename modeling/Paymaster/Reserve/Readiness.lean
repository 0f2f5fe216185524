import Paymaster.Json.Value
import Paymaster.Metrics.Tally
/-!
# Readiness of the top-up controller

The controller is ready while its last look at the reserve balance went well and is not too old, and
it is not shutting down. The readiness state also counts what happened to deposits and holds the
flag that lets at most one deposit be in flight.
-/

namespace Paymaster.Reserve

/-- Why the controller is not ready. -/
inductive NotReady where
  /-- No balance check has gone well yet. -/
  | noSuccessfulChecks
  /-- The last balance check failed. -/
  | lastCheckFailed
  /-- The last balance check is too old. -/
  | staleChecks
  /-- The controller is shutting down. -/
  | shutdown
  deriving DecidableEq, Repr

/-- The name of a reason in replies. -/
def NotReady.name : NotReady → String
  | .noSuccessfulChecks => "no_successful_balance_checks"
  | .lastCheckFailed => "last_balance_check_failed"
  | .staleChecks => "stale_balance_checks"
  | .shutdown => "shutdown_in_progress"

/-- What happens to a deposit. -/
inductive BridgeEvent where
  /-- The bridge took it. -/
  | submitted
  /-- It arrived. -/
  | confirmed
  /-- It was not seen to arrive in time. -/
  | timeout
  /-- The wait for it was cut short. -/
  | aborted
  /-- The bridge refused it. -/
  | failed
  deriving DecidableEq, Repr

/-- The label of an event. -/
def BridgeEvent.label : BridgeEvent → String
  | .submitted => "submitted"
  | .confirmed => "confirmed"
  | .timeout => "timeout"
  | .aborted => "aborted"
  | .failed => "failed"

/-- All events. -/
def BridgeEvent.all : List BridgeEvent := [.submitted, .confirmed, .timeout, .aborted, .failed]

/-- What is known about the health of the controller. -/
structure Readiness where
  /-- The age in milliseconds up to which a balance check counts. -/
  staleAfter : Nat
  /-- Balance checks that went well. -/
  checksOk : Nat := 0
  /-- Balance checks that failed. -/
  checksFailed : Nat := 0
  /-- The time of the last balance check. -/
  lastCheck : Nat := 0
  /-- The last balance check went well. -/
  lastCheckOk : Bool := false
  /-- What happened to deposits. -/
  events : Metrics.Tally BridgeEvent := .empty
  /-- A deposit, or a wait for one, is in flight. -/
  inFlight : Bool := false
  /-- The controller is shutting down. -/
  shuttingDown : Bool := false
  deriving Repr

namespace Readiness

/-- The age up to which a check counts unless it is set: three intervals, at least a second. -/
def defaultStaleAfter (interval : Nat) : Nat := max (3 * interval) 1000

/-- The largest age that can be set. -/
def maxStaleAfter : Nat := UInt64.size - 1

/-- The state at the start. -/
def initial (staleAfter : Nat) : Readiness := { staleAfter := min staleAfter maxStaleAfter }

/-- After a balance check that went well. -/
def recordOk (r : Readiness) (now : Nat) : Readiness :=
  { r with checksOk := r.checksOk + 1, lastCheck := now, lastCheckOk := true }

/-- After a balance check that failed. -/
def recordError (r : Readiness) (now : Nat) : Readiness :=
  { r with checksFailed := r.checksFailed + 1, lastCheck := now, lastCheckOk := false }

/-- After something happened to a deposit. -/
def recordEvent (r : Readiness) (e : BridgeEvent) : Readiness := { r with events := r.events.bump e }

/-- Takes the flag, unless it is taken. -/
def beginFlight? (r : Readiness) : Option Readiness :=
  if r.inFlight then none else some { r with inFlight := true }

/-- Gives the flag back. -/
def endFlight (r : Readiness) : Readiness := { r with inFlight := false }

/-- After the shutdown began. -/
def beginShutdown (r : Readiness) : Readiness := { r with shuttingDown := true }

/-- Whether the controller is ready at a time. -/
def evaluate (r : Readiness) (now : Nat) : Except NotReady Unit :=
  if r.shuttingDown then .error .shutdown
  else if r.checksOk = 0 then .error .noSuccessfulChecks
  else if !r.lastCheckOk then .error .lastCheckFailed
  else if r.staleAfter < now - r.lastCheck then .error .staleChecks
  else .ok ()

/-- The controller is ready at a time. -/
def isReady (r : Readiness) (now : Nat) : Bool := (r.evaluate now).isOk

/-- The reason why the controller is not ready, if it is not. -/
def reason? (r : Readiness) (now : Nat) : Option NotReady :=
  match r.evaluate now with
  | .ok () => none
  | .error why => some why

/-- The state as a reply shows it. -/
def snapshot (r : Readiness) (now : Nat) : Json :=
  .table (("ready", .bool (r.isReady now)) ::
    ((r.reason? now).map fun why => ("reason", Json.text why.name)).toList ++
    [("balance_checks_ok", .nat r.checksOk), ("balance_checks_failed", .nat r.checksFailed),
      ("last_balance_check_ms", .nat r.lastCheck), ("bridge_in_flight", .bool r.inFlight)])

end Readiness
end Paymaster.Reserve

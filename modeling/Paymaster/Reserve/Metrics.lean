import Paymaster.Decimal.Shortest
import Paymaster.Metrics.Exposition
import Paymaster.Reserve.Readiness
import Paymaster.Word
/-!
# Metrics of the top-up controller

Counts of balance checks and of what happens to deposits, whether the controller is ready, and the
last balance seen. The balance is published as a floating point number, so its last digits may be
off.
-/

namespace Paymaster.Reserve

/-- How a balance check ends. -/
inductive CheckOutcome where
  /-- The node gave the balance. -/
  | ok
  /-- The storage gave the balance. -/
  | fallbackOk
  /-- Nothing gave the balance. -/
  | error
  deriving DecidableEq, Repr

/-- The label of an outcome. -/
def CheckOutcome.label : CheckOutcome → String
  | .ok => "ok"
  | .fallbackOk => "fallback_ok"
  | .error => "error"

/-- All outcomes in the order of their labels. -/
def CheckOutcome.sorted : List CheckOutcome := [.error, .fallbackOk, .ok]

/-- All events in the order of their labels. -/
def BridgeEvent.sorted : List BridgeEvent := [.aborted, .confirmed, .failed, .submitted, .timeout]

/-- The metrics of the controller. -/
structure ControllerMetrics where
  /-- What happened to deposits. -/
  events : Metrics.Tally BridgeEvent
  /-- Balance checks. -/
  checks : Metrics.Tally CheckOutcome
  /-- The controller was ready when it was last looked at. -/
  ready : Bool
  /-- The last balance seen. -/
  balance : Amount
  deriving Repr

namespace ControllerMetrics

/-- The metrics at the start; all events are listed. -/
def initial : ControllerMetrics := ⟨.declared BridgeEvent.all, .empty, false, 0⟩

/-- After something happened to a deposit. -/
def recordEvent (m : ControllerMetrics) (e : BridgeEvent) : ControllerMetrics :=
  { m with events := m.events.bump e }

/-- After a balance check. -/
def recordCheck (m : ControllerMetrics) (o : CheckOutcome) : ControllerMetrics :=
  { m with checks := m.checks.bump o }

/-- A balance on a gauge. -/
def gauge (a : Amount) : String := (Decimal.Binary64.ofNat a.toNat).plain

/-- The families of the controller in the order of their names. -/
def families (m : ControllerMetrics) : List Metrics.Family :=
  [ ⟨"fpc_topup_balance_checks_total", "Reserve balance reads by outcome", .counter,
      m.checks.samples CheckOutcome.sorted "" "outcome" CheckOutcome.label, false⟩,
    ⟨"fpc_topup_bridge_events_total", "Bridge lifecycle events", .counter,
      m.events.samples BridgeEvent.sorted "" "event" BridgeEvent.label, false⟩,
    ⟨"fpc_topup_ready", "1 if the top-up controller reports ready", .gauge,
      [("", if m.ready then "1" else "0")], false⟩,
    ⟨"fpc_topup_reserve_balance", "Last observed reserve balance in base units", .gauge,
      [("", gauge m.balance)], false⟩,
    Metrics.uptime ]

/-- The metrics as text. -/
def text (m : ControllerMetrics) : String := Metrics.exposition m.families

end ControllerMetrics
end Paymaster.Reserve

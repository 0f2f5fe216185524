import Paymaster.Progress
import Paymaster.Reserve.Ops
import Paymaster.Rollup.Link
/-!
# Watching the reserve

The reserve of a facility is what it holds of the fee juice. The node is asked for the balance
directly; if it does not know or does not answer, the balance is read from the storage of the
contract, unless that is switched off. Each reading is recorded, whether it went well or not.
-/

namespace Paymaster.Reserve

open Rollup (NodeInfo NodeLink)

/-- Why a reserve cannot be watched. -/
inductive MonitorError where
  | zeroFacilityAddress
  /-- The node does not say what it is. -/
  | nodeInfo (why : RollupError)
  /-- The node knows no fee juice. -/
  | zeroFeeJuiceAddress
  deriving DecidableEq, Repr

/-- The wording of a monitor error. -/
def MonitorError.message : MonitorError → String
  | .zeroFacilityAddress => "facility address must not be zero"
  | .nodeInfo why => s!"failed to read node info: {why.message}"
  | .zeroFeeJuiceAddress => "node reports a zero fee juice address"

/-- What is watched, and how. -/
structure Monitor where
  /-- The contract that holds the fee juice. -/
  feeJuice : Address
  /-- The facility whose reserve is watched. -/
  facility : Address
  /-- The storage slot of its balance. -/
  slot : Word
  /-- The storage is read if the node does not give the balance. -/
  fallback : Bool
  deriving DecidableEq, Repr

/-- The monitor of a facility at a node. -/
def Monitor.of (facility : Address) (balancesSlot : Word) (fallback : Bool)
    (info : Except RollupError NodeInfo) : Except MonitorError Monitor :=
  if facility.isZero then .error .zeroFacilityAddress
  else match info with
    | .error why => .error (.nodeInfo why)
    | .ok info =>
      if info.feeJuice.isZero then .error .zeroFeeJuiceAddress
      else .ok ⟨info.feeJuice, facility, Rollup.mapSlot balancesSlot facility, fallback⟩

/-- Why the node does not give the balance. -/
inductive PrimaryCause where
  /-- The node does not know such questions. -/
  | unsupported (what : String)
  /-- The question failed. -/
  | failed (why : RollupError)
  deriving DecidableEq, Repr

/-- The wording of a cause. -/
def PrimaryCause.message : PrimaryCause → String
  | .unsupported s => s!"unsupported: {s}"
  | .failed e => s!"failed: {e.message}"

/-- The cause that an error is. -/
def PrimaryCause.ofError : RollupError → PrimaryCause
  | .unsupported s => .unsupported s
  | e => .failed e

/-- Why the storage does not give the balance. -/
inductive FallbackCause where
  /-- The storage cannot be read. -/
  | unavailable (why : RollupError)
  /-- What it holds is no amount. -/
  | malformed (what : String)
  deriving DecidableEq, Repr

/-- The wording of a cause. -/
def FallbackCause.message : FallbackCause → String
  | .unavailable e => s!"storage read unavailable: {e.message}"
  | .malformed s => s!"malformed storage value: {s}"

/-- The cause that an error is. -/
def FallbackCause.ofError : RollupError → FallbackCause
  | .malformed s => .malformed s
  | e => .unavailable e

/-- Why there is no reading. -/
inductive ReadError where
  /-- The node does not give the balance, and the storage is not read. -/
  | primary (cause : PrimaryCause)
  /-- Neither gives the balance. -/
  | both (primary : PrimaryCause) (fallback : FallbackCause)
  deriving DecidableEq, Repr

/-- The wording of a read error. -/
def ReadError.message : ReadError → String
  | .primary (.unsupported s) =>
    s!"primary balance read unsupported (storage fallback disabled): {s}"
  | .primary (.failed e) =>
    s!"primary balance read failed (storage fallback disabled): {e.message}"
  | .both p f => s!"balance read failed: primary {p.message}; fallback {f.message}"

/-- Where a reading comes from. -/
inductive ReadPath where
  /-- From the node, asked directly. -/
  | primary
  /-- From the storage of the contract. -/
  | fallback
  deriving DecidableEq, Repr

/-- A balance, and where it comes from. -/
structure Reading where
  balance : Amount
  /-- Where it comes from. -/
  path : ReadPath
  deriving DecidableEq, Repr

/-- How far a reading has come. -/
inductive ReadPhase where
  /-- The node is asked for the balance. -/
  | primary
  /-- The storage is read, since the node did not give the balance. -/
  | storage (cause : PrimaryCause)
  deriving DecidableEq, Repr

/-- The amount in a word of the storage. -/
def amountInStorage (w : Word) : Except FallbackCause Amount :=
  match w.toAmount? with
  | some a => .ok a
  | none => .error (.malformed s!"storage word {w.toHex} exceeds u128")

namespace Monitor

variable {ω : Type}

/-- The reading that a storage answer gives, once the node has failed to give the balance. -/
def readingOfStorage (cause : PrimaryCause) : Except RollupError Word → Except ReadError Reading
  | .error e => .error (.both cause (.ofError e))
  | .ok w =>
    match amountInStorage w with
    | .ok a => .ok ⟨a, .fallback⟩
    | .error why => .error (.both cause why)

/-- Goes on with a reading from the storage. -/
def pollStorage (m : Monitor) (link : NodeLink ω) (cause : PrimaryCause) (w : ω) :
    Progress ReadPhase (Except ReadError Reading) × ω :=
  match link.storageAt m.feeJuice m.slot w with
  | (none, w) => (.pending (.storage cause), w)
  | (some answer, w) => (.done (readingOfStorage cause answer), w)

/-- Goes on with a reading. -/
def pollRead (m : Monitor) (link : NodeLink ω) (phase : ReadPhase) (w : ω) :
    Progress ReadPhase (Except ReadError Reading) × ω :=
  match phase with
  | .storage cause => m.pollStorage link cause w
  | .primary =>
    match link.publicBalance m.feeJuice m.facility w with
    | (none, w) => (.pending .primary, w)
    | (some (.ok a), w) => (.done (.ok ⟨a, .primary⟩), w)
    | (some (.error e), w) =>
      if m.fallback then m.pollStorage link (.ofError e) w
      else (.done (.error (.primary (.ofError e))), w)

end Monitor

/-- The outcome that a path counts as. -/
def ReadPath.outcome : ReadPath → CheckOutcome
  | .primary => .ok
  | .fallback => .fallbackOk

namespace OpsView

/-- The view after a reading at a time. -/
def recordReading (v : OpsView) (now : Nat) : Except ReadError Reading → OpsView
  | .ok r =>
    { readiness := v.readiness.recordOk now
      metrics := { v.metrics with balance := r.balance }.recordCheck r.path.outcome }
  | .error _ =>
    { readiness := v.readiness.recordError now, metrics := v.metrics.recordCheck .error }

/-- The view after something happened to a deposit. -/
def recordEvent (v : OpsView) (e : BridgeEvent) : OpsView :=
  { readiness := v.readiness.recordEvent e, metrics := v.metrics.recordEvent e }

end OpsView
end Paymaster.Reserve

import Paymaster.Bridge.Portal
import Paymaster.Quote.Settings
import Paymaster.Reserve.Readiness
import Paymaster.Rollup.Rpc
/-!
# Settings of the top-up controller

What an operator writes down to run a top-up controller, how it is decoded, and which settings are
refused. A controller talks to a simulated node and bridge or to real ones; the latter need settings
of their own.
-/

namespace Paymaster.Reserve

open Document (Decoder Fields)
open Settings (Profile Logging Mount)

/-- Whom the controller talks to. -/
inductive Backend where
  /-- A simulated node and bridge. -/
  | mock
  /-- A real node and the portal. -/
  | live
  deriving DecidableEq, Repr

/-- The name of a backend. -/
def Backend.name : Backend → String
  | .mock => "mock"
  | .live => "live"

/-- Where operators look. -/
structure OpsSettings where
  /-- The address to listen at. -/
  bindAddress : String := "0.0.0.0:3001"
  /-- Metrics are published. -/
  metricsEnabled : Bool := true
  /-- The age up to which a balance check counts, if it is set. -/
  staleAfter : Option UInt64 := none
  deriving DecidableEq, Repr

/-- When and how the reserve is topped up; times are in milliseconds. -/
structure TopupSettings where
  /-- A deposit is made below this balance. -/
  threshold : Amount
  /-- How much is deposited. -/
  amount : Amount
  /-- The time between looks at the balance. -/
  checkInterval : UInt64
  /-- The time after a deposit has arrived in which no other is made. -/
  cooldown : UInt64
  /-- The shortest time between looks while waiting. -/
  pollMin : UInt64
  /-- The longest time between looks while waiting. -/
  pollMax : UInt64
  /-- How long to wait for a deposit. -/
  timeout : UInt64
  deriving DecidableEq, Repr

/-- How the balance is read. -/
structure MonitorSettings where
  /-- The storage slot of the map of balances. -/
  balancesSlot : String := "0x1"
  /-- The storage is read if the node does not give the balance. -/
  storageFallback : Bool := true
  deriving DecidableEq, Repr

/-- The simulated node and bridge. -/
structure MockSettings where
  /-- The contract that holds the fee juice. -/
  feeJuice : Address
  /-- The balance at the start. -/
  initialBalance : Amount
  /-- Reads until a deposit lands. -/
  creditAfter : UInt32
  /-- Checks until a message is ready. -/
  readyAfter : UInt32
  deriving DecidableEq, Repr

/-- The contract of a simulated node unless it is set. -/
def defaultFeeJuice : Address := ⟨0x0fee⟩

/-- The simulated node and bridge unless they are set. -/
def defaultMock : MockSettings := ⟨defaultFeeJuice, 0, 2, 3⟩

/-- Where the state is kept unless it is set. -/
def defaultStatePath : String := "./data/bridge-state.json"

/-- The settings of a top-up controller. -/
structure Settings where
  /-- Whether the controller runs for real. -/
  profile : Profile
  /-- Where operators look. -/
  ops : OpsSettings
  /-- The facility whose reserve is topped up. -/
  facility : Address
  /-- When and how. -/
  topup : TopupSettings
  /-- How the balance is read. -/
  monitor : MonitorSettings
  /-- The state file. -/
  statePath : String
  /-- The real node. -/
  rollup : Option Rollup.RpcSettings
  portal : Option Bridge.PortalSettings
  /-- Where the key that pays for deposits comes from. -/
  portalKey : Option Secret.Source
  /-- The simulated node and bridge. -/
  mock : MockSettings
  /-- Directories that serve secrets. -/
  mounts : List Mount
  /-- How the controller logs. -/
  logging : Logging
  deriving DecidableEq, Repr

namespace Settings

/-- Decodes where operators look. -/
def opsDecoder : Decoder OpsSettings :=
  .record "struct OpsConfig" (OpsSettings.mk
    <$> .defaulted "bind_address" .text "0.0.0.0:3001"
    <*> .defaulted "metrics_enabled" .bool true
    <*> .defaulted "stale_after_ms" (.nullable .uint64) none)

/-- Decodes the facility. -/
def facilityDecoder : Decoder Address :=
  .record "struct FacilityConfig" (.required "address" Address.decoder)

/-- Decodes when and how the reserve is topped up. -/
def topupDecoder : Decoder TopupSettings :=
  .record "struct TopupConfig" (TopupSettings.mk
    <$> .required "threshold" Settings.amountDecoder
    <*> .required "amount" Settings.amountDecoder
    <*> .defaulted "check_interval_ms" .uint64 60000
    <*> .defaulted "cooldown_ms" .uint64 120000
    <*> .defaulted "poll_min_ms" .uint64 1000
    <*> .defaulted "poll_max_ms" .uint64 15000
    <*> .defaulted "confirmation_timeout_ms" .uint64 600000)

/-- Decodes how the balance is read. -/
def monitorDecoder : Decoder MonitorSettings :=
  .record "struct MonitorSection" (MonitorSettings.mk
    <$> .defaulted "balances_slot" .text "0x1"
    <*> .defaulted "storage_fallback" .bool true)

/-- Decodes where the state is kept. -/
def stateDecoder : Decoder String :=
  .record "struct StateConfig" (.defaulted "path" (.textAs "path string") defaultStatePath)

/-- Decodes where the key that pays for deposits comes from. -/
def portalKeyDecoder : Decoder Secret.Source :=
  .record "struct L1SignerConfig" (.required "key" Secret.Source.decoder)

/-- Decodes the simulated node and bridge. -/
def mockDecoder : Decoder MockSettings :=
  .record "struct MockConfig" (MockSettings.mk
    <$> .defaulted "fee_juice_address" Address.decoder defaultFeeJuice
    <*> .defaulted "initial_balance" Settings.amountDecoder 0
    <*> .defaulted "credit_after_reads" .uint32 2
    <*> .defaulted "message_ready_after_checks" .uint32 3)

/-- Decodes the settings of a top-up controller. -/
def decoder : Decoder Settings :=
  .record "struct TopupNodeConfig" (Settings.mk
    <$> .defaulted "runtime" Profile.sectionDecoder .development
    <*> .defaulted "ops" opsDecoder {}
    <*> .required "facility" facilityDecoder
    <*> .required "topup" topupDecoder
    <*> .defaulted "monitor" monitorDecoder {}
    <*> .defaulted "state" stateDecoder defaultStatePath
    <*> .defaulted "rollup" (.nullable Rollup.RpcSettings.decoder) none
    <*> .defaulted "l1" (.nullable Bridge.PortalSettings.decoder) none
    <*> .defaulted "l1_signer" (.nullable portalKeyDecoder) none
    <*> .defaulted "mock" mockDecoder defaultMock
    <*> .defaulted "secrets" Mount.sectionDecoder []
    <*> .defaulted "logging" Logging.decoder {})

/-- The storage slot of the map of balances. -/
def balancesSlot (s : Settings) : Except String Word :=
  (Word.ofText s.monitor.balancesSlot).mapError fun e =>
    s!"invalid monitor.balances_slot: {e.message}"

/-- Refuses with a message unless a condition holds. -/
def require (condition : Bool) (message : String) : Except String Unit :=
  if condition then .ok () else .error message

/-- Judges when and how the reserve is topped up. -/
def validateTopup (t : TopupSettings) : Except String Unit := do
  require (t.threshold != 0) "topup.threshold must be > 0"
  require (t.amount != 0) "topup.amount must be > 0"
  require (t.checkInterval != 0) "topup.check_interval_ms must be > 0"
  require (t.pollMin != 0) "topup.poll_min_ms must be > 0"
  require (t.pollMin ≤ t.pollMax) "topup.poll_max_ms must be >= topup.poll_min_ms"
  require (t.timeout != 0) "topup.confirmation_timeout_ms must be > 0"

/-- What a real node and the portal need. -/
def validateLive (s : Settings) : Except String Unit := do
  let some rollup := s.rollup | throw "[rollup] is required for the live backend"
  rollup.validate.mapError RollupError.message
  let some portal := s.portal | throw "[l1] is required for the live backend"
  portal.validate.mapError BridgeError.message
  let some key := s.portalKey | throw "[l1_signer] is required for the live backend"
  require (!(s.profile == .production && key.isInline))
    "inline secrets are not allowed in the production profile: l1_signer.key"

/-- Judges the settings of a top-up controller; the first flaw counts. -/
def validate (s : Settings) (b : Backend) : Except String Unit := do
  s.logging.validate
  require (!Text.isBlankText s.ops.bindAddress) "ops.bind_address is empty"
  require (!s.facility.isZero) "facility.address must not be zero"
  validateTopup s.topup
  let _ ← s.balancesSlot
  require (!s.statePath.isEmpty) "state.path is empty"
  match b with
  | .mock =>
    require (s.profile != .production) "the mock backend is not allowed in the production profile"
  | .live => s.validateLive

/-- The age in milliseconds up to which a balance check counts. -/
def staleAfter (s : Settings) : Nat :=
  match s.ops.staleAfter with
  | some n => n.toNat
  | none => Readiness.defaultStaleAfter s.topup.checkInterval.toNat

end Settings
end Paymaster.Reserve

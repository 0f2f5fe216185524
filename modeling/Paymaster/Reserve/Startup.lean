import Paymaster.Reserve.Offline
import Paymaster.Reserve.Patrol
import Paymaster.Reserve.Settings
/-!
# Starting a controller

What a top-up controller needs before its first tick, made from its settings: the policy, the key
that pays for deposits, and the node and the bridge, if they are simulated.
-/

namespace Paymaster.Reserve.Settings

/-- When and how the reserve is topped up. -/
def policy (s : Settings) : TopupPolicy where
  threshold := s.topup.threshold
  amount := s.topup.amount
  checkInterval := s.topup.checkInterval.toNat
  cooldown := s.topup.cooldown.toNat
  wait := ⟨s.topup.pollMin.toNat, s.topup.pollMax.toNat, s.topup.timeout.toNat⟩

/-- The simulated node and the bridge linked to it. -/
def offline (s : Settings) : Offline where
  node := .simulated { feeJuice := s.mock.feeJuice, balance := s.mock.initialBalance }
  bridge := .simulated
    { linked := true, creditAfter := s.mock.creditAfter.toNat, readyAfter := s.mock.readyAfter.toNat }

/-- What is watched at a node that says what it is. -/
def watch (s : Settings) (info : Except RollupError Rollup.NodeInfo) : Except String Monitor := do
  let slot ← s.balancesSlot
  (Monitor.of s.facility slot s.monitor.storageFallback info).mapError fun e =>
    s!"failed to initialise the balance monitor: {e.message}"

/-- What a controller with a simulated node and bridge is given. -/
def offlineCharter (s : Settings) : Except String (Charter Offline Disk) := do
  let monitor ← s.watch s.offline.node.info
  return ⟨Offline.nodeLink, Offline.bridgeLink, StateFile.store s.statePath, monitor, s.policy⟩

/-- The portal of a controller with a real bridge. -/
def openPortal (s : Settings) (r : Secret.Resolver) (env : Environment) (disk : Disk) :
    Except String Bridge.Portal := do
  let some rollup := s.rollup | throw "[rollup] missing"
  let some portal := s.portal | throw "[l1] missing"
  let some source := s.portalKey | throw "[l1_signer] missing"
  let key ← (r.resolve env disk source).mapError fun e =>
    s!"failed to resolve l1_signer.key: {e.message}"
  let _ ← (Rollup.RpcClient.of rollup).mapError fun e => s!"invalid [rollup] config: {e.message}"
  (Bridge.Portal.of portal key.value).mapError fun e => s!"invalid [l1] config: {e.message}"

/-- Does all that can fail before the node is asked for the first time. -/
def prepare (s : Settings) (b : Backend) (env : Environment) (disk : Disk) : Except String Unit := do
  let resolver ← Settings.resolverFor s.profile s.mounts
  match b with
  | .mock =>
    let _ ← s.offlineCharter
  | .live =>
    let _ ← s.openPortal resolver env disk

end Paymaster.Reserve.Settings

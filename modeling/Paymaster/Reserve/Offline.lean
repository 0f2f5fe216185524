import Paymaster.Bridge.Simulated
import Paymaster.Bridge.Link
import Paymaster.Rollup.Link
/-!
# A controller without a network

The links to a node and a bridge that need no network. The node answers at once; the bridge takes as
long as it is set to take.
-/

namespace Paymaster.Reserve

open Bridge (BridgeLink OfflineBridge)
open Rollup (NodeLink OfflineNode)

/-- A node and a bridge without a network. -/
structure Offline where
  node : OfflineNode
  bridge : OfflineBridge

namespace Offline

/-- The link to the node; each answer is there at once. -/
def nodeLink : NodeLink Offline where
  publicBalance _ _ w :=
    let (answer, node) := w.node.publicBalance
    (some answer, { w with node })
  storageAt _ slot w :=
    let (answer, node) := w.node.storageAt slot
    (some answer, { w with node })
  messageReady message w :=
    let (answer, node) := w.node.messageReady message
    (some answer, { w with node })

/-- When the answer to a request that was made at a time is there. -/
def answerTime (w : Offline) (since : Nat) : Nat := since + w.bridge.latency.getD 0

/-- The link to the bridge; an answer takes as long as the bridge takes. -/
def bridgeLink : BridgeLink Offline where
  deposit request since now w :=
    if now < w.answerTime since then (none, w)
    else
      let (answer, bridge, node) := w.bridge.deposit request w.node
      (some answer, ⟨node, bridge⟩)

end Offline

end Paymaster.Reserve

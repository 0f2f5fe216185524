import Paymaster.Rollup.Node
/-!
# Links to nodes

A link says how a node answers, whatever the node is. The state of all that lies outside is a value
of some type `ω`; each question may change it, and its answer may not be there yet.
-/

namespace Paymaster.Rollup

/-- How a node answers. -/
structure NodeLink (ω : Type) where
  /-- The balance of an account in a token. -/
  publicBalance (token owner : Address) : ω → Option (Except RollupError Amount) × ω
  /-- What a storage slot of a contract holds. -/
  storageAt (contract : Address) (slot : Word) : ω → Option (Except RollupError Word) × ω
  /-- Whether a message has arrived. -/
  messageReady (message : Word) : ω → Option (Except RollupError Bool) × ω

end Paymaster.Rollup

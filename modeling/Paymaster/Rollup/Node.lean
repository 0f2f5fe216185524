import Paymaster.Address
import Paymaster.Digest.Blake3
/-!
# Rollup nodes

What the top-up controller asks of a node of the rollup: which contract holds the fee juice, how
much of it an account has, what a storage slot of a contract holds, and whether a message from the
settlement layer has arrived. Each answer may be an error.
-/

namespace Paymaster

/-- Why a node gives no answer. -/
inductive RollupError where
  /-- The node does not know the request. -/
  | unsupported (what : String)
  /-- The client is set up wrongly. -/
  | config (what : String)
  /-- No answer arrives. -/
  | network (what : String)
  /-- The node answers with an error. -/
  | rpc (what : String)
  /-- The answer makes no sense. -/
  | malformed (what : String)
  deriving DecidableEq, Repr

/-- The wording of a node error. -/
def RollupError.message : RollupError → String
  | .unsupported s => s!"not supported by this node: {s}"
  | .config s => s!"configuration error: {s}"
  | .network s => s!"network error: {s}"
  | .rpc s => s!"rpc error: {s}"
  | .malformed s => s!"malformed response: {s}"

namespace Rollup

/-- What a node says about itself. -/
structure NodeInfo where
  /-- The contract that holds the fee juice. -/
  feeJuice : Address
  /-- The chain it settles on. -/
  chainId : UInt64
  version : String
  deriving DecidableEq, Repr

/-- The text that keeps storage slots of maps apart from all else that is hashed. -/
def mapSlotTag : String := "fpc:map-slot:v1"

/-- The storage slot of a key in a map that starts at a base slot. -/
def mapSlot (base : Word) (key : Address) : Word :=
  Word.ofBytes (Digest.Blake3.hash
    (mapSlotTag.toUTF8.data.toList ++ base.toBytes ++ key.word.toBytes))

end Rollup
end Paymaster

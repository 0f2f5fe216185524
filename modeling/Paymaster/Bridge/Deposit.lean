import Paymaster.Address
import Paymaster.Digest.Blake3
/-!
# Deposits from the settlement layer

A deposit moves fee juice from the settlement layer to an account of the rollup. The depositor locks
it with the hash of a claim secret; the receipt names the message that carries it over.
-/

namespace Paymaster

/-- Why a deposit does not happen. -/
inductive BridgeError where
  /-- The bridge is set up wrongly. -/
  | config (what : String)
  /-- The settlement layer does not answer. -/
  | network (what : String)
  /-- The settlement layer refuses the transaction. -/
  | rejected (what : String)
  /-- The transaction is lost. -/
  | dropped (what : String)
  /-- The receipt makes no sense. -/
  | malformed (what : String)
  deriving DecidableEq, Repr

/-- The wording of a bridge error. -/
def BridgeError.message : BridgeError → String
  | .config s => s!"configuration error: {s}"
  | .network s => s!"network error: {s}"
  | .rejected s => s!"transaction rejected: {s}"
  | .dropped s => s!"transaction dropped: {s}"
  | .malformed s => s!"malformed receipt: {s}"

namespace Bridge

/-- The word without its most significant byte, so that it is a field element. -/
def clearTop (w : Word) : Word := (w.setWidth 248).setWidth 256

/-- The secret that claims a deposit on the rollup. -/
structure ClaimSecret where
  /-- The secret itself. -/
  word : Word
  deriving DecidableEq

namespace ClaimSecret

/-- The secret made from random bytes. -/
def ofRandom (w : Word) : ClaimSecret := ⟨clearTop w⟩

/-- The text that keeps hashes of claim secrets apart from all else that is hashed. -/
def tag : String := "fpc:claim-secret:v1"

/-- The hash that locks a deposit. -/
def hash (s : ClaimSecret) : Word :=
  clearTop (Word.ofBytes (Digest.Blake3.hash (tag.toUTF8.data.toList ++ s.word.toBytes)))

/-- A claim secret as it is shown in a log: not at all. -/
def display (_ : ClaimSecret) : String := "ClaimSecret(<redacted>)"

end ClaimSecret

/-- What the bridge is asked for. -/
structure DepositRequest where
  /-- The account that gets the fee juice. -/
  recipient : Address
  /-- How much it gets. -/
  amount : Amount
  /-- The hash of the claim secret. -/
  secretHash : Word
  deriving DecidableEq, Repr

/-- What the bridge answers. -/
structure DepositReceipt where
  /-- The message that carries the deposit over. -/
  messageHash : Word
  /-- The place of the message in the tree of messages. -/
  leafIndex : UInt64
  /-- The transaction on the settlement layer, if it is known. -/
  transaction : Option String
  deriving DecidableEq, Repr

end Bridge
end Paymaster

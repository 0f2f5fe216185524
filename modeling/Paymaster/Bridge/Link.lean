import Paymaster.Bridge.Deposit
/-!
# Links to bridges

A link says how a bridge answers, whatever the bridge is. As for nodes, the state of all that lies
outside is a value of some type `ω`, and an answer may not be there yet.
-/

namespace Paymaster.Bridge

/-- How a bridge answers. -/
structure BridgeLink (ω : Type) where
  /-- The answer to a request that was made at one time, at another; times are in milliseconds. -/
  deposit (request : DepositRequest) (since now : Nat) :
    ω → Option (Except BridgeError DepositReceipt) × ω

/-- A deposit that the bridge has taken. -/
structure Submission where
  /-- How much was deposited. -/
  amount : Amount
  secret : ClaimSecret
  /-- The hash that the bridge was given. -/
  secretHash : Word
  /-- What the bridge answered. -/
  receipt : DepositReceipt
  deriving DecidableEq

/-- The request for a deposit that a secret will claim. -/
def requestFor (recipient : Address) (amount : Amount) (secret : ClaimSecret) : DepositRequest :=
  ⟨recipient, amount, secret.hash⟩

end Paymaster.Bridge

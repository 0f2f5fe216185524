import Paymaster.Bridge.Deposit
import Paymaster.Rollup.Simulated
/-!
# Simulated bridges

A simulated bridge counts deposits and makes up the messages that carry them. Linked to a simulated
node, it schedules the credit and the message there. A scripted bridge answers from a list instead.
-/

namespace Paymaster.Bridge

open Rollup (OfflineNode)

/-- The state of a simulated bridge. -/
structure SimulatedBridge where
  /-- Deposits show up at the node. -/
  linked : Bool := false
  /-- Reads of the node until the credit lands. -/
  creditAfter : Nat := 0
  /-- Message checks until the message is ready. -/
  readyAfter : Nat := 0
  /-- How long the bridge takes to answer, in milliseconds, if it takes any time. -/
  latency : Option Nat := none
  /-- Deposits that still fail. -/
  failNext : Nat := 0
  /-- The place of the next message. -/
  nextLeaf : UInt64 := 0
  /-- The deposits so far. -/
  deposits : List DepositRequest := []
  deriving Repr

/-- The text that keeps made-up messages apart from all else that is hashed. -/
def messageTag : String := "mock-l1-to-l2"

/-- The message that carries a deposit over. -/
def messageHash (r : DepositRequest) (leaf : UInt64) : Word :=
  Word.ofBytes (Digest.Blake3.hash (messageTag.toUTF8.data.toList ++ r.recipient.word.toBytes ++
    (Word.ofAmount r.amount).toBytes ++ r.secretHash.toBytes ++ bigEndian 8 leaf.toNat))

/-- A made-up transaction: the first bytes of the message. -/
def transactionOf (message : Word) : String :=
  "0x" ++ Text.Hex.encode (message.toBytes.take 8)

/-- What the node learns of a deposit. -/
def announce (b : SimulatedBridge) (amount : Amount) (message : Word) : OfflineNode → OfflineNode
  | .simulated n =>
    if b.linked then .simulated ((n.schedule amount b.creditAfter).register message b.readyAfter)
    else .simulated n
  | n => n

/-- Answers a request for a deposit; the node may learn of it. -/
def SimulatedBridge.deposit (b : SimulatedBridge) (r : DepositRequest) (n : OfflineNode) :
    Except BridgeError DepositReceipt × SimulatedBridge × OfflineNode :=
  if 0 < b.failNext then
    (.error (.network "mock deposit failure"), { b with failNext := b.failNext - 1 }, n)
  else
    let message := messageHash r b.nextLeaf
    (.ok ⟨message, b.nextLeaf, some (transactionOf message)⟩,
      { b with nextLeaf := b.nextLeaf + 1, deposits := b.deposits ++ [r] },
      announce b r.amount message n)

/-- A bridge that answers from a list. -/
structure ScriptedBridge where
  /-- The answers to come. -/
  replies : List (Except BridgeError DepositReceipt)
  /-- The requests so far. -/
  requests : List DepositRequest := []

/-- A bridge without a settlement layer. -/
inductive OfflineBridge where
  /-- A bridge with a state of its own. -/
  | simulated (b : SimulatedBridge)
  /-- A bridge that answers from a list. -/
  | scripted (b : ScriptedBridge)

namespace OfflineBridge

/-- How long the bridge takes to answer, if it takes any time. -/
def latency : OfflineBridge → Option Nat
  | .simulated b => b.latency
  | .scripted _ => none

/-- Answers a request for a deposit. -/
def deposit (r : DepositRequest) (n : OfflineNode) :
    OfflineBridge → Except BridgeError DepositReceipt × OfflineBridge × OfflineNode
  | .simulated b =>
    let (answer, b, n) := b.deposit r n
    (answer, .simulated b, n)
  | .scripted b =>
    let b := { b with requests := b.requests ++ [r] }
    match b.replies with
    | [] => (.error (.network "script empty"), .scripted b, n)
    | answer :: rest => (answer, .scripted { b with replies := rest }, n)

/-- The requests the bridge counts as deposits. -/
def deposits : OfflineBridge → List DepositRequest
  | .simulated b => b.deposits
  | .scripted b => b.requests

end OfflineBridge
end Paymaster.Bridge

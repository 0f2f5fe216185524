import Paymaster.Rollup.Node
/-!
# Simulated nodes

A simulated node keeps one balance. Each successful read may replace it by the next scripted one,
and scheduled credits land after a number of reads. Reads and message checks can be made to fail. A
scripted node answers from lists instead; the last entry of a list repeats.
-/

namespace Paymaster.Rollup

/-- A credit that lands after some more reads. -/
structure PendingCredit where
  /-- What is added. -/
  amount : Amount
  /-- The reads until then. -/
  readsLeft : Nat
  deriving DecidableEq, Repr

/-- The state of a simulated node. -/
structure SimulatedNode where
  /-- The contract that holds the fee juice. -/
  feeJuice : Address
  /-- Balances can be asked for directly. -/
  primary : Bool := true
  balance : Amount := 0
  /-- Balances that replace it, one at each read. -/
  scripted : List Amount := []
  /-- Reads of the storage that still fail. -/
  failingReads : Nat := 0
  /-- Credits that have not landed. -/
  pending : List PendingCredit := []
  /-- For each message the checks until it is ready. -/
  messages : List (Word × Nat) := []
  /-- Message checks fail. -/
  checksFail : Bool := false
  /-- Successful reads of the balance. -/
  reads : Nat := 0
  /-- Message checks. -/
  checks : Nat := 0
  /-- The storage slot that was read last. -/
  lastSlot : Option Word := none
  deriving Repr

namespace SimulatedNode

/-- Puts more balances behind those already scripted. -/
def script (n : SimulatedNode) (balances : List Amount) : SimulatedNode :=
  { n with scripted := n.scripted ++ balances }

/-- Schedules a credit. -/
def schedule (n : SimulatedNode) (amount : Amount) (after : Nat) : SimulatedNode :=
  { n with pending := n.pending ++ [⟨amount, after⟩] }

/-- Makes a message ready after some checks. -/
def register (n : SimulatedNode) (message : Word) (checks : Nat) : SimulatedNode :=
  { n with messages := (message, checks) :: n.messages.filter fun m => m.1 != message }

/-- The pending credits after one more read: those that land and those that stay. -/
def dueCredits (pending : List PendingCredit) : List PendingCredit × List PendingCredit :=
  (pending.map fun c => { c with readsLeft := c.readsLeft - 1 }).partition fun c =>
    c.readsLeft == 0

/-- Reads the balance. -/
def nextBalance (n : SimulatedNode) : Amount × SimulatedNode :=
  let start := n.scripted.headD n.balance
  let (due, later) := dueCredits n.pending
  let balance := due.foldl (fun b c => Amount.satAdd b c.amount) start
  (balance, { n with
    balance, scripted := n.scripted.tail, pending := later, reads := n.reads + 1 })

/-- What the node says about itself. -/
def info (n : SimulatedNode) : NodeInfo := ⟨n.feeJuice, 31337, "mock"⟩

/-- The balance of an account, asked for directly. A failing node leaves it to the storage read to
use up a failure. -/
def publicBalance (n : SimulatedNode) : Except RollupError Amount × SimulatedNode :=
  if !n.primary then (.error (.unsupported "mock primary read disabled"), n)
  else if 0 < n.failingReads then (.error (.network "mock primary read failure"), n)
  else
    let (b, n) := n.nextBalance
    (.ok b, n)

/-- What a storage slot holds: the balance, whatever the slot. -/
def storageAt (n : SimulatedNode) (slot : Word) : Except RollupError Word × SimulatedNode :=
  let n := { n with lastSlot := some slot }
  if 0 < n.failingReads then
    (.error (.network "mock storage read failure"), { n with failingReads := n.failingReads - 1 })
  else
    let (b, n) := n.nextBalance
    (.ok (Word.ofAmount b), n)

/-- Whether a message has arrived. -/
def messageReady (n : SimulatedNode) (message : Word) : Except RollupError Bool × SimulatedNode :=
  let n := { n with checks := n.checks + 1 }
  if n.checksFail then (.error (.rpc "mock message check failure"), n)
  else match n.messages.lookup message with
    | none => (.ok false, n)
    | some 0 => (.ok true, n)
    | some (left + 1) => (.ok false, n.register message left)

end SimulatedNode

/-- A node that answers from lists. -/
structure ScriptedNode where
  /-- The contract that holds the fee juice, or why the node does not say. -/
  feeJuice : Except RollupError Address
  /-- Answers to direct reads of the balance. -/
  primary : List (Except RollupError Amount)
  /-- Answers to reads of the storage. -/
  storage : List (Except RollupError Word)
  /-- Answers to message checks. -/
  ready : List (Except RollupError Bool)

/-- The next answer of a list, and the list after it; the last answer repeats. -/
def nextAnswer {α : Type} : List (Except RollupError α) → Except RollupError α × List (Except RollupError α)
  | [] => (.error (.network "script empty"), [])
  | [a] => (a, [a])
  | a :: rest => (a, rest)

/-- A node without a network. -/
inductive OfflineNode where
  /-- A node with a state of its own. -/
  | simulated (n : SimulatedNode)
  /-- A node that answers from lists. -/
  | scripted (n : ScriptedNode)

namespace OfflineNode

/-- What the node says about itself. -/
def info : OfflineNode → Except RollupError NodeInfo
  | .simulated n => .ok n.info
  | .scripted n => n.feeJuice.map fun a => ⟨a, 31337, "mock"⟩

/-- The balance of an account, asked for directly. -/
def publicBalance : OfflineNode → Except RollupError Amount × OfflineNode
  | .simulated n =>
    let (r, n) := n.publicBalance
    (r, .simulated n)
  | .scripted n =>
    let (r, rest) := nextAnswer n.primary
    (r, .scripted { n with primary := rest })

/-- What a storage slot holds. -/
def storageAt (slot : Word) : OfflineNode → Except RollupError Word × OfflineNode
  | .simulated n =>
    let (r, n) := n.storageAt slot
    (r, .simulated n)
  | .scripted n =>
    let (r, rest) := nextAnswer n.storage
    (r, .scripted { n with storage := rest })

/-- Whether a message has arrived. -/
def messageReady (message : Word) : OfflineNode → Except RollupError Bool × OfflineNode
  | .simulated n =>
    let (r, n) := n.messageReady message
    (r, .simulated n)
  | .scripted n =>
    let (r, rest) := nextAnswer n.ready
    (r, .scripted { n with ready := rest })

end OfflineNode
end Paymaster.Rollup

import Paymaster.Reserve.Monitor
/-!
# Waiting for a deposit to arrive

A deposit has arrived when the balance of the reserve rises above what it was before, or when the
node reports its message as ready; whichever is seen first ends the wait. The two are polled side by
side, the time between looks doubling up to a limit. A failing message check stops the looks at the
message only. A wait ends at its deadline at the latest, and at once when it is cancelled.
-/

namespace Paymaster.Reserve

open Rollup (NodeLink)

/-- When something happens, and what it finds. -/
structure Moment where
  /-- The time in milliseconds on a clock that never steps back. -/
  now : Nat
  /-- The wall clock in milliseconds of Unix time. -/
  wall : UInt64
  /-- The controller has been told to stop. -/
  cancelled : Bool
  /-- Random bytes, if any are needed. -/
  random : Word
  deriving DecidableEq, Repr

/-- How often to look, and for how long; times are in milliseconds. -/
structure WaitPolicy where
  /-- The time between the first looks. -/
  pollMin : Nat
  /-- The longest time between looks. -/
  pollMax : Nat
  /-- How long to wait. -/
  timeout : Nat
  deriving DecidableEq, Repr

/-- The shortest time between looks that is used. -/
def WaitPolicy.first (p : WaitPolicy) : Nat := max p.pollMin 1

/-- The longest time between looks that is used. -/
def WaitPolicy.last (p : WaitPolicy) : Nat := max p.pollMax p.first

/-- What is waited for. -/
structure WaitTarget where
  /-- The balance before the deposit. -/
  baseline : Amount
  /-- The message that carries the deposit over, if it is known. -/
  message : Option Word
  deriving DecidableEq, Repr

/-- What shows that a deposit has arrived. -/
inductive Signal where
  /-- The balance has risen. -/
  | balanceDelta
  /-- The message is ready. -/
  | messageReady
  deriving DecidableEq, Repr

/-- The name of a signal. -/
def Signal.name : Signal → String
  | .balanceDelta => "balance_delta"
  | .messageReady => "message_ready"

/-- How a wait ends. -/
inductive WaitStatus where
  /-- The deposit has arrived. -/
  | confirmed
  /-- The deadline has passed. -/
  | timeout
  /-- The wait was cancelled. -/
  | aborted
  deriving DecidableEq, Repr

/-- The name of a status. -/
def WaitStatus.name : WaitStatus → String
  | .confirmed => "confirmed"
  | .timeout => "timeout"
  | .aborted => "aborted"

/-- The event that a status is recorded as. -/
def WaitStatus.event : WaitStatus → BridgeEvent
  | .confirmed => .confirmed
  | .timeout => .timeout
  | .aborted => .aborted

/-- What a wait has seen so far. -/
structure Sightings where
  /-- The largest balance. -/
  max : Option Amount := none
  /-- The last balance. -/
  last : Option Amount := none
  /-- Readings of the balance. -/
  attempts : Nat := 0
  /-- Readings that failed. -/
  pollErrors : Nat := 0
  /-- The message has been checked. -/
  messageChecked : Bool := false
  /-- The message is ready. -/
  messageReady : Bool := false
  /-- A message check has failed. -/
  messageFailed : Bool := false
  deriving DecidableEq, Repr

/-- Counts of readings take 32 bits and stop at the largest number of these. -/
def maxCount : Nat := UInt32.size - 1

/-- A count of readings after one more. -/
def countOne (n : Nat) : Nat := min (n + 1) maxCount

namespace Sightings

/-- After a reading of the balance. -/
def ofReading (s : Sightings) : Except ReadError Reading → Sightings
  | .ok r =>
    { s with
      attempts := countOne s.attempts
      last := some r.balance
      max := some (match s.max with
        | some m => if m < r.balance then r.balance else m
        | none => r.balance) }
  | .error _ =>
    { s with attempts := countOne s.attempts, pollErrors := countOne s.pollErrors }

/-- After a message check. -/
def ofCheck (s : Sightings) : Except RollupError Bool → Sightings
  | .ok ready => { s with messageChecked := true, messageReady := ready }
  | .error _ => { s with messageChecked := true, messageFailed := true }

end Sightings

/-- What a wait has found when it ends. -/
structure WaitResult where
  /-- How it ended. -/
  status : WaitStatus
  /-- What showed that the deposit has arrived, if it has. -/
  confirmedBy : Option Signal
  /-- The balance before the deposit. -/
  baseline : Amount
  /-- The largest balance seen, the one before the deposit included. -/
  max : Amount
  /-- The last balance seen. -/
  last : Option Amount
  /-- How long it took, in milliseconds. -/
  elapsed : Nat
  /-- Readings of the balance. -/
  attempts : Nat
  /-- Readings that failed. -/
  pollErrors : Nat
  /-- The message was checked. -/
  messageChecked : Bool
  /-- The message was ready. -/
  messageReady : Bool
  /-- A message check failed. -/
  messageFailed : Bool
  deriving DecidableEq, Repr

/-- How far the balance rose. -/
def WaitResult.delta (r : WaitResult) : Amount := BitVec.ofNat 128 (r.max.toNat - r.baseline.toNat)

/-- What one of the two that look is doing; `φ` says how far a look has come. -/
inductive Poller (φ : Type) where
  /-- It has asked; `interval` is the time to sleep afterwards. -/
  | asking (phase : φ) (interval : Nat)
  /-- It sleeps until a time; `interval` is the time to sleep after the next look. -/
  | sleeping (wake interval : Nat)
  /-- It looks no more. -/
  | off
  deriving DecidableEq, Repr

/-- The poller with the next look begun, if it is due. -/
def Poller.rouse {φ : Type} (first : φ) (now : Nat) : Poller φ → Poller φ
  | .sleeping wake interval => if wake ≤ now then .asking first interval else .sleeping wake interval
  | p => p

/-- When a poller has to be looked at again. -/
def Poller.wake? {φ : Type} : Poller φ → Option Nat
  | .sleeping wake _ => some wake
  | _ => none

/-- A wait for a deposit. -/
structure Wait where
  /-- What is waited for. -/
  target : WaitTarget
  /-- When the wait began. -/
  started : Nat
  /-- When it ends at the latest. -/
  deadline : Nat
  /-- The longest time between looks. -/
  longest : Nat
  /-- The looks at the balance. -/
  balance : Poller ReadPhase
  /-- The looks at the message. -/
  message : Poller Unit
  /-- What has been seen so far. -/
  seen : Sightings := {}
  deriving DecidableEq, Repr

namespace Wait

variable {ω : Type}

/-- A wait that begins now. -/
def start (p : WaitPolicy) (target : WaitTarget) (now : Nat) : Wait where
  target := target
  started := now
  deadline := now + p.timeout
  longest := p.last
  balance := .asking .primary p.first
  message := match target.message with
    | some _ => .asking () p.first
    | none => .off

/-- A poller after a look that decided nothing. -/
def rest {φ : Type} (x : Wait) (now interval : Nat) : Poller φ :=
  .sleeping (now + interval) (min (2 * interval) x.longest)

/-- The result of a wait that ends now. -/
def finish (x : Wait) (now : Nat) (status : WaitStatus) (signal : Option Signal) : WaitResult where
  status := status
  confirmedBy := signal
  baseline := x.target.baseline
  max := match x.seen.max with
    | some m => if x.target.baseline < m then m else x.target.baseline
    | none => x.target.baseline
  last := x.seen.last
  elapsed := now - x.started
  attempts := x.seen.attempts
  pollErrors := x.seen.pollErrors
  messageChecked := x.seen.messageChecked
  messageReady := x.seen.messageReady
  messageFailed := x.seen.messageFailed

/-- A reading shows a balance above the one before the deposit. -/
def rose (x : Wait) : Except ReadError Reading → Bool
  | .ok r => x.target.baseline < r.balance
  | .error _ => false

/-- The wait after a reading of the balance. -/
def afterReading (x : Wait) (now interval : Nat) (r : Except ReadError Reading) : Wait :=
  { x with seen := x.seen.ofReading r, balance := x.rest now interval }

/-- Looks at the balance if a look is due. The first part says whether it has risen. -/
def pollBalance (m : Monitor) (link : NodeLink ω) (t : Moment) (x : Wait) (w : ω) (v : OpsView) :
    Bool × Wait × ω × OpsView :=
  match x.balance.rouse .primary t.now with
  | .asking phase interval =>
    match m.pollRead link phase w with
    | (.pending phase, w) => (false, { x with balance := .asking phase interval }, w, v)
    | (.done r, w) =>
      (x.rose r, x.afterReading t.now interval r, w, v.recordReading t.wall.toNat r)
  | idle => (false, { x with balance := idle }, w, v)

/-- The wait after a message check; one that fails is the last. -/
def afterCheck (x : Wait) (now interval : Nat) (r : Except RollupError Bool) : Wait :=
  { x with
    seen := x.seen.ofCheck r
    message := match r with
      | .ok _ => x.rest now interval
      | .error _ => .off }

/-- Looks at the message if a look is due. The first part says whether it is ready. -/
def pollMessage (link : NodeLink ω) (t : Moment) (x : Wait) (w : ω) : Bool × Wait × ω :=
  match x.target.message, x.message.rouse () t.now with
  | some message, .asking () interval =>
    match link.messageReady message w with
    | (none, w) => (false, { x with message := .asking () interval }, w)
    | (some r, w) => (r matches .ok true, x.afterCheck t.now interval r, w)
  | _, idle => (false, { x with message := idle }, w)

/-- Goes on with a wait. Cancelling comes before the deadline, the deadline before all looks, and
the balance before the message. -/
def poll (m : Monitor) (link : NodeLink ω) (t : Moment) (x : Wait) (w : ω) (v : OpsView) :
    Progress Wait WaitResult × ω × OpsView :=
  if t.cancelled then (.done (x.finish t.now .aborted none), w, v)
  else if x.deadline ≤ t.now then (.done (x.finish t.now .timeout none), w, v)
  else
    match x.pollBalance m link t w v with
    | (true, x, w, v) => (.done (x.finish t.now .confirmed (some .balanceDelta)), w, v)
    | (false, x, w, v) =>
      match x.pollMessage link t w with
      | (true, x, w) => (.done (x.finish t.now .confirmed (some .messageReady)), w, v)
      | (false, x, w) => (.pending x, w, v)

/-- The times at which a wait has to be looked at again. -/
def wakes (x : Wait) : List Nat :=
  x.deadline :: (x.balance.wake?.toList ++ x.message.wake?.toList)

end Wait
end Paymaster.Reserve

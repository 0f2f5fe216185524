import Paymaster.Bridge.Link
import Paymaster.Reserve.StateFile
import Paymaster.Reserve.Wait
/-!
# The top-up controller

A tick looks at the reserve. If it is below the threshold, and no deposit is in flight, and the last
one to arrive lies far enough back, a deposit is made, its record is kept, and the tick waits for it
to arrive. A record that is already kept, in memory or in the file, is waited for again instead; so
at most one deposit is in flight. The record is forgotten once the deposit has arrived, and only
then.

A tick is interrupted wherever an answer is not there yet or a wait has to sleep. Between two such
points it is one step on the state of the controller, so ticks may overlap in any order.
-/

namespace Paymaster.Reserve

open Bridge (BridgeLink ClaimSecret DepositReceipt DepositRequest Submission)
open Rollup (NodeLink)

/-- How a record is kept. The state of the place where it is kept is a value of some type `σ`. -/
structure RecordStore (σ : Type) where
  /-- The record that is kept, if there is one. -/
  load : σ → Except StoreError (Option BridgeRecord) × σ
  /-- Keeps a record. -/
  save (r : BridgeRecord) : σ → Except StoreError Unit × σ
  /-- Forgets the record. -/
  clear : σ → Except StoreError Unit × σ

/-- The store that is a file on a disk. -/
def StateFile.store (path : String) : RecordStore Disk where
  load d := (StateFile.load path d, d)
  save r d := StateFile.save path r d
  clear d := StateFile.clear path d

/-- When and how the reserve is topped up; times are in milliseconds. -/
structure TopupPolicy where
  /-- A deposit is made below this balance. -/
  threshold : Amount
  /-- How much is deposited. -/
  amount : Amount
  /-- The time between ticks. -/
  checkInterval : Nat
  /-- The time after a deposit has arrived in which no other is made. -/
  cooldown : Nat
  /-- How a deposit is waited for. -/
  wait : WaitPolicy
  deriving DecidableEq, Repr

/-- A deposit that the bridge has taken, and what was known when its answer came. -/
structure Deposit where
  /-- The balance that was read before the bridge was asked. -/
  baseline : Amount
  /-- What the bridge was asked for. -/
  request : DepositRequest
  /-- What it answered. -/
  receipt : DepositReceipt
  /-- When it answered, in milliseconds of Unix time. -/
  wall : UInt64
  deriving DecidableEq, Repr

/-- What the controller has done, as far as statements about runs speak of it. -/
inductive Act where
  /-- It has read the balance to compare it with the threshold. -/
  | looked (r : Except ReadError Reading)
  /-- It has asked the bridge for a deposit. -/
  | asked (request : DepositRequest)
  /-- The bridge has refused. -/
  | refused (why : BridgeError)
  /-- The bridge has taken a deposit. -/
  | deposited (deposit : Deposit)
  /-- It has tried to write a record. -/
  | saved (record : BridgeRecord) (outcome : Except StoreError Unit)
  /-- A wait on a record has ended. -/
  | waited (record : BridgeRecord) (result : WaitResult)

/-- An act with its time. -/
structure JournalEntry where
  /-- The time in milliseconds. -/
  time : Nat
  /-- What was done. -/
  act : Act

/-- The state that the ticks of a controller share, with all that lies outside. -/
structure Controller (ω σ : Type) where
  /-- The node and the bridge. -/
  outside : ω
  /-- The place where the record is kept. -/
  store : σ
  /-- What operators can see. -/
  view : OpsView
  /-- No deposit is made before this time. -/
  cooldownUntil : Option Nat := none
  /-- A record that could not be written; it counts like one that is kept. -/
  unpersisted : Option BridgeRecord := none
  /-- The last deposit that the bridge took. -/
  lastSubmission : Option Submission := none
  /-- What was done, the latest first. -/
  journal : List JournalEntry := []

/-- All that a controller is given: the links to what lies outside, the store, what is watched, and
the policy. -/
structure Charter (ω σ : Type) where
  /-- How the node answers. -/
  node : NodeLink ω
  /-- How the bridge answers. -/
  bridge : BridgeLink ω
  /-- How the record is kept. -/
  store : RecordStore σ
  /-- What is watched. -/
  monitor : Monitor
  /-- When and how the reserve is topped up. -/
  policy : TopupPolicy

namespace Controller

variable {ω σ : Type}

/-- A controller that has done nothing. -/
def initial (staleAfter : Nat) (outside : ω) (store : σ) : Controller ω σ where
  outside := outside
  store := store
  view := ⟨.initial staleAfter, .initial⟩

/-- The controller after an act. -/
def note (c : Controller ω σ) (now : Nat) (a : Act) : Controller ω σ :=
  { c with journal := ⟨now, a⟩ :: c.journal }

/-- The controller after something happened to a deposit. -/
def record (c : Controller ω σ) (e : BridgeEvent) : Controller ω σ :=
  { c with view := c.view.recordEvent e }

/-- No deposit may be made at a time. -/
def coolingDown (c : Controller ω σ) (now : Nat) : Bool :=
  match c.cooldownUntil with
  | some t => now < t
  | none => false

/-- The controller with the flag taken, unless it is taken. -/
def beginFlight? (c : Controller ω σ) : Option (Controller ω σ) :=
  c.view.readiness.beginFlight?.map fun r => { c with view := { c.view with readiness := r } }

/-- The controller with the flag given back. -/
def endFlight (c : Controller ω σ) : Controller ω σ :=
  { c with view := { c.view with readiness := c.view.readiness.endFlight } }

/-- Keeps a record, in memory if it cannot be written. -/
def persist (s : RecordStore σ) (now : Nat) (r : BridgeRecord) (c : Controller ω σ) :
    Controller ω σ :=
  match s.save r c.store with
  | (.ok (), store) => { c.note now (.saved r (.ok ())) with store, unpersisted := none }
  | (.error why, store) => { c.note now (.saved r (.error why)) with store, unpersisted := some r }

/-- Settles a wait on a record: one that ended well forgets the record and starts the cooldown. -/
def settle (s : RecordStore σ) (cooldown now : Nat) (r : BridgeRecord) (result : WaitResult)
    (c : Controller ω σ) : Controller ω σ :=
  let c := (c.note now (.waited r result)).record result.status.event
  match result.status with
  | .confirmed =>
    { c with
      store := (s.clear c.store).2
      unpersisted := none
      cooldownUntil := some (now + cooldown) }
  | _ => c

end Controller

/-- How long a record is still waited for. A wait looks at least once, however old the record is. -/
def remainingBudget (timeout pollMin submittedAt wall : Nat) : Nat :=
  max (timeout - (wall - submittedAt)) pollMin

namespace Charter

variable {ω σ : Type}

/-- A wait on a record for so long. -/
def waitFor (k : Charter ω σ) (r : BridgeRecord) (budget now : Nat) : Wait :=
  .start { k.policy.wait with timeout := budget } ⟨r.baseline, some r.messageHash⟩ now

/-- A wait on a record that an earlier tick, or an earlier process, has left. -/
def resume (k : Charter ω σ) (r : BridgeRecord) (t : Moment) : Wait :=
  k.waitFor r (remainingBudget k.policy.wait.timeout k.policy.wait.pollMin r.submittedAt.toNat
    t.wall.toNat) t.now

/-- Goes on with a wait on a record, and settles it if it ends. -/
def pollWait (k : Charter ω σ) (t : Moment) (r : BridgeRecord) (x : Wait) (c : Controller ω σ) :
    Progress Wait WaitResult × Controller ω σ :=
  match x.poll k.monitor k.node t c.outside c.view with
  | (.pending x, outside, view) => (.pending x, { c with outside, view })
  | (.done result, outside, view) =>
    (.done result, { c with outside, view }.settle k.store k.policy.cooldown t.now r result)

end Charter

/-! ## Ticks -/

/-- How a tick ends. -/
inductive TickOutcome where
  /-- A deposit, or a wait for one, is in flight. -/
  | skippedInFlight
  /-- The store cannot be read. -/
  | storeFailed
  /-- The balance cannot be read. -/
  | balanceReadFailed
  /-- The balance is high enough. -/
  | aboveThreshold (balance : Amount)
  /-- The last deposit arrived only just. -/
  | coolingDown (balance : Amount)
  /-- The bridge refused. -/
  | submitFailed
  /-- An earlier record was waited for. -/
  | resumed (result : WaitResult)
  /-- A deposit was made and waited for. -/
  | bridged (result : WaitResult)
  deriving DecidableEq, Repr

/-- Where a tick is interrupted. -/
inductive Tick where
  /-- The balance is read. -/
  | reading (phase : ReadPhase)
  /-- The bridge has been asked at a time; the balance was read before. -/
  | depositing (balance : Amount) (secret : ClaimSecret) (since : Nat)
  /-- A deposit that this tick made is waited for. -/
  | bridging (record : BridgeRecord) (wait : Wait)
  /-- An earlier record is waited for. -/
  | resuming (record : BridgeRecord) (wait : Wait)
  deriving DecidableEq

namespace Tick

variable {ω σ : Type}

/-- The end of a tick: the flag is given back. -/
def leave (o : TickOutcome) (c : Controller ω σ) : Progress Tick TickOutcome × Controller ω σ :=
  (.done o, c.endFlight)

/-- Goes on with a wait for a deposit that this tick made. -/
def pollBridging (k : Charter ω σ) (t : Moment) (r : BridgeRecord) (x : Wait) (c : Controller ω σ) :
    Progress Tick TickOutcome × Controller ω σ :=
  match k.pollWait t r x c with
  | (.pending x, c) => (.pending (.bridging r x), c)
  | (.done result, c) => leave (.bridged result) c

/-- Goes on with a wait for an earlier record. -/
def pollResuming (k : Charter ω σ) (t : Moment) (r : BridgeRecord) (x : Wait) (c : Controller ω σ) :
    Progress Tick TickOutcome × Controller ω σ :=
  match k.pollWait t r x c with
  | (.pending x, c) => (.pending (.resuming r x), c)
  | (.done result, c) => leave (.resumed result) c

/-- The record of a deposit that the bridge has taken. -/
def recordOf (balance : Amount) (s : Submission) (wall : UInt64) : BridgeRecord :=
  ⟨balance, s.amount, s.secretHash, s.receipt.messageHash, s.receipt.leafIndex, wall⟩

/-- The controller after the bridge has taken a deposit: the secret and the record are kept. -/
def accept (k : Charter ω σ) (t : Moment) (d : Deposit) (s : Submission) (r : BridgeRecord)
    (c : Controller ω σ) : Controller ω σ :=
  { (c.note t.now (.deposited d)).record .submitted with
    lastSubmission := some s }.persist k.store t.now r

/-- Goes on with a deposit. -/
def pollDepositing (k : Charter ω σ) (t : Moment) (balance : Amount) (secret : ClaimSecret)
    (since : Nat) (c : Controller ω σ) : Progress Tick TickOutcome × Controller ω σ :=
  let request := Bridge.requestFor k.monitor.facility k.policy.amount secret
  match k.bridge.deposit request since t.now c.outside with
  | (none, outside) => (.pending (.depositing balance secret since), { c with outside })
  | (some (.error why), outside) =>
    leave .submitFailed (({ c with outside }.note t.now (.refused why)).record .failed)
  | (some (.ok receipt), outside) =>
    let s : Submission := ⟨k.policy.amount, secret, request.secretHash, receipt⟩
    let r := recordOf balance s t.wall
    pollBridging k t r (k.waitFor r k.policy.wait.timeout t.now)
      (accept k t ⟨balance, request, receipt, t.wall⟩ s r { c with outside })

/-- Makes a deposit. -/
def beginDeposit (k : Charter ω σ) (t : Moment) (balance : Amount) (c : Controller ω σ) :
    Progress Tick TickOutcome × Controller ω σ :=
  let secret := ClaimSecret.ofRandom t.random
  pollDepositing k t balance secret t.now
    (c.note t.now (.asked (Bridge.requestFor k.monitor.facility k.policy.amount secret)))

/-- Decides what a balance calls for. -/
def weigh (k : Charter ω σ) (t : Moment) (balance : Amount) (c : Controller ω σ) :
    Progress Tick TickOutcome × Controller ω σ :=
  if c.coolingDown t.now then leave (.coolingDown balance) c
  else if k.policy.threshold ≤ balance then leave (.aboveThreshold balance) c
  else beginDeposit k t balance c

/-- Goes on with the reading of the balance. -/
def pollReading (k : Charter ω σ) (t : Moment) (phase : ReadPhase) (c : Controller ω σ) :
    Progress Tick TickOutcome × Controller ω σ :=
  match k.monitor.pollRead k.node phase c.outside with
  | (.pending phase, outside) => (.pending (.reading phase), { c with outside })
  | (.done r, outside) =>
    let c := { c with outside, view := c.view.recordReading t.wall.toNat r }.note t.now (.looked r)
    match r with
    | .error _ => leave .balanceReadFailed c
    | .ok r => weigh k t r.balance c

/-- Goes on with a tick. -/
def poll (k : Charter ω σ) (t : Moment) (tick : Tick) (c : Controller ω σ) :
    Progress Tick TickOutcome × Controller ω σ :=
  match tick with
  | .reading phase => pollReading k t phase c
  | .depositing balance secret since => pollDepositing k t balance secret since c
  | .bridging r x => pollBridging k t r x c
  | .resuming r x => pollResuming k t r x c

/-- Begins a tick. The flag is taken before anything can interrupt it. -/
def start (k : Charter ω σ) (t : Moment) (c : Controller ω σ) :
    Progress Tick TickOutcome × Controller ω σ :=
  match c.beginFlight? with
  | none => (.done .skippedInFlight, c)
  | some c =>
    match c.unpersisted with
    | some r => pollResuming k t r (k.resume r t) (c.persist k.store t.now r)
    | none =>
      match k.store.load c.store with
      | (.error _, store) => leave .storeFailed { c with store }
      | (.ok (some r), store) => pollResuming k t r (k.resume r t) { c with store }
      | (.ok none, store) => pollReading k t .primary { c with store }

end Tick

/-! ## Recovery -/

/-- A wait for a record that an earlier process has left. -/
structure Recovery where
  /-- The record that is waited for. -/
  record : BridgeRecord
  /-- How far the wait has come. -/
  wait : Wait
  /-- It has taken the flag, and gives it back. -/
  holdsFlag : Bool
  deriving DecidableEq, Repr

namespace Recovery

variable {ω σ : Type}

/-- Goes on with a recovery. A record whose wait did not end well is still kept afterwards. -/
def poll (k : Charter ω σ) (t : Moment) (x : Recovery) (c : Controller ω σ) :
    Progress Recovery (Except StoreError (Option WaitResult)) × Controller ω σ :=
  match k.pollWait t x.record x.wait c with
  | (.pending wait, c) => (.pending { x with wait }, c)
  | (.done result, c) => (.done (.ok (some result)), if x.holdsFlag then c.endFlight else c)

/-- Begins a recovery; it ends at once if no record is kept. -/
def start (k : Charter ω σ) (t : Moment) (c : Controller ω σ) :
    Progress Recovery (Except StoreError (Option WaitResult)) × Controller ω σ :=
  match k.store.load c.store with
  | (.error why, store) => (.done (.error why), { c with store })
  | (.ok none, store) => (.done (.ok none), { c with store })
  | (.ok (some r), store) =>
    let c := { c with store }
    match c.beginFlight? with
    | some c => poll k t ⟨r, k.resume r t, true⟩ c
    | none => poll k t ⟨r, k.resume r t, false⟩ c

end Recovery
end Paymaster.Reserve

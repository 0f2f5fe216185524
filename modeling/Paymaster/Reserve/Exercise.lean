import Paymaster.Reserve.Offline
import Paymaster.Reserve.Patrol
/-!
# What can be rehearsed

An exercise is something that a controller does: ticks, perhaps side by side, a recovery, a patrol,
or a part of one. Looked at at some moment, it ends with a report or says when to look again.
-/

namespace Paymaster.Reserve

open Bridge (ClaimSecret DepositReceipt DepositRequest Submission)

/-- What can be rehearsed. -/
inductive Exercise where
  /-- Ticks side by side; one that has not begun is `none`. -/
  | ticks (ticks : List (Progress (Option Tick) TickOutcome))
  /-- The recovery at the start of a process; it is `none` before it begins. -/
  | recovery (r : Option Recovery)
  | patrol (p : Patrol)
  /-- A wait for a deposit. -/
  | wait (x : Wait)
  /-- Nothing, until a time. -/
  | sleep (wake : Nat)
  /-- A reading of the balance. -/
  | read (phase : ReadPhase)
  /-- A request to the bridge, made at a time. -/
  | deposit (request : DepositRequest) (since : Nat)
  /-- A deposit for the facility with a secret, made at a time. -/
  | submit (amount : Amount) (secret : ClaimSecret) (since : Nat)

/-- What comes of it. -/
inductive Report where
  | ticks (outcomes : List TickOutcome)
  /-- The outcome of a recovery. -/
  | recovery (r : Except StoreError (Option WaitResult))
  /-- The patrol has stopped. -/
  | stopped
  | waited (r : WaitResult)
  /-- The time has come. -/
  | slept
  | read (r : Except ReadError Reading)
  /-- The answer of the bridge. -/
  | deposited (r : Except BridgeError DepositReceipt)
  /-- The answer of the bridge with the secret. -/
  | submitted (r : Except BridgeError Submission)

/-- A controller of a rehearsal. -/
abbrev Rehearsed := Controller Offline Disk

/-- What the controller of a rehearsal is given. -/
abbrev RehearsalCharter := Charter Offline Disk

namespace Exercise

/-- Goes on with ticks, the first one first. -/
def pollTicks (k : RehearsalCharter) (t : Moment) :
    List (Progress (Option Tick) TickOutcome) → Rehearsed →
      List (Progress (Option Tick) TickOutcome) × Rehearsed
  | [], c => ([], c)
  | x :: rest, c =>
    let (x, c) : Progress (Option Tick) TickOutcome × Rehearsed := match x with
      | .done o => (.done o, c)
      | .pending tick =>
        let (x, c) := match tick with
          | none => Tick.start k t c
          | some tick => tick.poll k t c
        (x.map some id, c)
    let (rest, c) := pollTicks k t rest c
    (x :: rest, c)

/-- The results, if all is done. -/
def results? {π α : Type} (xs : List (Progress π α)) : Option (List α) :=
  xs.mapM Progress.result?

/-- Goes on with what is rehearsed. -/
def poll (k : RehearsalCharter) (t : Moment) (c : Rehearsed) :
    Exercise → Progress Exercise Report × Rehearsed
  | .ticks xs =>
    let (xs, c) := pollTicks k t xs c
    match results? xs with
    | some outcomes => (.done (.ticks outcomes), c)
    | none => (.pending (.ticks xs), c)
  | .recovery r =>
    let (x, c) := match r with
      | none => Recovery.start k t c
      | some r => r.poll k t c
    (x.map (fun r => .recovery (some r)) .recovery, c)
  | .patrol p =>
    let (x, c) := p.poll k t c
    (x.map .patrol fun () => .stopped, c)
  | .wait x =>
    let (x, outside, view) := x.poll k.monitor k.node t c.outside c.view
    (x.map .wait .waited, { c with outside, view })
  | .sleep wake => (if wake ≤ t.now then .done .slept else .pending (.sleep wake), c)
  | .read phase =>
    match k.monitor.pollRead k.node phase c.outside with
    | (.pending phase, outside) => (.pending (.read phase), { c with outside })
    | (.done r, outside) =>
      (.done (.read r), { c with outside, view := c.view.recordReading t.wall.toNat r })
  | .deposit request since =>
    match k.bridge.deposit request since t.now c.outside with
    | (none, outside) => (.pending (.deposit request since), { c with outside })
    | (some r, outside) => (.done (.deposited r), { c with outside })
  | .submit amount secret since =>
    let request := Bridge.requestFor k.monitor.facility amount secret
    match k.bridge.deposit request since t.now c.outside with
    | (none, outside) => (.pending (.submit amount secret since), { c with outside })
    | (some r, outside) =>
      (.done (.submitted (r.map fun receipt => ⟨amount, secret, request.secretHash, receipt⟩)),
        { c with outside })

/-- The times at which a tick has to be looked at again. -/
def tickWakes (w : Offline) : Tick → List Nat
  | .reading _ => []
  | .depositing _ _ since => [w.answerTime since]
  | .bridging _ x => x.wakes
  | .resuming _ x => x.wakes

/-- The times at which an exercise has to be looked at again. -/
def wakes (w : Offline) : Exercise → List Nat
  | .ticks xs => xs.flatMap fun
    | .pending (some tick) => tickWakes w tick
    | _ => []
  | .recovery r => (r.map fun r => r.wait.wakes).getD []
  | .patrol p => match p.tick with
    | some tick => tickWakes w tick
    | none => [p.due]
  | .wait x => x.wakes
  | .sleep wake => [wake]
  | .read _ => []
  | .deposit _ since => [w.answerTime since]
  | .submit _ _ since => [w.answerTime since]

end Exercise

end Paymaster.Reserve

import Paymaster.Reserve.Exercise
/-!
# Rehearsals

A rehearsal runs a controller against a node and a bridge without a network, in virtual time: while
all that is under way sleeps, the clock jumps to the next moment at which something is due. The wall
clock stands still unless it is set. While something is under way, the surroundings can be changed
at given times; at one moment, what is under way comes before the changes.
-/

namespace Paymaster.Reserve

/-- A controller in virtual time. -/
structure Rehearsal where
  /-- What the controller is given. -/
  charter : RehearsalCharter
  controller : Rehearsed
  /-- The virtual time in milliseconds. -/
  time : Nat := 0
  /-- The wall clock in milliseconds of Unix time. -/
  wall : UInt64
  /-- The controller has been told to stop. -/
  cancelled : Bool := false
  /-- How many moments there were; random bytes are made from it. -/
  moments : Nat := 0
  /-- The message of the last deposit that was exercised by itself. -/
  lastMessage : Option Word := none

namespace Rehearsal

/-- The text that keeps made-up random bytes apart from all else that is hashed. -/
def drawTag : String := "rehearsal"

/-- The random bytes of a moment: made up, but never the same twice. -/
def draw (moments : Nat) : Word :=
  Word.ofBytes (Digest.Blake3.hash (drawTag.toUTF8.data.toList ++ bigEndian 8 moments))

/-- This moment. -/
def moment (r : Rehearsal) : Moment := ⟨r.time, r.wall, r.cancelled, draw r.moments⟩

/-- The rehearsal with the controller changed. -/
def withController (r : Rehearsal) (f : Rehearsed → Rehearsed) : Rehearsal :=
  { r with controller := f r.controller }

/-- The rehearsal with the node and the bridge changed. -/
def withOutside (r : Rehearsal) (f : Offline → Offline) : Rehearsal :=
  r.withController fun c => { c with outside := f c.outside }

/-- The rehearsal with a simulated node changed. -/
def withNode (r : Rehearsal) (f : Rollup.SimulatedNode → Rollup.SimulatedNode) : Rehearsal :=
  r.withOutside fun w => { w with
    node := match w.node with
      | .simulated n => .simulated (f n)
      | n => n }

/-- The rehearsal with a simulated bridge changed. -/
def withBridge (r : Rehearsal) (f : Bridge.SimulatedBridge → Bridge.SimulatedBridge) : Rehearsal :=
  r.withOutside fun w => { w with
    bridge := match w.bridge with
      | .simulated b => .simulated (f b)
      | b => b }

end Rehearsal

/-! ## Settings -/

/-- A change of the disk. -/
inductive DiskChange where
  /-- A file is written. -/
  | write (path : String) (bytes : List UInt8)
  /-- A directory is made, and all that lead to it. -/
  | makeDirectories (path : String)
  /-- An empty directory is removed. -/
  | removeDirectory (path : String)
  | removeFile (path : String)

/-- The disk after a change; it stays as it is if the change fails. -/
def DiskChange.apply (d : Disk) : DiskChange → Except OsError Disk
  | .write path bytes => d.write path bytes
  | .makeDirectories path => d.makeDirectories path
  | .removeDirectory path => d.removeDirectory path
  | .removeFile path => d.removeFile path

/-- A change of what surrounds the controller. Those of the node, and those of the bridge, do
nothing to one that answers from a list. -/
inductive Setting where
  /-- The node has this balance. -/
  | balance (amount : Amount)
  /-- The node goes through these balances. -/
  | script (amounts : List Amount)
  /-- So many readings fail. -/
  | failReads (count : Nat)
  /-- A credit lands after so many readings. -/
  | credit (amount : Amount) (after : Nat)
  /-- A message is ready after so many checks. -/
  | register (message : Word) (checks : Nat)
  /-- Message checks fail, or do not. -/
  | failChecks (fails : Bool)
  /-- So many deposits fail. -/
  | failDeposits (count : Nat)
  /-- The controller is told to stop, or not to. -/
  | cancel (cancelled : Bool)
  /-- The shutdown begins. -/
  | shutdown
  /-- The wall clock shows this time. -/
  | wall (time : UInt64)
  /-- This record is kept. -/
  | save (record : BridgeRecord)
  | disk (change : DiskChange)

/-- What a setting answers. -/
inductive SettingReport where
  | set
  /-- The record is kept, or is not. -/
  | saved (r : Except StoreError Unit)
  | disk (changed : Bool)

/-- Applies a setting. -/
def Setting.apply (r : Rehearsal) : Setting → SettingReport × Rehearsal
  | .balance amount => (.set, r.withNode fun n => { n with balance := amount })
  | .script amounts => (.set, r.withNode fun n => n.script amounts)
  | .failReads count => (.set, r.withNode fun n => { n with failingReads := count })
  | .credit amount after => (.set, r.withNode fun n => n.schedule amount after)
  | .register message checks => (.set, r.withNode fun n => n.register message checks)
  | .failChecks fails => (.set, r.withNode fun n => { n with checksFail := fails })
  | .failDeposits count => (.set, r.withBridge fun b => { b with failNext := count })
  | .cancel cancelled => (.set, { r with cancelled })
  | .shutdown => (.set, r.withController fun c =>
      { c with view := { c.view with readiness := c.view.readiness.beginShutdown } })
  | .wall time => (.set, { r with wall := time })
  | .save record =>
    let (answer, store) := r.charter.store.save record r.controller.store
    (.saved answer, r.withController fun c => { c with store })
  | .disk change =>
    match change.apply r.controller.store with
    | .ok store => (.disk true, r.withController fun c => { c with store })
    | .error _ => (.disk false, r)

/-- A setting at a time. -/
structure Cue where
  /-- The virtual time. -/
  time : Nat
  setting : Setting

/-! ## Virtual time -/

namespace Rehearsal

/-- Goes on with an exercise at this moment. -/
def poll (r : Rehearsal) (x : Exercise) : Progress Exercise Report × Rehearsal :=
  let (x, c) := x.poll r.charter r.moment r.controller
  (x, { r with controller := c, moments := r.moments + 1 })

/-- The rehearsal after the cues that are due, and the cues that are not. -/
def applyDue (r : Rehearsal) : List Cue → Rehearsal × List Cue
  | [] => (r, [])
  | cue :: rest => if cue.time ≤ r.time then applyDue ((cue.setting.apply r).2) rest else (r, cue :: rest)

/-- The least of some times, if there are any. -/
def earliest : List Nat → Option Nat
  | [] => none
  | t :: rest => some (rest.foldl min t)

/-- The next moment at which something is due. -/
def nextTime (r : Rehearsal) (x : Progress Exercise Report) (cues : List Cue) : Option Nat :=
  earliest ((match x with
    | .pending x => x.wakes r.controller.outside
    | .done _ => []) ++ (cues.head?.map fun cue => cue.time).toList)

/-- An exercise looked at now, unless it is over. -/
def pollOnce (r : Rehearsal) (x : Progress Exercise Report) : Progress Exercise Report × Rehearsal :=
  match x with
  | .pending x => r.poll x
  | .done report => (.done report, r)

/-- Goes on until the exercise and all cues are over; `fuel` bounds the moments. The cues are in the
order of their times. -/
def play : Nat → Progress Exercise Report → List Cue → Rehearsal → Option (Report × Rehearsal)
  | 0, _, _, _ => none
  | fuel + 1, x, cues, r =>
    let (x, r) := r.pollOnce x
    let due := cues.any fun cue => cue.time ≤ r.time
    let (r, cues) := r.applyDue cues
    match x, cues, due with
    | .done report, [], _ => some (report, r)
    | x, cues, true => play fuel x cues r
    | x, cues, false =>
      match r.nextTime x cues with
      | some time => play fuel x cues { r with time := max r.time time }
      | none => none

/-- The bound on moments. -/
def maxMoments : Nat := 10000000

/-- The message of the last deposit after a report. -/
def messageOf (last : Option Word) : Report → Option Word
  | .deposited (.ok r) => some r.messageHash
  | .submitted (.ok x) => some x.receipt.messageHash
  | _ => last

/-- Rehearses an exercise while the surroundings change; nothing if it does not end. -/
def perform (r : Rehearsal) (x : Exercise) (cues : List Cue) : Option (Report × Rehearsal) :=
  (play maxMoments (.pending x) cues r).map fun (report, r) =>
    (report, { r with lastMessage := messageOf r.lastMessage report })

/-- Lets the cues of a step that takes no time pass. -/
def await (r : Rehearsal) (cues : List Cue) : Rehearsal :=
  match r.perform (.sleep r.time) cues with
  | some (_, r) => r
  | none => r

end Rehearsal
end Paymaster.Reserve

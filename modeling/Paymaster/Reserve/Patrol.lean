import Paymaster.Reserve.Controller
/-!
# The patrol

A patrol makes one tick after another, the first at once and then one every interval, until it is
told to stop. A tick that takes long delays the next ones; they are not made up for.
-/

namespace Paymaster.Reserve

/-- A patrol. -/
structure Patrol where
  /-- When the next tick is due. -/
  due : Nat
  /-- The tick under way, if there is one. -/
  tick : Option Tick
  deriving DecidableEq

/-- How late a tick may be without delaying the ones after it, in milliseconds. -/
def tolerance : Nat := 5

/-- When the tick after one that was due is due. -/
def nextDue (interval due now : Nat) : Nat :=
  let interval := max interval 1
  if due + tolerance < now then now + interval else due + interval

theorem lt_nextDue (interval due now : Nat) : due < nextDue interval due now := by
  unfold nextDue
  dsimp only
  split <;> omega

namespace Patrol

variable {ω σ : Type}

/-- A patrol that begins now. -/
def start (now : Nat) : Patrol := ⟨now, none⟩

/-- Goes on between ticks: stops if it is told to, and makes the ticks that are due. -/
def pollIdle (k : Charter ω σ) (t : Moment) (due : Nat) (c : Controller ω σ) :
    Progress Patrol Unit × Controller ω σ :=
  if t.cancelled then (.done (), c)
  else if _h : t.now < due then (.pending ⟨due, none⟩, c)
  else
    let next := nextDue k.policy.checkInterval due t.now
    match Tick.start k t c with
    | (.pending tick, c) => (.pending ⟨next, some tick⟩, c)
    | (.done _, c) => pollIdle k t next c
termination_by t.now + 1 - due
decreasing_by
  have := lt_nextDue k.policy.checkInterval due t.now
  omega

/-- Goes on with a patrol. -/
def poll (k : Charter ω σ) (t : Moment) (x : Patrol) (c : Controller ω σ) :
    Progress Patrol Unit × Controller ω σ :=
  match x.tick with
  | none => pollIdle k t x.due c
  | some tick =>
    match tick.poll k t c with
    | (.pending tick, c) => (.pending { x with tick := some tick }, c)
    | (.done _, c) => pollIdle k t x.due c

end Patrol
end Paymaster.Reserve

import Paymaster.Proofs.Reserve.TickMoves
import Paymaster.Proofs.Reserve.WaitOutcome
import Paymaster.Reserve.Exercise
/-!
# Runs of one tick

A tick that nothing else interrupts is begun at some moment and looked at again until it ends. Once
its deposit is taken it only waits, and the looks at it are the looks at its wait. So what is known
of runs of a wait holds of the tick.
-/

namespace Paymaster.Reserve

variable {ω σ : Type}

/-! ## A wait within a controller -/

namespace Charter

variable {k : Charter ω σ} {e : Nat → Moment} {r : BridgeRecord} {x y : Wait}
  {c c' : Controller ω σ} {n : Nat} {result : WaitResult}

/-- A wait on a record after so many looks, with the controller after them. -/
def runWait (k : Charter ω σ) (e : Nat → Moment) (r : BridgeRecord) (x : Wait)
    (c : Controller ω σ) : Nat → Progress Wait WaitResult × Controller ω σ
  | 0 => (.pending x, c)
  | n + 1 =>
    match runWait k e r x c n with
    | (.pending y, c) => k.pollWait (e n) r y c
    | (.done result, c) => (.done result, c)

/-- What such a wait meets. -/
def watch (k : Charter ω σ) (e : Nat → Moment) (r : BridgeRecord) (x : Wait)
    (c : Controller ω σ) : Watch ω where
  moment := e
  outside n := (k.runWait e r x c n).2.outside
  view n := (k.runWait e r x c n).2.view

theorem pollWait_fst (t : Moment) : (k.pollWait t r x c).1 =
    (x.poll k.monitor k.node t c.outside c.view).1 := by
  rw [pollWait]
  rcases x.poll k.monitor k.node t c.outside c.view with ⟨p | result, outside, view⟩ <;> rfl

theorem outside_pollWait (t : Moment) : (k.pollWait t r x c).2.outside =
    (x.poll k.monitor k.node t c.outside c.view).2.1 := by
  rw [pollWait]
  rcases x.poll k.monitor k.node t c.outside c.view with ⟨p | result, outside, view⟩
  · rfl
  · exact Controller.outside_settle _ _ _ _ _ _

/-- The looks at a wait within a controller are those of a run of the wait. -/
theorem run_watch (k : Charter ω σ) (e : Nat → Moment) (r : BridgeRecord) (x : Wait)
    (c : Controller ω σ) (n : Nat) :
    Wait.run k.monitor k.node (k.watch e r x c) x n = (k.runWait e r x c n).1 := by
  induction n with
  | zero => rfl
  | succ n ih =>
    rw [Wait.run, ih, runWait]
    rcases hrun : k.runWait e r x c n with ⟨y | result, c'⟩
    · have hnext := pollWait_fst (k := k) (r := r) (x := y) (c := c') (e n)
      simp only [watch, hrun]
      exact hnext.symm
    · rfl

theorem runWait_succ (h : k.runWait e r x c n = (.pending y, c')) :
    k.runWait e r x c (n + 1) = k.pollWait (e n) r y c' := by
  rw [runWait, h]

/-- A wait that goes on has changed what lies outside and what operators see, and nothing else. -/
theorem runWait_pending (h : k.runWait e r x c n = (.pending y, c')) :
    c' = { c with outside := c'.outside, view := c'.view } := by
  induction n generalizing y c' with
  | zero =>
    cases h
    rfl
  | succ n ih =>
    rcases hrun : k.runWait e r x c n with ⟨z | result, c''⟩
    · have hz := ih hrun
      rw [runWait_succ hrun] at h
      have hmove := pollWait_move (k := k) (t := e n) r z c''
      rw [h] at hmove
      cases hmove with
      | pending _ => rw [hz]
    · rw [runWait, hrun] at h
      cases h

/-- A wait that ends is settled with the controller that it began with. -/
theorem runWait_done (h : (k.runWait e r x c n).1 = .pending y)
    (hdone : (k.runWait e r x c (n + 1)).1 = .done result) :
    ∃ outside view, k.runWait e r x c (n + 1) = (.done result,
      { c with outside, view }.settle k.store k.policy.cooldown (e n).now r result) := by
  rcases hwait : k.runWait e r x c n with ⟨q, c'⟩
  rw [hwait] at h
  subst h
  rw [runWait_succ hwait] at hdone ⊢
  have hmove := pollWait_move (k := k) (t := e n) r y c'
  rcases hpoll : k.pollWait (e n) r y c' with ⟨q, c''⟩
  rw [hpoll] at hdone hmove
  subst hdone
  cases hmove with
  | done _ =>
    rw [runWait_pending hwait]
    exact ⟨_, _, rfl⟩

/-- A run that shows a wait on a record at its first look, and then looks at nothing else, shows it
at every look. -/
theorem runWait_shown {α : Type} {run : Nat → α}
    {shown : Progress Wait WaitResult × Controller ω σ → α}
    (hfirst : run 1 = shown (k.runWait e r x c 1))
    (hpending : ∀ n y c', run (n + 1) = shown (.pending y, c') →
      run (n + 2) = shown (k.pollWait (e (n + 1)) r y c'))
    (hdone : ∀ n result c', run (n + 1) = shown (.done result, c') → run (n + 2) = run (n + 1))
    (n : Nat) : run (n + 1) = shown (k.runWait e r x c (n + 1)) := by
  induction n with
  | zero => exact hfirst
  | succ n ih =>
    rcases hrun : k.runWait e r x c (n + 1) with ⟨y | result, c'⟩
    · rw [hrun] at ih
      rw [hpending n y c' ih, runWait_succ hrun]
    · rw [hrun] at ih
      rw [hdone n result c' ih, ih, runWait, hrun]

end Charter

/-! ## A tick -/

namespace Tick

variable {k : Charter ω σ} {e : Nat → Moment} {c c' : Controller ω σ} {n : Nat} {tick : Tick}

/-- A look at a tick; it is `none` before it begins. -/
def look (k : Charter ω σ) (t : Moment) (c : Controller ω σ) :
    Option Tick → Progress Tick TickOutcome × Controller ω σ
  | none => start k t c
  | some tick => tick.poll k t c

/-- What a look at a tick leaves is a tick that has begun. -/
def begun (p : Progress Tick TickOutcome × Controller ω σ) :
    Progress (Option Tick) TickOutcome × Controller ω σ := (p.1.map some id, p.2)

/-- A tick after so many looks, with the controller after them. -/
def run (k : Charter ω σ) (e : Nat → Moment) (c : Controller ω σ) :
    Nat → Progress (Option Tick) TickOutcome × Controller ω σ
  | 0 => (.pending none, c)
  | n + 1 =>
    match run k e c n with
    | (.pending tick, c) => begun (look k (e n) c tick)
    | (.done o, c) => (.done o, c)

theorem run_succ {tick : Option Tick} (h : run k e c n = (.pending tick, c')) :
    run k e c (n + 1) = begun (look k (e n) c' tick) := by
  rw [run, h]

/-- The tick that a wait for its deposit stands for. -/
def bridged (r : BridgeRecord) : Progress Wait WaitResult × Controller ω σ →
    Progress (Option Tick) TickOutcome × Controller ω σ
  | (.pending x, c) => (.pending (some (.bridging r x)), c)
  | (.done result, c) => (.done (.bridged result), c.endFlight)

theorem exists_of_bridged_pending {r : BridgeRecord}
    {p : Progress Wait WaitResult × Controller ω σ} (h : bridged r p = (.pending (some tick), c')) :
    ∃ y, p.1 = .pending y ∧ tick = .bridging r y := by
  rcases p with ⟨y | result, c⟩
  · cases h
    exact ⟨y, rfl, rfl⟩
  · cases h

theorem pollBridging_eq (t : Moment) (r : BridgeRecord) (x : Wait) (c : Controller ω σ) :
    begun (pollBridging k t r x c) = bridged r (k.pollWait t r x c) := by
  rw [pollBridging]
  rcases k.pollWait t r x c with ⟨y | result, c'⟩ <;> rfl

/-- A tick that waits for its deposit does nothing else. -/
theorem run_bridging {r : BridgeRecord} {x : Wait} {c₀ : Controller ω σ}
    (h : run k e c (n + 1) = bridged r (k.runWait (fun i => e (n + i)) r x c₀ 1)) (i : Nat) :
    run k e c (n + 1 + i) = bridged r (k.runWait (fun i => e (n + i)) r x c₀ (i + 1)) := by
  rw [Nat.add_assoc, Nat.add_comm 1 i]
  refine @Charter.runWait_shown _ _ k _ r x c₀ _ (fun i => run k e c (n + i)) _ h ?_ ?_ i
  · intro i y c' hrun
    exact (run_succ hrun).trans (pollBridging_eq _ r y c')
  · intro i result c' hrun
    show run k e c (n + (i + 1) + 1) = _
    rw [run, hrun]
    rfl

/-- A tick without a network is never looked at too late for what it sleeps for, and again and
again. -/
structure Prompt (k : Charter Offline σ) (c : Controller Offline σ) (e : Nat → Moment) : Prop where
  /-- The clock never steps back. -/
  mono : ∀ n, (e n).now ≤ (e (n + 1)).now
  /-- No time that the tick sleeps for is missed. -/
  prompt : ∀ n tick c', run k e c n = (.pending (some tick), c') →
    ∀ wake ∈ Exercise.tickWakes c'.outside tick, (e n).now ≤ wake
  /-- Every time comes. -/
  unbounded : ∀ T, ∃ n, T ≤ (e n).now

/-- Once the tick waits, the wait is looked at in time as well. -/
theorem Prompt.watch {k : Charter Offline σ} {c c₀ : Controller Offline σ} {r : BridgeRecord}
    {p : WaitPolicy} {target : WaitTarget} (h : Prompt k c e)
    (hrun : ∀ i, run k e c (n + 1 + i) =
      bridged r (k.runWait (fun i => e (n + i)) r (.start p target (e n).now) c₀ (i + 1))) :
    (k.watch (fun i => e (n + i)) r (.start p target (e n).now) c₀).Prompt k.monitor k.node
      (.start p target (e n).now) where
  first := rfl
  mono i := h.mono (n + i)
  prompt i y hy wake hwake := by
    rw [Charter.run_watch] at hy
    cases i with
    | zero =>
      cases hy
      have hin : (Wait.start p target (e n).now).InTime p target (e n).now
          (fun _ => .ok ⟨0, .primary⟩) (fun _ => .ok false) [] [] (e n).now := Wait.inTime_start
      exact hin.le_wake hwake
    | succ i =>
      rcases hwait : k.runWait (fun i => e (n + i)) r (.start p target (e n).now) c₀ (i + 1) with
        ⟨q, c'⟩
      rw [hwait] at hy
      cases hy
      have htick := hrun i
      rw [hwait] at htick
      have hle := h.prompt (n + 1 + i) _ _ htick wake hwake
      rwa [Nat.add_right_comm] at hle
  unbounded T := by
    obtain ⟨i, hi⟩ := h.unbounded T
    refine ⟨i, Nat.le_trans hi ?_⟩
    exact monotone_nat_of_le_succ h.mono (Nat.le_add_left i n)

end Tick
end Paymaster.Reserve

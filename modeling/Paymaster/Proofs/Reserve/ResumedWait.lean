import Paymaster.Proofs.Reserve.Delivery
import Paymaster.Proofs.Reserve.KeptFile
import Paymaster.Proofs.Reserve.TickRun
/-!
# Resumed waits

A record that an earlier tick or an earlier process has left is waited for again, for what is left
of its time, but never for less than the time between two looks. Since this time is not nothing, the
first look comes before the deadline, and it asks for the balance and for the message. So a deposit
that has arrived is found however old its record is, and the record is forgotten.
-/

namespace Paymaster.Reserve

open Rollup (NodeLink)

/-! ## The first look of a wait -/

namespace Wait

variable {ω : Type} {m : Monitor} {link : NodeLink ω} {e : Watch ω} {p : WaitPolicy}
  {target : WaitTarget} {t₀ : Nat}

/-- A reading that shows a balance above a baseline. -/
def Above (baseline : Amount) (r : Except ReadError Reading) : Prop :=
  ∃ a, r = .ok a ∧ baseline < a.balance

/-- A wait that has any time reads the balance at its first look, and unless the balance has risen
it checks the message, too. -/
theorem first_look (himm : link.Immediate) (hm : target.message.isSome) (hpos : 0 < p.timeout)
    (hnow : (e.moment 0).now = t₀) (hc : (e.moment 0).cancelled = false) :
    ∃ a, readings m link e (start p target t₀) 1 = [a] ∧
      (¬Above target.baseline a → ∃ b, checks m link e (start p target t₀) 1 = [b]) := by
  obtain ⟨a, b, hlook, hreadings, hchecks⟩ :=
    @run_succ_look _ m link _ e 0 _ (rfl : run m link e (start p target t₀) 0 = _)
  have hbalance : (start p target t₀).balance.Due .primary t₀ t₀ p.first :=
    .inr ⟨rfl, Nat.le_refl t₀⟩
  have hmessage : (start p target t₀).message.Due () t₀ t₀ p.first := by
    obtain ⟨message, hsome⟩ := Option.isSome_iff_exists.mp hm
    refine .inr ⟨?_, Nat.le_refl t₀⟩
    simp only [start, hsome]
  -- The reading is answered, and leaves the looks at the message alone.
  have hread : ∀ {a y}, BalanceLook m link (e.moment 0) (start p target t₀) (e.outside 0) a y →
      ∃ r, a = some r ∧ y.target = target ∧ y.message = (start p target t₀).message := by
    intro a y hb
    rcases hb.at_once himm hbalance hnow.ge with ⟨hlt, -⟩ | ⟨-, r, rfl, rfl⟩
    · exact absurd hlt (by omega)
    · exact ⟨r, rfl, rfl, rfl⟩
  have hcheck : ∀ {a y b z w}, BalanceLook m link (e.moment 0) (start p target t₀) (e.outside 0) a y →
      MessageLook link (e.moment 0) y w b z → ∃ r, b = some r := by
    intro a y b z w hb hml
    obtain ⟨r, -, htarget, hkept⟩ := hread hb
    rcases hml.at_once himm (htarget ▸ hm) (hkept ▸ hmessage) hnow.ge with ⟨hlt, -⟩ | ⟨-, r', hr', -⟩
    · exact absurd hlt (by omega)
    · exact ⟨r', hr'⟩
  rw [hreadings, hchecks]
  generalize run m link e (start p target t₀) (0 + 1) = q at hlook
  cases hlook with
  | aborted hc' => simp [hc] at hc'
  | timeout _ hd =>
    have hdeadline : t₀ + p.timeout ≤ (e.moment 0).now := hd
    omega
  | @rose r y _ _ hb hr =>
    refine ⟨r, rfl, fun hnot => absurd ?_ hnot⟩
    cases r with
    | error why => cases hr
    | ok a => exact ⟨a, rfl, of_decide_eq_true hr⟩
  | ready _ _ hb hr hml =>
    obtain ⟨r, rfl, -⟩ := hread hb
    exact ⟨r, rfl, fun _ => ⟨_, rfl⟩⟩
  | pending _ _ hb hr hml hn =>
    obtain ⟨r, rfl, -⟩ := hread hb
    obtain ⟨r', rfl⟩ := hcheck hb hml
    exact ⟨r, rfl, fun _ => ⟨r', rfl⟩⟩

end Wait

theorem WaitResult.OnSchedule.elapsed_le {p : WaitPolicy} {i j : ℕ∞} {r : WaitResult}
    (h : r.OnSchedule p i j) : r.elapsed ≤ p.timeout := by
  by_cases hk : ∃ k : ℕ, min i j = k ∧ p.lookAt k < p.timeout
  · obtain ⟨k, hk, hlt⟩ := hk
    obtain ⟨-, helapsed, -⟩ := h.confirmed k hk hlt
    omega
  · have hlate : ∀ k : ℕ, min i j = k → p.timeout ≤ p.lookAt k := by
      intro k hk'
      exact Nat.not_lt.mp fun hlt => hk ⟨k, hk', hlt⟩
    obtain ⟨-, helapsed, -⟩ := h.timeout hlate
    exact Nat.le_of_eq helapsed

/-- A signal at the first look confirms the deposit, if there is any time. -/
theorem WaitResult.OnSchedule.confirmed_of_first {p : WaitPolicy} {i j : ℕ∞} {r : WaitResult}
    (h : r.OnSchedule p i j) (hpos : 0 < p.timeout) (hfirst : i = 0 ∨ j = 0) :
    r.status = .confirmed := by
  have hmin : min i j = ((0 : ℕ) : ℕ∞) := by
    rcases hfirst with rfl | rfl
    · exact min_eq_left (zero_le)
    · exact min_eq_right (zero_le)
  exact (h.confirmed 0 hmin hpos).1

/-! ## A resumed wait -/

variable {ω σ : Type}

/-- What a store forgets is in its file no more. -/
def RecordStore.ClearsFile (s : RecordStore σ) (path : String) (disk : σ → Disk) : Prop :=
  ∀ x, (s.clear x).1 = .ok () → StateFile.clear path (disk x) = (.ok (), disk (s.clear x).2)

theorem StateFile.clearsFile_store (path : String) : (store path).ClearsFile path id :=
  fun _ h => Prod.ext h rfl

namespace Charter

variable {k : Charter ω σ} {path : String} {disk : σ → Disk} {e : Nat → Moment} {r : BridgeRecord}
  {c c' : Controller ω σ} {n : Nat} {result : WaitResult}

/-- How often a resumed wait looks, and for how long. -/
def resumePolicy (k : Charter ω σ) (r : BridgeRecord) (t : Moment) : WaitPolicy :=
  { k.policy.wait with
    timeout := remainingBudget k.policy.wait.timeout k.policy.wait.pollMin r.submittedAt.toNat
      t.wall.toNat }

/-- What a resumed wait waits for. -/
def resumeTarget (r : BridgeRecord) : WaitTarget := ⟨r.baseline, some r.messageHash⟩

theorem resume_eq (k : Charter ω σ) (r : BridgeRecord) (t : Moment) :
    k.resume r t = .start (k.resumePolicy r t) (resumeTarget r) t.now := rfl

/-- A resumed wait has some time, however old its record is. -/
theorem timeout_pos (hmin : 1 ≤ k.policy.wait.pollMin) (r : BridgeRecord) (t : Moment) :
    0 < (k.resumePolicy r t).timeout :=
  Nat.lt_of_lt_of_le hmin (Nat.le_max_right _ _)

/-- The readings of a resumed wait, up to so many looks. -/
def resumedReadings (k : Charter ω σ) (e : Nat → Moment) (r : BridgeRecord) (c : Controller ω σ) :
    Nat → List (Except ReadError Reading) :=
  Wait.readings k.monitor k.node (k.watch e r (k.resume r (e 0)) c) (k.resume r (e 0))

/-- The message checks of a resumed wait, up to so many looks. -/
def resumedChecks (k : Charter ω σ) (e : Nat → Moment) (r : BridgeRecord) (c : Controller ω σ) :
    Nat → List (Except RollupError Bool) :=
  Wait.checks k.monitor k.node (k.watch e r (k.resume r (e 0)) c) (k.resume r (e 0))

/-- What a resumed wait does that begins with one controller and ends, at look `n`, with another. -/
structure Recovers (k : Charter ω σ) (path : String) (disk : σ → Disk) (e : Nat → Moment)
    (r : BridgeRecord) (c : Controller ω σ) (n : Nat) (result : WaitResult)
    (c' : Controller ω σ) : Prop where
  /-- The result tells the time of the last look. -/
  now_eq : (e n).now = (e 0).now + result.elapsed
  /-- It takes what is left of the time, or the time between two looks. -/
  elapsed_le : result.elapsed ≤ max
    (k.policy.wait.timeout - ((e 0).wall.toNat - r.submittedAt.toNat)) k.policy.wait.pollMin
  /-- The balance is read, and the message is checked unless the balance has risen. -/
  looks : ∃ a, (k.resumedReadings e r c (n + 1))[0]? = some a ∧
    (¬Wait.Above r.baseline a → ∃ b, (k.resumedChecks e r c (n + 1))[0]? = some b)
  /-- A deposit that is found by the first of these is confirmed, and its record is forgotten. -/
  recovered : (∃ a, (k.resumedReadings e r c (n + 1))[0]? = some a ∧ Wait.Above r.baseline a) ∨
      (k.resumedChecks e r c (n + 1))[0]? = some (.ok true) →
    result.status = .confirmed ∧ c'.unpersisted = none ∧
      ((k.store.clear c.store).1 = .ok () → StateFile.load path (disk c'.store) = .ok none)

/-- What became of the record does not depend on the flag. -/
theorem Recovers.endFlight (h : k.Recovers path disk e r c n result c') :
    k.Recovers path disk e r c n result c'.endFlight :=
  ⟨h.now_eq, h.elapsed_le, h.looks, h.recovered⟩

/-- A resumed wait looks at once. -/
theorem resumed_first (hmin : 1 ≤ k.policy.wait.pollMin) (himm : k.node.Immediate)
    (r : BridgeRecord) (c : Controller ω σ) (hc : (e 0).cancelled = false) :
    ∃ a, k.resumedReadings e r c 1 = [a] ∧
      (¬Wait.Above r.baseline a → ∃ b, k.resumedChecks e r c 1 = [b]) := by
  have hsome : (resumeTarget r).message.isSome = true := rfl
  have hnow : ((k.watch e r (k.resume r (e 0)) c).moment 0).now = (e 0).now := rfl
  exact Wait.first_look himm hsome (timeout_pos hmin r (e 0)) hnow hc

/-- A wait that is resumed, and not cancelled, ends in time and looks at least once. -/
theorem exists_recovers (hmin : 1 ≤ k.policy.wait.pollMin) (himm : k.node.Immediate)
    (hs : k.store.ClearsFile path disk) (hc : ∀ n, (e n).cancelled = false)
    (hp : (k.watch e r (k.resume r (e 0)) c).Prompt k.monitor k.node (k.resume r (e 0))) :
    ∃ n result c', k.runWait e r (k.resume r (e 0)) c (n + 1) = (.done result, c') ∧
      k.Recovers path disk e r c n result c' := by
  rw [resume_eq] at hp ⊢
  obtain ⟨b, checks, ha⟩ := Watch.exists_answers _ _
  have hpos := timeout_pos hmin r (e 0)
  obtain ⟨n, y, result, hy, hdone, hnow, hsched⟩ := Wait.exists_last_look himm hp ha hc
  obtain ⟨a, hread, hcheck⟩ := resumed_first hmin himm r c (hc 0)
  rw [run_watch] at hy hdone
  obtain ⟨outside, view, hwait⟩ := runWait_done hy hdone
  have hlater : 1 ≤ n + 1 := Nat.le_add_left 1 n
  refine ⟨n, result, _, hwait, hnow, hsched.elapsed_le, ⟨a, ?_, ?_⟩, ?_⟩
  · have hfirst : (k.resumedReadings e r c 1)[0]? = some a := by rw [hread, List.getElem?_cons_zero]
    exact nth_mono (Wait.readings_mono hlater) hfirst
  · intro hnot
    obtain ⟨a', hcheck⟩ := hcheck hnot
    have hfirst : (k.resumedChecks e r c 1)[0]? = some a' := by
      rw [hcheck, List.getElem?_cons_zero]
    exact ⟨a', nth_mono (Wait.checks_mono hlater) hfirst⟩
  · intro hfound
    have hstatus : result.status = .confirmed := by
      refine hsched.confirmed_of_first hpos ?_
      rcases hfound with ⟨a', ha', habove⟩ | hready
      · have hrises : (resumeTarget r).Rises b 0 := by
          rw [← ha.reading _ 0 _ ha'] at habove
          exact habove
        exact .inl (firstIndex_eq hrises fun q hq => absurd hq (Nat.not_lt_zero q))
      · have hreadyAt : (resumeTarget r).Ready checks 0 :=
          ⟨rfl, ha.check _ 0 _ hready, fun q hq => absurd hq (Nat.not_lt_zero q)⟩
        exact .inr (firstIndex_eq hreadyAt fun q hq => absurd hq (Nat.not_lt_zero q))
    rw [Controller.settle_confirmed _ _ _ _ hstatus]
    exact ⟨hstatus, rfl, fun hclear => StateFile.load_of_clear (hs c.store hclear)⟩

end Charter

/-! ## Ticks and recoveries that resume -/

variable {k : Charter ω σ} {path : String} {disk : σ → Disk} {e : Nat → Moment} {t : Moment}
  {r : BridgeRecord} {x : Wait} {holds : Bool} {c c' : Controller ω σ} {n : Nat}
  {result : WaitResult}

namespace Tick

/-- The tick that a wait for an earlier record stands for. -/
def resumed (r : BridgeRecord) : Progress Wait WaitResult × Controller ω σ →
    Progress (Option Tick) TickOutcome × Controller ω σ
  | (.pending x, c) => (.pending (some (.resuming r x)), c)
  | (.done result, c) => (.done (.resumed result), c.endFlight)

theorem pollResuming_eq (t : Moment) (r : BridgeRecord) (x : Wait) (c : Controller ω σ) :
    begun (pollResuming k t r x c) = resumed r (k.pollWait t r x c) := by
  rw [pollResuming]
  rcases k.pollWait t r x c with ⟨y | result, c'⟩ <;> rfl

theorem start_of_resuming (h : Opening k t c (.pending (.resuming r x)) c') :
    start k t c = pollResuming k t r x c' := by
  cases h with
  | retried hfree hr => rw [start_of_free hfree, hr]
  | resumed hfree hr hload => rw [start_of_free hfree, hr, hload]

/-- A tick that opens with an earlier record waits for it and does nothing else. -/
theorem run_resuming (h : Opening k (e 0) c (.pending (.resuming r x)) c') (n : Nat) :
    run k e c (n + 1) = resumed r (k.runWait e r x c' (n + 1)) := by
  refine Charter.runWait_shown ?_ ?_ ?_ n
  · show begun (start k (e 0) c) = _
    rw [start_of_resuming h, pollResuming_eq]
    rfl
  · intro n y c' hrun
    exact (run_succ hrun).trans (pollResuming_eq _ r y c')
  · intro n result c' hrun
    rw [run, hrun]
    rfl

end Tick

namespace Recovery

/-- A look at a recovery; it is `none` before it begins. -/
def look (k : Charter ω σ) (t : Moment) (c : Controller ω σ) :
    Option Recovery → Progress Recovery (Except StoreError (Option WaitResult)) × Controller ω σ
  | none => start k t c
  | some x => poll k t x c

/-- A recovery after so many looks, with the controller after them. -/
def run (k : Charter ω σ) (e : Nat → Moment) (c : Controller ω σ) : Nat →
    Progress (Option Recovery) (Except StoreError (Option WaitResult)) × Controller ω σ
  | 0 => (.pending none, c)
  | n + 1 =>
    match run k e c n with
    | (.pending x, c) => ((look k (e n) c x).1.map some id, (look k (e n) c x).2)
    | (.done o, c) => (.done o, c)

/-- The recovery that a wait for its record stands for. -/
def waiting (r : BridgeRecord) (holds : Bool) : Progress Wait WaitResult × Controller ω σ →
    Progress (Option Recovery) (Except StoreError (Option WaitResult)) × Controller ω σ
  | (.pending x, c) => (.pending (some ⟨r, x, holds⟩), c)
  | (.done result, c) => (.done (.ok (some result)), if holds then c.endFlight else c)

theorem poll_eq (t : Moment) (r : BridgeRecord) (x : Wait) (holds : Bool) (c : Controller ω σ) :
    ((poll k t ⟨r, x, holds⟩ c).1.map some id, (poll k t ⟨r, x, holds⟩ c).2) =
      waiting r holds (k.pollWait t r x c) := by
  rw [poll]
  rcases k.pollWait t r x c with ⟨y | result, c'⟩ <;> rfl

theorem start_of_waiting (h : Opening k t c (.pending ⟨r, x, holds⟩) c') :
    start k t c = poll k t ⟨r, x, holds⟩ c' := by
  cases h with
  | found hload hflag =>
    rw [start, hload]
    simp only [Controller.beginFlight?_eq]
    rw [if_neg (by exact Bool.eq_false_iff.mp hflag)]
    rfl
  | foundTaken hload hflag =>
    rw [start, hload]
    simp only [Controller.beginFlight?_eq]
    rw [if_pos (by exact hflag)]

/-- A recovery that finds a record waits for it and does nothing else. -/
theorem run_waiting (h : Opening k (e 0) c (.pending ⟨r, x, holds⟩) c') (n : Nat) :
    run k e c (n + 1) = waiting r holds (k.runWait e r x c' (n + 1)) := by
  refine Charter.runWait_shown ?_ ?_ ?_ n
  · show ((start k (e 0) c).1.map some id, (start k (e 0) c).2) = _
    rw [start_of_waiting h, poll_eq]
    rfl
  · intro n y c' hrun
    rw [run, hrun]
    exact poll_eq _ r y holds c'
  · intro n result c' hrun
    rw [run, hrun]
    rfl

end Recovery

/-! ## Deposits that have landed -/

/-- A tick or a recovery that finds a record, with a node that answers at once, waits for it in time
and looks at least once. If the first reading shows that the deposit has landed, or the first
message check does, it is confirmed and its record is forgotten, however old the record is and
whatever the wall clock says. -/
theorem resumed_wait_recovers (hmin : 1 ≤ k.policy.wait.pollMin) (himm : k.node.Immediate)
    (hs : k.store.ClearsFile path disk) (hc : ∀ n, (e n).cancelled = false)
    (hp : (k.watch e r (k.resume r (e 0)) c').Prompt k.monitor k.node (k.resume r (e 0))) :
    (Tick.Opening k (e 0) c (.pending (.resuming r (k.resume r (e 0)))) c' →
      ∃ n result c'', Tick.run k e c (n + 1) = (.done (.resumed result), c'') ∧
        k.Recovers path disk e r c' n result c'') ∧
    ∀ holds, Recovery.Opening k (e 0) c (.pending ⟨r, k.resume r (e 0), holds⟩) c' →
      ∃ n result c'', Recovery.run k e c (n + 1) = (.done (.ok (some result)), c'') ∧
        k.Recovers path disk e r c' n result c'' := by
  obtain ⟨n, result, c'', hrun, hrecovers⟩ := Charter.exists_recovers hmin himm hs hc hp
  constructor
  · intro hopen
    refine ⟨n, result, c''.endFlight, ?_, hrecovers.endFlight⟩
    rw [Tick.run_resuming hopen, hrun]
    rfl
  · intro holds hopen
    refine ⟨n, result, if holds then c''.endFlight else c'', ?_, ?_⟩
    · rw [Recovery.run_waiting hopen, hrun]
      rfl
    · cases holds with
      | true => exact hrecovers.endFlight
      | false => exact hrecovers

/-- A reserve of 5 that is looked at every 2 milliseconds, for 10 at most. -/
def resumingCharter : Charter Offline Disk :=
  ⟨Offline.nodeLink, Offline.bridgeLink, StateFile.store "bridge.json", Wait.quickMonitor,
    ⟨100, 50, 1000, 200, ⟨2, 4, 10⟩⟩⟩

/-- A deposit of 1 onto a balance of 4, made at the beginning of Unix time. -/
def ancientRecord : BridgeRecord := ⟨4, 1, 7, 8, 9, 0⟩

/-- A process that begins, on a disk on which an earlier one has left something. -/
def afterRestart (left : Disk) : Controller Offline Disk :=
  .initial 3000 ⟨.simulated { balance := 5, feeJuice := ⟨1⟩ }, .simulated {}⟩ left

/-- Looks in every millisecond, at the end of the wall clock. -/
def lateMoments (n : Nat) : Moment := ⟨n, 0xffffffffffffffff, false, 0⟩

/-- The time of the ancient record is long over, and a tick as well as a recovery finds its
deposit. -/
theorem resumed_wait_recovers_ancient : ∃ left,
    StateFile.load "bridge.json" left = .ok (some ancientRecord) ∧
    (∃ n result c, Tick.run resumingCharter lateMoments (afterRestart left) (n + 1) =
        (.done (.resumed result), c) ∧ result.status = .confirmed ∧ result.elapsed ≤ 2 ∧
      StateFile.load "bridge.json" c.store = .ok none) ∧
    ∃ n result c, Recovery.run resumingCharter lateMoments (afterRestart left) (n + 1) =
        (.done (.ok (some result)), c) ∧ result.status = .confirmed ∧ result.elapsed ≤ 2 ∧
      StateFile.load "bridge.json" c.store = .ok none := by
  have hwrites : ∀ r, (StateFile.save "bridge.json" r .empty).1 = .ok () := fun _ => rfl
  obtain ⟨left, hsave⟩ : ∃ left, StateFile.save "bridge.json" ancientRecord .empty = (.ok (), left) :=
    ⟨_, Prod.ext (hwrites ancientRecord) rfl⟩
  have hload : resumingCharter.store.load (afterRestart left).store =
      (.ok (some ancientRecord), left) := Prod.ext (StateFile.load_of_save hsave) rfl
  have hclear : (resumingCharter.store.clear (afterRestart left).takeFlight.store).1 = .ok () :=
    StateFile.clear_of_save hsave
  have hprompt : (resumingCharter.watch lateMoments ancientRecord
      (resumingCharter.resume ancientRecord (lateMoments 0)) (afterRestart left).takeFlight).Prompt
      resumingCharter.monitor resumingCharter.node
      (resumingCharter.resume ancientRecord (lateMoments 0)) :=
    Wait.prompt_of_every Offline.immediate_nodeLink fun n => (Nat.zero_add n).symm
  have hfirst : (resumingCharter.resumedReadings lateMoments ancientRecord
      (afterRestart left).takeFlight 1)[0]? = some (.ok ⟨5, .primary⟩) := rfl
  obtain ⟨htick, hrecovery⟩ := @resumed_wait_recovers _ _ _ _ _ _ _ (afterRestart left) _
    (by decide) Offline.immediate_nodeLink (StateFile.clearsFile_store "bridge.json")
    (fun _ => rfl) hprompt
  have hends : ∀ {n result c'}, resumingCharter.Recovers "bridge.json" id lateMoments ancientRecord
      (afterRestart left).takeFlight n result c' → result.status = .confirmed ∧
        result.elapsed ≤ 2 ∧ StateFile.load "bridge.json" c'.store = .ok none := by
    intro n result c' h
    have hread := nth_mono (Wait.readings_mono (Nat.le_add_left 1 n)) hfirst
    obtain ⟨hstatus, -, hgone⟩ := h.recovered (.inl ⟨_, hread, _, rfl, by decide⟩)
    exact ⟨hstatus, h.elapsed_le.trans (by decide), hgone hclear⟩
  refine ⟨left, StateFile.load_of_save hsave, ?_, ?_⟩
  · obtain ⟨n, result, c, hrun, hrecovers⟩ := htick (.resumed rfl rfl hload)
    exact ⟨n, result, c, hrun, hends hrecovers⟩
  · obtain ⟨n, result, c, hrun, hrecovers⟩ := hrecovery true (.found hload rfl)
    exact ⟨n, result, c, hrun, hends hrecovers⟩

end Paymaster.Reserve

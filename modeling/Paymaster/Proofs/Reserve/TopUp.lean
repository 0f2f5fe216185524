import Paymaster.Proofs.Reserve.Delivery
import Paymaster.Proofs.Reserve.KeptFile
import Paymaster.Proofs.Reserve.TickRun
/-!
# A reserve that is topped up

A tick that finds the reserve low asks the bridge, sleeps until the bridge answers, and then waits
for the deposit. With a simulated node and a simulated bridge that is linked to it nothing is left
to chance: the tick makes one deposit, and its wait ends as the two counts of the node and the
schedule of the wait call for. A deposit that was seen to arrive is forgotten, and until the
cooldown is over no tick makes another; one that was not seen in time is still in the file.
-/

namespace Paymaster.Reserve

open Bridge (ClaimSecret DepositRequest SimulatedBridge)
open Rollup (SimulatedNode)

/-! ## Ticks that read the balance -/

namespace Tick

variable {k : Charter Offline Disk} {t : Moment} {c : Controller Offline Disk} {balance : Amount}

/-- A tick that finds nothing kept, on a node that answers, reads the balance and weighs it within
one look. -/
theorem start_weighs {n : SimulatedNode} (hk : k.node = Offline.nodeLink) (hfree : c.inFlight = false)
    (hkept : c.unpersisted = none) (hload : k.store.load c.store = (.ok none, c.store))
    (hnode : c.outside.node = .simulated n) (hn : n.Reliable k.monitor.fallback) :
    ∃ source slot, start k t c = weigh k t n.nextBalance.1 (c.takeFlight.afterReading t
      { c.outside with node := .simulated { n.nextBalance.2 with lastSlot := slot } }
      (.ok ⟨n.nextBalance.1, source⟩)) := by
  obtain ⟨source, slot, hread⟩ := Offline.pollRead_reliable hnode hn .primary
  have hreading : start k t c = pollReading k t .primary c.takeFlight := by
    rw [start_of_free hfree, hkept, hload]
    rfl
  have hpoll : k.monitor.pollRead k.node .primary c.takeFlight.outside = _ := hk ▸ hread
  refine ⟨source, slot, ?_⟩
  rw [hreading, pollReading, hpoll]
  rfl

theorem weigh_of_low (hcool : c.coolingDown t.now = false)
    (hlow : ¬k.policy.threshold ≤ balance) :
    weigh k t balance c = pollDepositing k t balance (.ofRandom t.random) t.now
      (c.note t.now (.asked (k.requestAt (.ofRandom t.random)))) := by
  have hgo : ¬c.coolingDown t.now = true := by simp [hcool]
  rw [weigh, if_neg hgo, if_neg hlow]
  rfl

end Tick

/-! ## The scenario -/

/-- A reserve that is low, with a node that answers, a bridge that takes deposits and tells the node
of them, and a disk on which no record is kept and to which records can be written. -/
structure LowReserve where
  monitor : Monitor
  path : String
  policy : TopupPolicy
  node : SimulatedNode
  bridge : SimulatedBridge
  disk : Disk
  reliable : node.Reliable monitor.fallback
  pending_eq : node.pending = []
  low : node.balance < policy.threshold
  amount_pos : 0 < policy.amount
  linked : bridge.linked = true
  failNext_eq : bridge.failNext = 0
  /-- The bridge counts readings in 32 bits. -/
  creditAfter_lt : bridge.creditAfter < UInt32.size
  load_eq : StateFile.load path disk = .ok none
  save_ok : ∀ r, (StateFile.save path r disk).1 = .ok ()

namespace LowReserve

variable (s : LowReserve) (secret : ClaimSecret)

/-- What the controller is given. -/
def charter : Charter Offline Disk :=
  ⟨Offline.nodeLink, Offline.bridgeLink, StateFile.store s.path, s.monitor, s.policy⟩

/-- The controller when it starts. -/
def controller (staleAfter : Nat) : Controller Offline Disk :=
  .initial staleAfter ⟨.simulated s.node, .simulated s.bridge⟩ s.disk

/-- The deposit on its way. -/
def delivery : Delivery :=
  ⟨s.node.balance, s.policy.amount, s.bridge.creditAfter,
    Bridge.messageHash (s.charter.requestAt secret) s.bridge.nextLeaf, s.bridge.readyAfter⟩

/-- What the bridge answers. -/
def receipt : Bridge.DepositReceipt :=
  ⟨(s.delivery secret).message, s.bridge.nextLeaf,
    some (Bridge.transactionOf (s.delivery secret).message)⟩

/-- The record of the deposit. -/
def record (t : Moment) : BridgeRecord :=
  (s.charter.depositOf t s.node.balance secret (s.receipt secret)).record

/-- The bridge after the deposit. -/
def bridgeAfter : SimulatedBridge :=
  { s.bridge with
    nextLeaf := s.bridge.nextLeaf + 1
    deposits := s.bridge.deposits ++ [s.charter.requestAt secret] }

/-- The node after the bridge has told it of the deposit. -/
def told (n : SimulatedNode) : SimulatedNode :=
  (n.schedule s.policy.amount s.bridge.creditAfter).register (s.delivery secret).message
    s.bridge.readyAfter

/-- How long the bridge takes to answer. -/
def latency : Nat := s.bridge.latency.getD 0

/-- The secret that a tick draws at its first look. -/
def drawn (e : Nat → Moment) : ClaimSecret := .ofRandom (e 0).random

theorem base_lt_total : (s.delivery secret).base < (s.delivery secret).total := by
  have hlow : s.node.balance.toNat < s.policy.threshold.toNat := s.low
  have hthreshold := s.policy.threshold.isLt
  have hamount : 0 < s.policy.amount.toNat := s.amount_pos
  have hmax : Amount.max.toNat = 2 ^ 128 - 1 := by decide
  have htotal := (s.delivery secret).toNat_total
  show (s.delivery secret).base.toNat < (s.delivery secret).total.toNat
  rw [htotal, hmax]
  simp only [delivery]
  omega

/-- The looks up to the one that finds the deposit can be counted in 32 bits. -/
theorem look_le_maxCount :
    min (max s.bridge.creditAfter 1 - 1) s.bridge.readyAfter + 1 ≤ maxCount := by
  have hlt := s.creditAfter_lt
  have hsize : UInt32.size = 4294967296 := rfl
  have hmax : maxCount = 4294967295 := rfl
  omega

/-! ## The tick up to its wait -/

/-- The bridge has been asked and has not answered. -/
structure Asks (c : Controller Offline Disk) : Prop where
  exists_node : ∃ n, c.outside = ⟨.simulated n, .simulated s.bridge⟩ ∧
    n.Reliable s.monitor.fallback ∧ n.balance = s.node.balance ∧ n.pending = []
  store_eq : c.store = s.disk

/-- The bridge has taken the deposit: the node knows of it, and its record is in the file. -/
structure Takes (t : Moment) (c : Controller Offline Disk) : Prop where
  knows : c.outside.Knows s.monitor (s.delivery secret) (.simulated (s.bridgeAfter secret)) 0 0
  save_eq : StateFile.save s.path (s.record secret t) s.disk = (.ok (), c.store)

variable {s secret} {t : Moment} {c : Controller Offline Disk} {since : Nat}

/-- The first look at the tick reads the balance and asks the bridge. -/
theorem start_asks (s : LowReserve) (t : Moment) (staleAfter : Nat) : ∃ c, s.Asks c ∧
    Tick.start s.charter t (s.controller staleAfter) =
      Tick.pollDepositing s.charter t s.node.balance (.ofRandom t.random) t.now c := by
  have hload : s.charter.store.load (s.controller staleAfter).store =
      (.ok none, (s.controller staleAfter).store) := Prod.ext s.load_eq rfl
  obtain ⟨source, slot, hweigh⟩ := Tick.start_weighs (t := t) rfl rfl rfl hload rfl s.reliable
  have hn := s.reliable.nextBalance.setSlot slot
  have hlow : ¬s.policy.threshold ≤ s.node.balance := BitVec.not_le.mpr s.low
  rw [SimulatedNode.nextBalance_of_nil s.reliable.scripted_eq s.pending_eq] at hweigh hn
  -- No deposit was seen to arrive yet, so nothing cools down.
  rw [Tick.weigh_of_low rfl hlow] at hweigh
  exact ⟨_, ⟨⟨_, rfl, hn, rfl, s.pending_eq⟩, rfl⟩, hweigh⟩

theorem pollDepositing_early (hc : s.Asks c) (h : t.now < since + s.latency) :
    Tick.pollDepositing s.charter t s.node.balance secret since c =
      (.pending (.depositing s.node.balance secret since), c) := by
  obtain ⟨n, hout, -⟩ := hc.exists_node
  have hearly : t.now < c.outside.answerTime since := by
    rw [hout]
    exact h
  exact Tick.pollDepositing_of_none (if_pos hearly)

theorem deposit_eq (s : LowReserve) (secret : ClaimSecret) (n : SimulatedNode) :
    s.bridge.deposit (s.charter.requestAt secret) (.simulated n) =
      (.ok (s.receipt secret), s.bridgeAfter secret, .simulated (s.told secret n)) := by
  have hworks : ¬0 < s.bridge.failNext := by
    rw [s.failNext_eq]
    exact Nat.lt_irrefl 0
  rw [SimulatedBridge.deposit, if_neg hworks]
  exact Prod.ext rfl (Prod.ext rfl (if_pos s.linked))

theorem knows_told {n : SimulatedNode} (hn : n.Reliable s.monitor.fallback)
    (hbalance : n.balance = s.node.balance) (hpending : n.pending = []) :
    Offline.Knows s.monitor (s.delivery secret) (.simulated (s.bridgeAfter secret)) 0 0
      ⟨.simulated (s.told secret n), .simulated (s.bridgeAfter secret)⟩ := by
  have hscheduled : (s.told secret n).pending = [⟨s.policy.amount, s.bridge.creditAfter⟩] := by
    show n.pending ++ [_] = _
    rw [hpending, List.nil_append]
  have hreliable : (s.told secret n).Reliable s.monitor.fallback :=
    ⟨hn.scripted_eq, hn.failingReads_eq, hn.checksFail_eq, hn.readable⟩
  have hknown : (s.delivery secret).Known 0 0 (s.told secret n) := by
    constructor
    · intro hle
      exact ⟨hbalance, hscheduled⟩
    · intro hlt
      exact absurd hlt (Nat.not_lt_zero _)
    · exact SimulatedNode.lookup_register _ _ _
  exact ⟨⟨_, rfl, hreliable, hknown⟩, rfl⟩

/-- Once the bridge answers, the record of the deposit is written and the wait for it begins. -/
theorem pollDepositing_due (secret : ClaimSecret) (hc : s.Asks c) (h : since + s.latency ≤ t.now) :
    ∃ c', s.Takes secret t c' ∧ Tick.pollDepositing s.charter t s.node.balance secret since c =
      Tick.pollBridging s.charter t (s.record secret t)
        (.start s.policy.wait (s.delivery secret).target t.now) c' := by
  obtain ⟨n, hout, hn, hbalance, hpending⟩ := hc.exists_node
  have hdue : ¬t.now < c.outside.answerTime since := by
    rw [hout]
    exact Nat.not_lt.mpr h
  have htaken : s.charter.bridge.deposit (s.charter.requestAt secret) since t.now c.outside =
      (some (.ok (s.receipt secret)),
        ⟨.simulated (s.told secret n), .simulated (s.bridgeAfter secret)⟩) := by
    refine (if_neg hdue).trans ?_
    rw [hout]
    simp only [s.deposit_eq]
  refine ⟨_, ⟨?_, ?_⟩, Tick.pollDepositing_of_ok htaken⟩
  · rw [Tick.accept, Controller.persist_eq]
    exact knows_told hn hbalance hpending
  · have hsave := s.save_ok (s.record secret t)
    rw [Tick.accept, Controller.persist_eq]
    rw [← hc.store_eq] at hsave ⊢
    exact Prod.ext hsave rfl

/-! ## The whole tick -/

variable {e : Nat → Moment} {staleAfter n : Nat}

/-- While the bridge is silent, each look at the tick asks for its answer once more. -/
theorem run_asks (s : LowReserve) (e : Nat → Moment) (staleAfter : Nat)
    (h : ∀ j < n, (e j).now < (e 0).now + s.latency) : ∃ c, s.Asks c ∧
      Tick.run s.charter e (s.controller staleAfter) (n + 1) = Tick.begun
        (Tick.pollDepositing s.charter (e n) s.node.balance (drawn e) (e 0).now c) := by
  induction n with
  | zero =>
    obtain ⟨c, hc, hstart⟩ := s.start_asks (e 0) staleAfter
    have hzero : Tick.run s.charter e (s.controller staleAfter) 0 =
        (.pending none, s.controller staleAfter) := rfl
    refine ⟨c, hc, ?_⟩
    rw [drawn, ← hstart]
    exact Tick.run_succ hzero
  | succ n ih =>
    obtain ⟨c, hc, hrun⟩ := ih fun j hj => h j (Nat.lt_succ_of_lt hj)
    rw [pollDepositing_early hc (h n (Nat.lt_succ_self n))] at hrun
    exact ⟨c, hc, Tick.run_succ hrun⟩

/-- From the look at which the bridge answers, the looks at the tick are looks at its wait. -/
theorem run_takes (staleAfter : Nat) (hbefore : ∀ j < n, (e j).now < (e 0).now + s.latency)
    (hdue : (e 0).now + s.latency ≤ (e n).now) : ∃ c, s.Takes (drawn e) (e n) c ∧
      ∀ i, Tick.run s.charter e (s.controller staleAfter) (n + 1 + i) =
        Tick.bridged (s.record (drawn e) (e n)) (s.charter.runWait (fun i => e (n + i))
          (s.record (drawn e) (e n))
          (.start s.policy.wait (s.delivery (drawn e)).target (e n).now) c (i + 1)) := by
  obtain ⟨c, hc, hrun⟩ := s.run_asks e staleAfter hbefore
  obtain ⟨c', hc', hpoll⟩ := pollDepositing_due (drawn e) hc hdue
  rw [hpoll, Tick.pollBridging_eq] at hrun
  exact ⟨c', hc', Tick.run_bridging hrun⟩

/-- A tick that is looked at in time is looked at when the bridge answers. -/
theorem exists_due (hp : Tick.Prompt s.charter (s.controller staleAfter) e) : ∃ n,
    (∀ j < n, (e j).now < (e 0).now + s.latency) ∧ (e n).now = (e 0).now + s.latency := by
  have hex : ∃ n, (e 0).now + s.latency ≤ (e n).now := hp.unbounded _
  have hbefore : ∀ j < Nat.find hex, (e j).now < (e 0).now + s.latency := by
    intro j hj
    exact Nat.not_le.mp (Nat.find_min hex hj)
  refine ⟨Nat.find hex, hbefore, Nat.le_antisymm ?_ (Nat.find_spec hex)⟩
  cases hn : Nat.find hex with
  | zero => exact Nat.le_add_right _ _
  | succ n =>
    rw [hn] at hbefore
    obtain ⟨c, hc, hrun⟩ := s.run_asks e staleAfter fun j hj => hbefore j (Nat.lt_succ_of_lt hj)
    rw [pollDepositing_early hc (hbefore n (Nat.lt_succ_self n))] at hrun
    have hwake := hp.prompt (n + 1) _ _ hrun
    obtain ⟨m, hout, -⟩ := hc.exists_node
    simp only [Exercise.tickWakes, hout] at hwake
    exact hwake _ (List.mem_singleton_self _)

theorem unbroken_watch (s : LowReserve) (e : Nat → Moment) (r : BridgeRecord) (x : Wait)
    (c : Controller Offline Disk) : Wait.Unbroken (s.charter.watch e r x c) s.monitor x := by
  intro n y hy
  have hrun := s.charter.run_watch e r x c n
  rcases hwait : s.charter.runWait e r x c n with ⟨p, c'⟩
  rw [hwait] at hrun
  cases hy.symm.trans hrun
  simp only [Charter.watch, hwait, Charter.runWait_succ hwait]
  exact Charter.outside_pollWait (e n)

/-- The tick ends when its wait does. -/
theorem run_ends (hp : Tick.Prompt s.charter (s.controller staleAfter) e)
    (hcancel : ∀ n, (e n).cancelled = false) :
    ∃ count t c result outside view reads checks,
      s.Takes (drawn e) t c ∧
      Tick.run s.charter e (s.controller staleAfter) count = (.done (.bridged result),
        ({ c with outside, view }.settle s.charter.store s.policy.cooldown
          ((e 0).now + s.latency + result.elapsed) (s.record (drawn e) t)
          result).endFlight) ∧
      (s.delivery (drawn e)).Outcome s.policy.wait result ∧
      outside.Knows s.monitor (s.delivery (drawn e)) (.simulated (s.bridgeAfter (drawn e)))
        reads checks := by
  obtain ⟨n, hbefore, hnow⟩ := exists_due hp
  obtain ⟨c, hc, hrun⟩ := run_takes staleAfter hbefore (Nat.le_of_eq hnow.symm)
  obtain ⟨k, y, result, reads, checks, hy, hdone, hend, houtcome, hknows⟩ :=
    Wait.run_delivery (s.base_lt_total _) (hp.watch hrun) (fun i => hcancel (n + i))
      (s.unbroken_watch _ _ _ c) hc.knows
  have hlink : Offline.nodeLink = s.charter.node := rfl
  rw [hlink, Charter.run_watch] at hy hdone
  obtain ⟨outside, view, hwait⟩ := Charter.runWait_done hy hdone
  have htime : (e (n + k)).now = (e 0).now + s.latency + result.elapsed := by
    rw [← hnow]
    exact hend
  have htick := hrun k
  rw [hwait, htime] at htick
  simp only [Charter.watch, hwait, Controller.outside_settle] at hknows
  exact ⟨_, e n, c, result, outside, view, reads, checks, hc, htick, houtcome, hknows⟩

/-! ## Afterwards -/

/-- Begins a tick at each of some moments, one behind the other. -/
def startEach (s : LowReserve) : List Moment → Controller Offline Disk →
    List (Progress Tick TickOutcome) × Controller Offline Disk
  | [], c => ([], c)
  | t :: ts, c =>
    let (p, c) := Tick.start s.charter t c
    let (ps, c) := s.startEach ts c
    (p :: ps, c)

/-- Nothing is kept or in flight, and no deposit may be made before some time. -/
structure Rests (s : LowReserve) (time : Nat) (bridge : Bridge.OfflineBridge)
    (c : Controller Offline Disk) : Prop where
  free : c.inFlight = false
  kept : c.unpersisted = none
  load_eq : StateFile.load s.path c.store = .ok none
  cooldownUntil_eq : c.cooldownUntil = some time
  exists_node : ∃ n, c.outside.node = .simulated n ∧ n.Reliable s.monitor.fallback
  bridge_eq : c.outside.bridge = bridge

variable {time now reads checks : Nat} {bridge : Bridge.OfflineBridge} {outside : Offline}
  {view : OpsView} {result : WaitResult}

/-- A deposit that was seen to arrive is forgotten, and the cooldown begins. -/
theorem Takes.settle_confirmed (h : s.Takes secret t c) (hstatus : result.status = .confirmed)
    (hknows : outside.Knows s.monitor (s.delivery secret) bridge reads checks) (now : Nat)
    (view : OpsView) :
    s.Rests (now + s.policy.cooldown) bridge ({ c with outside, view }.settle s.charter.store
      s.policy.cooldown now (s.record secret t) result).endFlight := by
  have hclear : (StateFile.clear s.path c.store).1 = .ok () := StateFile.clear_of_save h.save_eq
  obtain ⟨n, hnode, hn, -⟩ := hknows.exists_node
  rw [Controller.settle_confirmed _ _ _ _ hstatus]
  exact ⟨rfl, rfl, StateFile.load_of_clear (Prod.ext hclear rfl), rfl, ⟨n, hnode, hn⟩,
    hknows.bridge_eq⟩

/-- A deposit that was not seen to arrive is still in the file. -/
theorem Takes.settle_of_ne (h : s.Takes secret t c) (hstatus : result.status ≠ .confirmed) :
    StateFile.load s.path ({ c with outside, view }.settle s.charter.store s.policy.cooldown now
      (s.record secret t) result).endFlight.store = .ok (some (s.record secret t)) := by
  rw [Controller.settle_of_ne _ _ _ _ hstatus]
  exact StateFile.load_of_save h.save_eq

/-- A tick before the cooldown is over reads the balance and does nothing else. -/
theorem Rests.start (h : s.Rests time bridge c) (ht : t.now < time) :
    (∃ balance, (Tick.start s.charter t c).1 = .done (.coolingDown balance)) ∧
      s.Rests time bridge (Tick.start s.charter t c).2 := by
  obtain ⟨n, hnode, hn⟩ := h.exists_node
  have hload : s.charter.store.load c.store = (.ok none, c.store) := Prod.ext h.load_eq rfl
  obtain ⟨source, slot, hweigh⟩ := Tick.start_weighs (t := t) rfl h.free h.kept hload hnode hn
  have hcool : ∀ outside reading,
      (c.takeFlight.afterReading t outside reading).coolingDown t.now = true := by
    intro outside reading
    have huntil : (c.takeFlight.afterReading t outside reading).cooldownUntil = some time :=
      h.cooldownUntil_eq
    rw [Controller.coolingDown, huntil]
    exact decide_eq_true ht
  have hreliable := hn.nextBalance.setSlot slot
  rw [hweigh, Tick.weigh, if_pos (hcool _ _)]
  constructor
  · exact ⟨_, rfl⟩
  · exact ⟨rfl, h.kept, h.load_eq, h.cooldownUntil_eq, ⟨_, rfl, hreliable⟩, h.bridge_eq⟩

theorem Rests.startEach {ts : List Moment} (h : s.Rests time bridge c)
    (hts : ∀ t ∈ ts, t.now < time) :
    (∀ o ∈ (s.startEach ts c).1, ∃ balance, o = .done (.coolingDown balance)) ∧
      s.Rests time bridge (s.startEach ts c).2 := by
  induction ts generalizing c with
  | nil =>
    refine ⟨?_, h⟩
    intro o ho
    cases ho
  | cons t ts ih =>
    obtain ⟨hcools, hrests⟩ := h.start (hts t List.mem_cons_self)
    obtain ⟨hrest, hend⟩ := ih hrests fun t' ht' => hts t' (List.mem_cons_of_mem t ht')
    refine ⟨?_, hend⟩
    intro o ho
    rcases List.mem_cons.mp ho with rfl | ho
    · exact hcools
    · exact hrest o ho

/-! ## The top-up -/

/-- Looks in every millisecond miss nothing. -/
theorem prompt_of_every (s : LowReserve) (staleAfter : Nat)
    (hnow : ∀ n, (e n).now = (e 0).now + n) :
    Tick.Prompt s.charter (s.controller staleAfter) e where
  mono n := by
    rw [hnow n, hnow (n + 1)]
    omega
  prompt n tick c hrun wake hwake := by
    have hbefore : ∀ j < s.latency, (e j).now < (e 0).now + s.latency := by
      intro j hj
      rw [hnow j]
      omega
    cases n with
    | zero => cases hrun
    | succ n =>
      rcases Nat.lt_or_ge n s.latency with hlt | hge
      -- The bridge has not answered yet.
      · obtain ⟨c', hc', hasks⟩ := s.run_asks e staleAfter fun j hj => hbefore j (hj.trans hlt)
        rw [pollDepositing_early hc' (hbefore n hlt)] at hasks
        cases hrun.symm.trans hasks
        obtain ⟨m, hout, -⟩ := hc'.exists_node
        simp only [Exercise.tickWakes, hout, List.mem_singleton] at hwake
        have hanswer : wake = (e 0).now + s.latency := hwake
        rw [hnow (n + 1), hanswer]
        omega
      -- The deposit is waited for.
      · obtain ⟨i, rfl⟩ := Nat.exists_eq_add_of_le hge
        obtain ⟨c', hc', hwaits⟩ := run_takes staleAfter hbefore (Nat.le_of_eq (hnow _).symm)
        rw [Nat.add_right_comm, hwaits i] at hrun
        obtain ⟨y, hy, rfl⟩ := Tick.exists_of_bridged_pending hrun
        rw [← Charter.run_watch] at hy
        have hevery : ∀ j, (e (s.latency + j)).now = (e s.latency).now + j := by
          intro j
          rw [hnow (s.latency + j), hnow s.latency, Nat.add_assoc]
        exact (Wait.prompt_of_every Offline.immediate_nodeLink hevery).prompt (i + 1) y hy wake
          hwake
  unbounded T := by
    refine ⟨T, ?_⟩
    rw [hnow T]
    exact Nat.le_add_left _ _

/-- A reserve of 5 that is to be topped up by 50; the third reading finds the credit. -/
def threeReadings (timeout : Nat) : LowReserve where
  monitor := Wait.quickMonitor
  path := "bridge.json"
  policy := ⟨100, 50, 1000, 200, ⟨2, 4, timeout⟩⟩
  node := { balance := 5, feeJuice := ⟨1⟩ }
  bridge := { linked := true, creditAfter := 3, readyAfter := 5, latency := some 7 }
  disk := .empty
  reliable := ⟨rfl, rfl, rfl, .inl rfl⟩
  pending_eq := rfl
  low := show (5 : Amount) < 100 by decide
  amount_pos := show (0 : Amount) < 50 by decide
  linked := rfl
  failNext_eq := rfl
  creditAfter_lt := by decide
  load_eq := rfl
  save_ok _ := rfl

/-- Looks in every millisecond. -/
def everyMillisecond (n : Nat) : Moment := ⟨n, 0, false, 0⟩

/-- A tick that finds the reserve low, looked at in time and not cancelled, makes one deposit and
waits for it. Two counts decide how the wait ends: look `i` is the first to read the credit, and
look `readyAfter` the first to find the message ready. If the earlier of the two lies within the
time, the deposit is confirmed there, its record is gone, and until the cooldown is over every tick
reads the balance and makes no deposit; otherwise the wait runs out of time and the record is
kept. -/
theorem run_topUp (s : LowReserve) (hp : Tick.Prompt s.charter (s.controller staleAfter) e)
    (hcancel : ∀ n, (e n).cancelled = false) :
    let i := max s.bridge.creditAfter 1 - 1
    let k := min i s.bridge.readyAfter
    let elapsed := s.policy.wait.lookAt k
    ∃ count result c,
      Tick.run s.charter e (s.controller staleAfter) count = (.done (.bridged result), c) ∧
      c.outside.bridge.deposits = s.bridge.deposits ++ [s.charter.requestAt (drawn e)] ∧
      (elapsed < s.policy.wait.timeout →
        result.status = .confirmed ∧ result.elapsed = elapsed ∧ result.attempts = k + 1 ∧
        (i ≤ s.bridge.readyAfter → result.confirmedBy = some .balanceDelta ∧
          result.delta.toNat =
            min s.policy.amount.toNat (2 ^ 128 - 1 - s.node.balance.toNat)) ∧
        (s.bridge.readyAfter < i → result.confirmedBy = some .messageReady ∧ result.delta = 0) ∧
        StateFile.load s.path c.store = .ok none ∧
        ∀ ts, (∀ t ∈ ts, t.now < (e 0).now + s.latency + elapsed + s.policy.cooldown) →
          (∀ o ∈ (s.startEach ts c).1, ∃ balance, o = .done (.coolingDown balance)) ∧
          (s.startEach ts c).2.outside.bridge.deposits =
            s.bridge.deposits ++ [s.charter.requestAt (drawn e)]) ∧
      (s.policy.wait.timeout ≤ elapsed → result.status = .timeout ∧
        ∃ r, StateFile.load s.path c.store = .ok (some r) ∧ r.baseline = s.node.balance ∧
          r.amount = s.policy.amount) := by
  intro i k elapsed
  obtain ⟨count, t, c, result, outside, view, reads, checks, hc, hrun, houtcome, hknows⟩ :=
    run_ends hp hcancel
  refine ⟨count, result, _, hrun, ?_, ?_, ?_⟩
  · rw [Controller.outside_endFlight, Controller.outside_settle, hknows.bridge_eq]
    rfl
  · intro hin
    obtain ⟨hstatus, helapsed, hattempts, hdelta, hready⟩ := houtcome.confirmed hin
    have hcount : result.attempts = k + 1 := hattempts.trans (Nat.min_eq_left s.look_le_maxCount)
    have hrests := hc.settle_confirmed hstatus hknows ((e 0).now + s.latency + result.elapsed) view
    refine ⟨hstatus, helapsed, hcount, hdelta, hready, hrests.load_eq, ?_⟩
    intro ts hts
    have hbefore : ∀ t ∈ ts,
        t.now < (e 0).now + s.latency + result.elapsed + s.policy.cooldown := by
      rw [helapsed]
      exact hts
    obtain ⟨hcools, hend⟩ := hrests.startEach hbefore
    refine ⟨hcools, ?_⟩
    rw [hend.bridge_eq]
    rfl
  · intro hout
    have hstatus := houtcome.timeout hout
    have hne : result.status ≠ .confirmed := by
      rw [hstatus]
      decide
    exact ⟨hstatus, _, hc.settle_of_ne hne, rfl, rfl⟩

/-- The third look is made after 6 milliseconds. It confirms the deposit if there is time for it. -/
theorem run_topUp_threeReadings :
    (∃ count result c, Tick.run (threeReadings 100).charter everyMillisecond
        ((threeReadings 100).controller 0) count = (.done (.bridged result), c) ∧
      result.status = .confirmed ∧ result.elapsed = 6 ∧ result.attempts = 3 ∧
      result.confirmedBy = some .balanceDelta ∧ result.delta.toNat = 50 ∧
      StateFile.load "bridge.json" c.store = .ok none) ∧
    ∃ count result c, Tick.run (threeReadings 6).charter everyMillisecond
        ((threeReadings 6).controller 0) count = (.done (.bridged result), c) ∧
      result.status = .timeout ∧ ∃ r, StateFile.load "bridge.json" c.store = .ok (some r) ∧
        r.baseline = 5 ∧ r.amount = 50 := by
  have hprompt : ∀ timeout, Tick.Prompt (threeReadings timeout).charter
      ((threeReadings timeout).controller 0) everyMillisecond := fun timeout =>
    (threeReadings timeout).prompt_of_every 0 fun n => (Nat.zero_add n).symm
  constructor
  · obtain ⟨count, result, c, hrun, -, hconfirmed, -⟩ :=
      run_topUp (threeReadings 100) (hprompt 100) fun _ => rfl
    obtain ⟨hstatus, helapsed, hattempts, hdelta, -, hload, -⟩ := hconfirmed (by decide)
    obtain ⟨hsignal, hamount⟩ := hdelta (by decide)
    exact ⟨count, result, c, hrun, hstatus, helapsed, hattempts, hsignal, hamount, hload⟩
  · obtain ⟨count, result, c, hrun, -, -, htimeout⟩ :=
      run_topUp (threeReadings 6) (hprompt 6) fun _ => rfl
    obtain ⟨hstatus, r, hload, hbaseline, hamount⟩ := htimeout (by decide)
    exact ⟨count, result, c, hrun, hstatus, r, hload, hbaseline, hamount⟩

end LowReserve
end Paymaster.Reserve

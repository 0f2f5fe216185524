import Paymaster.Proofs.Reserve.WaitCoherence
import Paymaster.Proofs.Reserve.WaitOutcome
import Paymaster.Reserve.Offline
/-!
# Deposits on their way to a simulated node

A simulated node counts down twice for a deposit: the credit lands with one of the readings of the
balance, and the message is ready at one of the checks. The two counts begin differently. A credit
that is to land after one reading lands with the first, as does one that is to land at once; a
message that is to be ready after one check is ready at the second.

While a wait looks at such a node, the node has been read and checked exactly as often as the wait
has read and checked. So the replies that the wait gets are known in advance.
-/

namespace Paymaster

open Rollup (OfflineNode PendingCredit SimulatedNode)

namespace Rollup.SimulatedNode

/-- The node answers each question about balances and messages, and nothing is scripted. -/
structure Reliable (fallback : Bool) (n : SimulatedNode) : Prop where
  scripted_eq : n.scripted = []
  failingReads_eq : n.failingReads = 0
  checksFail_eq : n.checksFail = false
  readable : n.primary = true ∨ fallback = true

/-- The node answers each reading of the balance, one way or the other. -/
structure Answers (fallback : Bool) (n : SimulatedNode) : Prop where
  failingReads_eq : n.failingReads = 0
  readable : n.primary = true ∨ fallback = true

variable {fallback : Bool} {n : SimulatedNode}

theorem Reliable.answers (h : n.Reliable fallback) : n.Answers fallback :=
  ⟨h.failingReads_eq, h.readable⟩

theorem Reliable.nextBalance (h : n.Reliable fallback) : n.nextBalance.2.Reliable fallback :=
  ⟨by simp [SimulatedNode.nextBalance, h.scripted_eq], h.failingReads_eq, h.checksFail_eq,
    h.readable⟩

theorem Reliable.setSlot (h : n.Reliable fallback) (slot : Option Word) :
    { n with lastSlot := slot }.Reliable fallback :=
  ⟨h.scripted_eq, h.failingReads_eq, h.checksFail_eq, h.readable⟩

/-- A single credit that is one reading away lands. -/
theorem dueCredits_singleton (amount : Amount) (left : Nat) : dueCredits [⟨amount, left⟩] =
    if left ≤ 1 then ([⟨amount, left - 1⟩], []) else ([], [⟨amount, left - 1⟩]) := by
  by_cases h : left ≤ 1
  · have hzero : left - 1 = 0 := by omega
    simp [dueCredits, h, hzero]
  · have hpos : left - 1 ≠ 0 := by omega
    simp [dueCredits, h, hpos]

theorem nextBalance_of_nil (hs : n.scripted = []) (hp : n.pending = []) :
    n.nextBalance = (n.balance, { n with scripted := [], reads := n.reads + 1 }) := by
  simp [SimulatedNode.nextBalance, dueCredits, hs, hp]

theorem nextBalance_of_singleton {amount : Amount} {left : Nat} (hs : n.scripted = [])
    (hp : n.pending = [⟨amount, left⟩]) : n.nextBalance =
      if left ≤ 1 then (n.balance.satAdd amount,
        { n with
          balance := n.balance.satAdd amount, scripted := [], pending := [], reads := n.reads + 1 })
      else (n.balance,
        { n with scripted := [], pending := [⟨amount, left - 1⟩], reads := n.reads + 1 }) := by
  rw [SimulatedNode.nextBalance, hs, hp, dueCredits_singleton]
  by_cases h : left ≤ 1
  · rw [if_pos h, if_pos h]
    rfl
  · rw [if_neg h, if_neg h]
    rfl

theorem messageReady_of_lookup {message : Word} {left : Nat} (hf : n.checksFail = false)
    (hl : n.messages.lookup message = some left) : n.messageReady message =
      if left = 0 then (.ok true, { n with checks := n.checks + 1 })
      else (.ok false, { n with checks := n.checks + 1 }.register message (left - 1)) := by
  rw [SimulatedNode.messageReady]
  cases left with
  | zero => simp only [hf, hl, Bool.false_eq_true, if_false, if_true]
  | succ left => simp only [hf, hl, Bool.false_eq_true, if_false, Nat.add_one_ne_zero,
      Nat.add_sub_cancel]

theorem Answers.storageAt_eq (h : n.Answers fallback) (slot : Word) : n.storageAt slot =
    (.ok (Word.ofAmount n.nextBalance.1), { n.nextBalance.2 with lastSlot := some slot }) := by
  have hgo : ¬0 < n.failingReads := by
    rw [h.failingReads_eq]
    exact Nat.lt_irrefl 0
  exact if_neg hgo

theorem Answers.publicBalance_eq (h : n.Answers fallback) : n.publicBalance =
    if n.primary then (.ok n.nextBalance.1, n.nextBalance.2)
    else (.error (.unsupported "mock primary read disabled"), n) := by
  have hgo : ¬0 < n.failingReads := by
    rw [h.failingReads_eq]
    exact Nat.lt_irrefl 0
  rw [SimulatedNode.publicBalance]
  cases n.primary with
  | true => exact if_neg hgo
  | false => rfl

theorem Reliable.messageReady (h : n.Reliable fallback) (message : Word) :
    (n.messageReady message).2.Reliable fallback := by
  rw [SimulatedNode.messageReady]
  simp only [h.checksFail_eq, Bool.false_eq_true, if_false]
  split <;> exact ⟨h.scripted_eq, h.failingReads_eq, rfl, h.readable⟩

theorem lookup_register (n : SimulatedNode) (message : Word) (checks : Nat) :
    (n.register message checks).messages.lookup message = some checks := by
  simp [register]

end Rollup.SimulatedNode

namespace Reserve

open Rollup (SimulatedNode)

/-! ## What a node knows of a deposit -/

/-- A deposit on its way: the balance without it, and when the node will know of it. -/
structure Delivery where
  base : Amount
  amount : Amount
  /-- Readings until the credit lands. -/
  creditAfter : Nat
  message : Word
  /-- Checks until the message is ready. -/
  readyAfter : Nat

namespace Delivery

/-- The reading that finds the credit, counted from zero. -/
def arrival (x : Delivery) : Nat := max x.creditAfter 1 - 1

/-- What a check answers. -/
def readyAt (x : Delivery) (s : Nat) : Except RollupError Bool := .ok (decide (x.readyAfter ≤ s))

/-- The balance with the deposit. -/
def total (x : Delivery) : Amount := x.base.satAdd x.amount

/-- The balance that a reading finds. -/
def balanceAt (x : Delivery) (q : Nat) : Amount := if q < x.arrival then x.base else x.total

theorem toNat_total (x : Delivery) :
    x.total.toNat = min (x.base.toNat + x.amount.toNat) Amount.max.toNat := by
  have hmax := Amount.max.isLt
  rw [total, Amount.satAdd, BitVec.toNat_ofNat]
  exact Nat.mod_eq_of_lt (Nat.lt_of_le_of_lt (Nat.min_le_right _ _) hmax)

/-- What is waited for. -/
def target (x : Delivery) : WaitTarget := ⟨x.base, some x.message⟩

/-- The node has been read and checked so often since it learned of the deposit. -/
structure Known (x : Delivery) (reads checks : Nat) (n : SimulatedNode) : Prop where
  before : reads ≤ x.arrival → n.balance = x.base ∧ n.pending = [⟨x.amount, x.creditAfter - reads⟩]
  behind : x.arrival < reads → n.balance = x.total ∧ n.pending = []
  message_eq : n.messages.lookup x.message = some (x.readyAfter - checks)

variable {x : Delivery} {reads checks : Nat} {n : SimulatedNode} {fallback : Bool}

/-- One more reading finds the balance that is due, and brings the credit nearer. -/
theorem Known.nextBalance (h : x.Known reads checks n) (hs : n.scripted = []) :
    n.nextBalance.1 = x.balanceAt reads ∧ x.Known (reads + 1) checks n.nextBalance.2 := by
  rcases Nat.lt_or_ge x.arrival reads with hbehind | hbefore
  · obtain ⟨hbalance, hpending⟩ := h.behind hbehind
    rw [SimulatedNode.nextBalance_of_nil hs hpending]
    refine ⟨?_, fun hle => ?_, fun _ => ⟨hbalance, hpending⟩, h.message_eq⟩
    · rw [balanceAt, if_neg (by omega)]
      exact hbalance
    · omega
  · obtain ⟨hbalance, hpending⟩ := h.before hbefore
    rw [SimulatedNode.nextBalance_of_singleton hs hpending]
    by_cases hlands : x.creditAfter - reads ≤ 1
    · have harrival : reads = x.arrival := by
        unfold arrival at hbefore ⊢
        omega
      rw [if_pos hlands, hbalance]
      refine ⟨?_, fun hle => ?_, fun _ => ⟨rfl, rfl⟩, h.message_eq⟩
      · rw [balanceAt, if_neg (by omega), total]
      · omega
    · have harrival : reads < x.arrival := by
        unfold arrival at hbefore ⊢
        omega
      rw [if_neg hlands]
      refine ⟨?_, fun _ => ⟨hbalance, ?_⟩, fun hlt => ?_, h.message_eq⟩
      · rw [balanceAt, if_pos harrival]
        exact hbalance
      · rw [Nat.sub_sub]
      · omega

/-- One more check finds the message ready if it is due, and brings it nearer if it is not. -/
theorem Known.messageReady (h : x.Known reads checks n) (hf : n.checksFail = false) :
    (n.messageReady x.message).1 = x.readyAt checks ∧
      x.Known reads (checks + 1) (n.messageReady x.message).2 := by
  rw [SimulatedNode.messageReady_of_lookup hf h.message_eq]
  by_cases hready : x.readyAfter ≤ checks
  · have hzero : x.readyAfter - checks = 0 := by omega
    have hnext : x.readyAfter - (checks + 1) = x.readyAfter - checks := by omega
    rw [if_pos hzero, readyAt, decide_eq_true hready]
    exact ⟨rfl, h.before, h.behind, hnext ▸ h.message_eq⟩
  · have hpos : x.readyAfter - checks ≠ 0 := by omega
    rw [if_neg hpos, readyAt, decide_eq_false hready]
    refine ⟨rfl, h.before, h.behind, ?_⟩
    rw [SimulatedNode.lookup_register, Nat.sub_sub]

end Delivery

/-! ## Questions to the node -/

namespace Offline

theorem immediate_nodeLink : nodeLink.Immediate :=
  ⟨fun _ _ _ => rfl, fun _ _ _ => rfl, fun _ _ => rfl⟩

variable {m : Monitor} {n : SimulatedNode} {w : Offline}

theorem pollStorage_answers (hw : w.node = .simulated n) (hn : n.Answers m.fallback)
    (cause : PrimaryCause) :
    m.pollStorage nodeLink cause w = (.done (.ok ⟨n.nextBalance.1, .fallback⟩),
      { w with node := .simulated { n.nextBalance.2 with lastSlot := some m.slot } }) := by
  have hstorage : nodeLink.storageAt m.feeJuice m.slot w =
      (some (.ok (Word.ofAmount n.nextBalance.1)),
        { w with node := .simulated { n.nextBalance.2 with lastSlot := some m.slot } }) := by
    simp only [nodeLink, hw, Rollup.OfflineNode.storageAt, hn.storageAt_eq]
  rw [Monitor.pollStorage, hstorage]
  simp [Monitor.readingOfStorage, amountInStorage, Word.toAmount?_ofAmount]

theorem publicBalance_simulated (hw : w.node = .simulated n) :
    nodeLink.publicBalance m.feeJuice m.facility w =
      (some n.publicBalance.1, { w with node := .simulated n.publicBalance.2 }) := by
  simp only [nodeLink, hw, Rollup.OfflineNode.publicBalance]

/-- The balance is read from the node if it can be asked, and from the storage otherwise. -/
theorem pollRead_answers (hw : w.node = .simulated n) (hn : n.Answers m.fallback) :
    m.pollRead nodeLink .primary w =
      (.done (.ok ⟨n.nextBalance.1, if n.primary then .primary else .fallback⟩),
        { w with node := .simulated { n.nextBalance.2 with
          lastSlot := if n.primary then n.lastSlot else some m.slot } }) := by
  have hpublic := publicBalance_simulated (m := m) hw
  rw [hn.publicBalance_eq] at hpublic
  rw [Monitor.pollRead]
  cases hp : n.primary with
  | true =>
    rw [hp, if_pos rfl] at hpublic
    rw [hpublic]
    rfl
  | false =>
    have hfallback : m.fallback = true := hn.readable.resolve_left (by simp [hp])
    have hself : { w with node := .simulated n } = w := by rw [← hw]
    rw [hp, if_neg (by simp), hself] at hpublic
    rw [hpublic]
    simp only [hfallback, if_true]
    exact pollStorage_answers hw hn _

/-- The balance is read, whichever way it can be read. -/
theorem pollRead_reliable (hw : w.node = .simulated n) (hn : n.Reliable m.fallback)
    (φ : ReadPhase) : ∃ source slot,
    m.pollRead nodeLink φ w = (.done (.ok ⟨n.nextBalance.1, source⟩),
      { w with node := .simulated { n.nextBalance.2 with lastSlot := slot } }) := by
  cases φ with
  | storage cause => exact ⟨_, _, pollStorage_answers hw hn.answers cause⟩
  | primary => exact ⟨_, _, pollRead_answers hw hn.answers⟩

/-- The node has been read and checked so often since it learned of a deposit; the bridge is as it
was. -/
structure Knows (m : Monitor) (x : Delivery) (bridge : Bridge.OfflineBridge) (reads checks : Nat)
    (w : Offline) : Prop where
  exists_node : ∃ n, w.node = .simulated n ∧ n.Reliable m.fallback ∧ x.Known reads checks n
  bridge_eq : w.bridge = bridge

variable {x : Delivery} {bridge : Bridge.OfflineBridge} {reads checks : Nat}

theorem Knows.pollRead (h : w.Knows m x bridge reads checks) (φ : ReadPhase) :
    ∃ source w', m.pollRead nodeLink φ w = (.done (.ok ⟨x.balanceAt reads, source⟩), w') ∧
      w'.Knows m x bridge (reads + 1) checks := by
  obtain ⟨n, hw, hn, hknown⟩ := h.exists_node
  obtain ⟨source, slot, hread⟩ := pollRead_reliable hw hn φ
  obtain ⟨hbalance, hknown'⟩ := hknown.nextBalance hn.scripted_eq
  have hknown'' : x.Known (reads + 1) checks { n.nextBalance.2 with lastSlot := slot } :=
    ⟨hknown'.before, hknown'.behind, hknown'.message_eq⟩
  rw [hbalance] at hread
  exact ⟨source, _, hread, ⟨_, rfl, hn.nextBalance.setSlot slot, hknown''⟩, h.bridge_eq⟩

theorem Knows.messageReady (h : w.Knows m x bridge reads checks) :
    ∃ w', nodeLink.messageReady x.message w = (some (x.readyAt checks), w') ∧
      w'.Knows m x bridge reads (checks + 1) := by
  obtain ⟨n, hw, hn, hknown⟩ := h.exists_node
  obtain ⟨hready, hknown'⟩ := hknown.messageReady hn.checksFail_eq
  refine ⟨{ w with node := .simulated (n.messageReady x.message).2 }, ?_,
    ⟨_, rfl, hn.messageReady x.message, hknown'⟩, h.bridge_eq⟩
  simp only [nodeLink, hw, Rollup.OfflineNode.messageReady]
  rw [hready]

end Offline

/-! ## A wait for the deposit -/

namespace Wait

open Offline (nodeLink)

variable {m : Monitor} {d : Delivery} {bridge : Bridge.OfflineBridge} {reads checks : Nat}
  {x : Wait} {w : Offline} {t : Moment} {v : OpsView}

theorem pollBalance_knows (h : w.Knows m d bridge reads checks) (hc : t.cancelled = false)
    (hd : t.now < x.deadline) :
    (∀ r, x.reading? m nodeLink t w = some r → ∃ source, r = .ok ⟨d.balanceAt reads, source⟩) ∧
      (x.pollBalance m nodeLink t w v).2.2.1.Knows m d bridge
        (reads + (x.reading? m nodeLink t w).toList.length) checks := by
  have hgo : ¬(t.cancelled = true ∨ x.deadline ≤ t.now) := by
    simp [hc]
    omega
  rw [reading?, if_neg hgo, pollBalance]
  cases hp : x.balance.rouse .primary t.now with
  | asking φ i =>
    obtain ⟨source, w', hread, hw'⟩ := h.pollRead φ
    simp only [hread]
    refine ⟨fun r hr => ⟨source, ?_⟩, hw'⟩
    cases hr
    rfl
  | sleeping | off => exact ⟨fun r hr => (by cases hr), h⟩

theorem pollMessage_knows (h : w.Knows m d bridge reads checks)
    (hm : x.target.message = some d.message) {a : Option (Except RollupError Bool)}
    (ha : a = match x.target.message, x.message.rouse () t.now with
      | some message, .asking () _ => (nodeLink.messageReady message w).1
      | _, _ => none) :
    (∀ r, a = some r → r = d.readyAt checks) ∧
      (x.pollMessage nodeLink t w).2.2.Knows m d bridge reads (checks + a.toList.length) := by
  rw [pollMessage]
  rw [hm] at ha ⊢
  cases hp : x.message.rouse () t.now with
  | asking φ i =>
    obtain ⟨w', hready, hw'⟩ := h.messageReady
    rw [hp] at ha
    simp only [hready] at ha ⊢
    subst ha
    refine ⟨fun r hr => ?_, hw'⟩
    cases hr
    rfl
  | sleeping | off =>
    rw [hp] at ha
    subst ha
    exact ⟨fun r hr => (by cases hr), h⟩

theorem BalanceLook.target_eq {ω : Type} {link : Rollup.NodeLink ω} {w : ω} {y : Wait}
    {a : Option (Except ReadError Reading)} (hb : BalanceLook m link t x w a y) :
    y.target = x.target := by
  cases hb <;> rfl

/-- A look reads and checks what is due, and the node knows of it. -/
theorem poll_knows (h : w.Knows m d bridge reads checks) (hm : x.target.message = some d.message) :
    (∀ r, x.reading? m nodeLink t w = some r → ∃ source, r = .ok ⟨d.balanceAt reads, source⟩) ∧
      (∀ r, x.check? m nodeLink t w v = some r → r = d.readyAt checks) ∧
      (x.poll m nodeLink t w v).2.1.Knows m d bridge
        (reads + (x.reading? m nodeLink t w).toList.length)
        (checks + (x.check? m nodeLink t w v).toList.length) := by
  by_cases hgo : t.cancelled = true ∨ x.deadline ≤ t.now
  · rw [reading?, if_pos hgo, check?, if_pos hgo]
    refine ⟨fun r hr => (by cases hr), fun r hr => (by cases hr), ?_⟩
    rw [poll]
    split_ifs with hc hd
    · exact h
    · exact h
    · exact absurd hgo (by simp [hc, hd])
  · obtain ⟨hc, hd⟩ : t.cancelled = false ∧ t.now < x.deadline := by simpa using hgo
    obtain ⟨hread, hw⟩ := pollBalance_knows (v := v) h hc hd
    have hlook : (x.pollBalance m nodeLink t w v).2.1.target = x.target :=
      (pollBalance_look hc hd).1.target_eq
    refine ⟨hread, ?_⟩
    rw [check?, if_neg hgo, poll, if_neg (by simp [hc]), if_neg (Nat.not_le_of_lt hd)]
    rcases hp : x.pollBalance m nodeLink t w v with ⟨up, y, w', v'⟩
    rw [hp] at hw hlook
    cases up with
    | true => exact ⟨fun r hr => (by cases hr), hw⟩
    | false =>
      obtain ⟨hcheck, hw'⟩ := pollMessage_knows (x := y) (t := t) hw (hlook ▸ hm) rfl
      refine ⟨hcheck, ?_⟩
      dsimp only at hw' ⊢
      rcases hq : y.pollMessage nodeLink t w' with ⟨ready, z, w''⟩
      rw [hq] at hw'
      cases ready <;> exact hw'

/-- Each look finds outside what the look before has left there. -/
def Unbroken (e : Watch Offline) (m : Monitor) (x : Wait) : Prop :=
  ∀ n y, run m nodeLink e x n = .pending y →
    e.outside (n + 1) = (y.poll m nodeLink (e.moment n) (e.outside n) (e.view n)).2.1

theorem getElem?_append_toList {α : Type} {l : List α} {o : Option α} {q : Nat} {r : α}
    (h : (l ++ o.toList)[q]? = some r) : l[q]? = some r ∨ q = l.length ∧ o = some r := by
  rcases Nat.lt_trichotomy q l.length with hlt | rfl | hgt
  · rw [List.getElem?_append_left hlt] at h
    exact .inl h
  · cases o with
    | none => simp at h
    | some a =>
      rw [Option.toList_some, List.getElem?_concat_length] at h
      exact .inr ⟨rfl, h⟩
  · have hlen : (l ++ o.toList).length ≤ q := by
      have := Option.length_toList_le (o := o)
      rw [List.length_append]
      omega
    rw [List.getElem?_eq_none hlen] at h
    cases h

/-- What a run has read and checked is what is due, and the node knows how much that is. -/
structure Follows (d : Delivery) (m : Monitor) (bridge : Bridge.OfflineBridge) (e : Watch Offline)
    (x : Wait) (n : Nat) : Prop where
  reading : ∀ (q : Nat) r, (readings m nodeLink e x n)[q]? = some r →
    ∃ source, r = .ok ⟨d.balanceAt q, source⟩
  check : ∀ (s : Nat) r, (Wait.checks m nodeLink e x n)[s]? = some r → r = d.readyAt s
  knows : (∀ k < n, ∃ y, run m nodeLink e x k = .pending y) →
    (e.outside n).Knows m d bridge (readings m nodeLink e x n).length
      (Wait.checks m nodeLink e x n).length

theorem run_follows {e : Watch Offline} (hu : Unbroken e m x) (hx : x.Quiet d.target [])
    (h₀ : (e.outside 0).Knows m d bridge 0 0) (n : Nat) : Follows d m bridge e x n := by
  induction n with
  | zero =>
    constructor
    · intro q r h
      simp [readings] at h
    · intro q r h
      simp [Wait.checks] at h
    · intro hpending
      exact h₀
  | succ n ih =>
    cases hrun : run m nodeLink e x n with
    | done r =>
      obtain ⟨-, hreadings, hchecks⟩ := run_succ_done hrun
      refine ⟨hreadings ▸ ih.reading, hchecks ▸ ih.check, fun hpending => ?_⟩
      obtain ⟨y, hy⟩ := hpending n (Nat.lt_succ_self n)
      rw [hrun] at hy
      cases hy
    | pending y =>
      have htarget : y.target = d.target := by
        have hquiet : (run m nodeLink e x n).Meets
            (fun z => z.Quiet d.target (readings m nodeLink e x n))
            (fun r => r.Coherent d.base (readings m nodeLink e x n)) := run_quiet hx n
        rw [hrun] at hquiet
        exact hquiet.target_eq
      have hknows := ih.knows fun k hk => exists_pending_of_le hrun (Nat.le_of_lt hk)
      obtain ⟨hread, hcheck, hnext⟩ := poll_knows (x := y) (t := e.moment n) (v := e.view n)
        hknows (by rw [htarget, Delivery.target])
      have hreadings : readings m nodeLink e x (n + 1) = readings m nodeLink e x n ++
          (y.reading? m nodeLink (e.moment n) (e.outside n)).toList := by rw [readings, hrun]
      have hchecks : Wait.checks m nodeLink e x (n + 1) = Wait.checks m nodeLink e x n ++
          (y.check? m nodeLink (e.moment n) (e.outside n) (e.view n)).toList := by
        rw [Wait.checks, hrun]
      constructor
      · intro q r hr
        rw [hreadings] at hr
        rcases getElem?_append_toList hr with hold | ⟨rfl, hnew⟩
        · exact ih.reading q r hold
        · exact hread r hnew
      · intro q r hr
        rw [hchecks] at hr
        rcases getElem?_append_toList hr with hold | ⟨rfl, hnew⟩
        · exact ih.check q r hold
        · exact hcheck r hnew
      · intro hpending
        rw [hu n y hrun, hreadings, hchecks, List.length_append, List.length_append]
        exact hnext

/-- The readings and the checks of such a run are those of two sequences that are known in
advance. -/
theorem exists_answers {e : Watch Offline} (hf : ∀ n, Follows d m bridge e x n) :
    ∃ b, (∀ q, ∃ source, b q = .ok ⟨d.balanceAt q, source⟩) ∧
      e.Answers m nodeLink x b d.readyAt := by
  classical
  obtain ⟨b, c, ha⟩ : ∃ b c, e.Answers m nodeLink x b c := e.exists_answers x
  -- Where the run never gets, the sequence of readings can go on as the deposit calls for.
  refine ⟨fun q => if ∃ n r, (readings m nodeLink e x n)[q]? = some r then b q
    else .ok ⟨d.balanceAt q, .primary⟩, ?_, ?_, ?_⟩
  · intro q
    by_cases hq : ∃ n r, (readings m nodeLink e x n)[q]? = some r
    · obtain ⟨n, r, hr⟩ := hq
      obtain ⟨source, hsource⟩ := (hf n).reading q r hr
      exact ⟨source, (if_pos ⟨n, r, hr⟩).trans ((ha.reading n q r hr).trans hsource)⟩
    · exact ⟨.primary, if_neg hq⟩
  · intro n q r hr
    exact (if_pos ⟨n, r, hr⟩).trans (ha.reading n q r hr)
  · intro n s r hr
    exact ((hf n).check s r hr).symm

end Wait

/-! ## The outcome -/

namespace Delivery

variable {x : Delivery} {b : Nat → Except ReadError Reading} {p : WaitPolicy} {r : WaitResult}

theorem rises_iff (hlt : x.base < x.total)
    (hb : ∀ q, ∃ source, b q = .ok ⟨x.balanceAt q, source⟩) (q : Nat) :
    x.target.Rises b q ↔ x.arrival ≤ q := by
  obtain ⟨source, hq⟩ := hb q
  rw [WaitTarget.Rises, hq, balanceAt]
  by_cases h : q < x.arrival
  · rw [if_pos h]
    simp [target, BitVec.lt_irrefl, h]
  · rw [if_neg h]
    simpa [target, hlt] using h

theorem firstIndex_rises (hlt : x.base < x.total)
    (hb : ∀ q, ∃ source, b q = .ok ⟨x.balanceAt q, source⟩) :
    firstIndex (x.target.Rises b) = x.arrival := by
  apply firstIndex_eq
  · exact (rises_iff hlt hb _).mpr (Nat.le_refl _)
  · intro q hq hrises
    have := (rises_iff hlt hb q).mp hrises
    omega

theorem firstIndex_ready (x : Delivery) :
    firstIndex (x.target.Ready x.readyAt) = x.readyAfter := by
  have hbefore : ∀ s < x.readyAfter, x.readyAt s = .ok false := by
    intro s hs
    rw [readyAt, decide_eq_false (Nat.not_le_of_lt hs)]
  apply firstIndex_eq
  · exact ⟨rfl, by simp [readyAt], hbefore⟩
  · rintro s hs ⟨-, hready, -⟩
    rw [hbefore s hs] at hready
    cases hready

/-- The look that finds the deposit. -/
def found (x : Delivery) : Nat := min x.arrival x.readyAfter

/-- The result of a wait for a deposit on its way. -/
structure Outcome (x : Delivery) (p : WaitPolicy) (r : WaitResult) : Prop where
  confirmed : p.lookAt x.found < p.timeout →
    r.status = .confirmed ∧ r.elapsed = p.lookAt x.found ∧
      r.attempts = min (x.found + 1) maxCount ∧
      (x.arrival ≤ x.readyAfter → r.confirmedBy = some .balanceDelta ∧
        r.delta.toNat = min x.amount.toNat (Amount.max.toNat - x.base.toNat)) ∧
      (x.readyAfter < x.arrival → r.confirmedBy = some .messageReady ∧ r.delta = 0)
  timeout : p.timeout ≤ p.lookAt x.found → r.status = .timeout

theorem outcome_of_onSchedule {rs : List (Except ReadError Reading)}
    (hs : r.OnSchedule p x.arrival x.readyAfter) (hc : r.Coherent x.base rs)
    (hmax : r.max = x.base ∨ r.max = x.total) : x.Outcome p r := by
  have hfound : min (x.arrival : ℕ∞) x.readyAfter = x.found := by
    rcases Nat.le_total x.arrival x.readyAfter with hle | hle
    · rw [found, Nat.min_eq_left hle, min_eq_left (Nat.cast_le.mpr hle)]
    · rw [found, Nat.min_eq_right hle, min_eq_right (Nat.cast_le.mpr hle)]
  constructor
  · intro ht
    obtain ⟨hstatus, helapsed, hattempts, hdelta, hready⟩ := hs.confirmed _ hfound ht
    refine ⟨hstatus, helapsed, hattempts, ?_, ?_⟩
    · intro hle
      have hsignal := hdelta (Nat.cast_le.mpr hle)
      have hpos := hc.balance_iff.mp hsignal
      have hrose : r.max = x.total := by
        rcases hmax with hbase | htotal
        · rw [WaitResult.delta_eq_zero (hbase.trans hc.baseline_eq.symm)] at hpos
          exact absurd hpos (BitVec.lt_irrefl 0)
        · exact htotal
      have hbound := x.base.isLt
      have hmaxnat : Amount.max.toNat = 2 ^ 128 - 1 := by decide
      refine ⟨hsignal, ?_⟩
      rw [hc.delta_eq, hc.baseline_eq, hrose, x.toNat_total]
      omega
    · intro hgt
      have hsignal := hready (Nat.cast_lt.mpr hgt)
      exact ⟨hsignal, hc.not_risen (hc.message_iff.mp hsignal)⟩
  · intro ht
    refine (hs.timeout fun k hk => ?_).1
    have hk' : k = x.found := Nat.cast_injective (hk.symm.trans hfound)
    rwa [hk']

end Delivery

namespace Wait

open Offline (nodeLink)

/-- The look that ends a wait tells how long it took. -/
theorem Look.elapsed_eq {ω : Type} {m : Monitor} {link : Rollup.NodeLink ω} {t : Moment} {x : Wait}
    {w : ω} {a : Option (Except ReadError Reading)} {b : Option (Except RollupError Bool)}
    {r : WaitResult} (h : Look m link t x w a b (.done r)) : r.elapsed = t.now - x.started := by
  have hbalance : ∀ {a y}, BalanceLook m link t x w a y → y.started = x.started := by
    intro a y hb
    cases hb <;> rfl
  have hmessage : ∀ {y w' b z}, MessageLook link t y w' b z → z.started = y.started := by
    intro y w' b z hm
    cases hm <;> rfl
  cases h with
  | aborted | timeout => rfl
  | rose hc hd hb hr => rw [← hbalance hb]; rfl
  | ready hc hd hb hr hm => rw [← hbalance hb, ← hmessage hm]; rfl

/-- A run that is not cancelled has a last look, at the time that the result tells. -/
theorem exists_last_look {ω : Type} {m : Monitor} {link : Rollup.NodeLink ω} {e : Watch ω}
    {p : WaitPolicy} {target : WaitTarget} {t₀ : Nat} {b : Nat → Except ReadError Reading}
    {c : Nat → Except RollupError Bool} (himm : link.Immediate)
    (hp : e.Prompt m link (start p target t₀)) (ha : e.Answers m link (start p target t₀) b c)
    (hc : ∀ n, (e.moment n).cancelled = false) :
    ∃ k y r, run m link e (start p target t₀) k = .pending y ∧
      run m link e (start p target t₀) (k + 1) = .done r ∧ (e.moment k).now = t₀ + r.elapsed ∧
      r.OnSchedule p (firstIndex (target.Rises b)) (firstIndex (target.Ready c)) := by
  obtain ⟨n, r, hr⟩ := exists_done himm hp ha hc
  obtain ⟨k, -, y, hy, hdone⟩ := (run_staysDone m link e _).exists_last_pending rfl hr
  have hin := run_tracks himm hp ha k fun i _ => hc i
  have htimely := run_tracks himm hp ha (k + 1) fun i _ => hc i
  rw [hy] at hin
  rw [hdone] at htimely
  obtain ⟨a, a', hlook, -⟩ := run_succ_look hy
  rw [hdone] at hlook
  have hstarted : y.started = t₀ := hin.tracks.started_eq
  have hle : t₀ ≤ (e.moment k).now := hin.started_le
  refine ⟨k, y, r, hy, hdone, ?_, htimely.2⟩
  rw [hlook.elapsed_eq, hstarted]
  omega

/-- A wait for a deposit that a simulated node knows of ends with the outcome that its two counts
call for. -/
theorem run_delivery {m : Monitor} {d : Delivery} {bridge : Bridge.OfflineBridge}
    {e : Watch Offline} {p : WaitPolicy} {t₀ : Nat} (hlt : d.base < d.total)
    (hp : e.Prompt m nodeLink (start p d.target t₀)) (hc : ∀ n, (e.moment n).cancelled = false)
    (hu : Unbroken e m (start p d.target t₀)) (h₀ : (e.outside 0).Knows m d bridge 0 0) :
    ∃ k y r reads checks, run m nodeLink e (start p d.target t₀) k = .pending y ∧
      run m nodeLink e (start p d.target t₀) (k + 1) = .done r ∧
      (e.moment k).now = t₀ + r.elapsed ∧ d.Outcome p r ∧
      (e.outside (k + 1)).Knows m d bridge reads checks := by
  have hfollows := run_follows hu (quiet_start p d.target t₀) h₀
  obtain ⟨b, hb, ha⟩ := exists_answers hfollows
  obtain ⟨k, y, r, hy, hdone, hend, hs⟩ := exists_last_look Offline.immediate_nodeLink hp ha hc
  rw [Delivery.firstIndex_rises hlt hb, d.firstIndex_ready] at hs
  refine ⟨k, y, r, _, _, hy, hdone, hend, ?_, (hfollows (k + 1)).knows fun i hi => ?_⟩
  · have hcoherent := @run_quiet _ m nodeLink _ _ e (quiet_start p d.target t₀) (k + 1)
    rw [hdone] at hcoherent
    refine Delivery.outcome_of_onSchedule hs hcoherent ?_
    have hmax : (run m nodeLink e (start p d.target t₀) (k + 1)).Meets _ _ :=
      run_sawMax (fun a h => (by cases h)) (k + 1)
    rw [hdone] at hmax
    rcases hmax with hbase | ⟨a, ha', hbalance⟩
    · exact .inl (hbase.trans hcoherent.baseline_eq)
    · obtain ⟨q, hq, hget⟩ := List.getElem_of_mem ha'
      obtain ⟨source, hsource⟩ := (hfollows (k + 1)).reading q _ (List.getElem?_eq_getElem hq)
      rw [hget] at hsource
      cases hsource
      rw [← hbalance]
      simp only [Delivery.balanceAt]
      split
      · exact .inl rfl
      · exact .inr rfl
  · exact exists_pending_of_le hy (Nat.lt_succ_iff.mp hi)

end Wait
end Reserve
end Paymaster

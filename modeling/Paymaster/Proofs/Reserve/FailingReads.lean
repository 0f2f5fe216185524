import Paymaster.Proofs.Reserve.Delivery
import Paymaster.Reserve.Rehearsal
/-!
# Readings that are made to fail

A simulated node can be told that its next readings fail. One reading of a monitor may ask such a
node twice, for the balance and for the storage, and only the question for the storage uses up a
failure. So with the fallback as many readings fail as the node was told, however the balance is
asked for. Without it the storage is never asked, and readings go on failing.

A reading that fails changes nothing but the failures that are left and the slot that was asked for
last, and nothing else that is done to a node sees these two. Two rehearsals are compared: in one
the node is told to fail, in the other the readings that fail are left out. Their nodes differ only
in these two, so from the first reading that does not fail both report the same.
-/

namespace Paymaster

namespace Rollup.SimulatedNode

variable {n : SimulatedNode} {fallback : Bool}

/-- The node with so many failures left and this slot asked for last. -/
def withFailures (n : SimulatedNode) (count : Nat) (slot : Option Word) : SimulatedNode :=
  { n with failingReads := count, lastSlot := slot }

theorem nextBalance_withFailures (n : SimulatedNode) (count : Nat) (slot : Option Word) :
    (n.withFailures count slot).nextBalance =
      (n.nextBalance.1, n.nextBalance.2.withFailures count slot) := rfl

theorem publicBalance_failing (h : 0 < n.failingReads) :
    ∃ why, n.publicBalance = (.error why, n) := by
  rw [publicBalance]
  cases n.primary with
  | true => exact ⟨_, if_pos h⟩
  | false => exact ⟨_, rfl⟩

theorem storageAt_failing (h : 0 < n.failingReads) (slot : Word) :
    ∃ why, n.storageAt slot = (.error why, n.withFailures (n.failingReads - 1) (some slot)) := by
  rw [storageAt]
  exact ⟨_, if_pos h⟩

/-- A change of a node that leaves the ways to the balance as they are, and neither sees nor touches
what a failing reading changes. -/
structure Spares (f : SimulatedNode → SimulatedNode) : Prop where
  primary_eq : ∀ n, (f n).primary = n.primary
  withFailures_eq : ∀ n count slot, f (n.withFailures count slot) = (f n).withFailures count slot

theorem Spares.failingReads_eq {f : SimulatedNode → SimulatedNode} (hf : Spares f)
    (n : SimulatedNode) : (f n).failingReads = n.failingReads := by
  have h : f n = (f n).withFailures n.failingReads n.lastSlot :=
    hf.withFailures_eq n n.failingReads n.lastSlot
  rw [h]
  rfl

theorem Spares.answers {f : SimulatedNode → SimulatedNode} (hf : Spares f)
    (hn : n.Answers fallback) : (f n).Answers fallback := by
  constructor
  · rw [hf.failingReads_eq n]
    exact hn.failingReads_eq
  · rw [hf.primary_eq n]
    exact hn.readable

theorem spares_messageReady (message : Word) : Spares fun n => (n.messageReady message).2 := by
  constructor
  · intro n
    rw [messageReady]
    split
    · rfl
    · split <;> rfl
  · intro n count slot
    rw [messageReady, messageReady]
    cases hc : n.checksFail with
    | true => simp [withFailures, hc]
    | false =>
      cases hl : n.messages.lookup message with
      | none => simp [withFailures, hc, hl]
      | some left => cases left <;> simp [withFailures, hc, hl, register]

end Rollup.SimulatedNode

namespace Reserve

open Rollup (SimulatedNode)

/-! ## Readings of a failing node -/

namespace Offline

variable {m : Monitor} {n : SimulatedNode} {w : Offline}

theorem publicBalance_failing (hw : w.node = .simulated n) (hn : 0 < n.failingReads) :
    ∃ why, nodeLink.publicBalance m.feeJuice m.facility w = (some (.error why), w) := by
  obtain ⟨why, hpublic⟩ := SimulatedNode.publicBalance_failing hn
  have hself : { w with node := .simulated n } = w := by rw [← hw]
  have hask := publicBalance_simulated (m := m) hw
  rw [hpublic, hself] at hask
  exact ⟨why, hask⟩

/-- With the fallback, a reading of a failing node fails and uses up one failure, whether or not the
node knows the question for the balance. -/
theorem pollRead_failing (hw : w.node = .simulated n) (hn : 0 < n.failingReads)
    (hf : m.fallback = true) : ∃ why, m.pollRead nodeLink .primary w = (.done (.error why),
      { w with node := .simulated (n.withFailures (n.failingReads - 1) (some m.slot)) }) := by
  obtain ⟨e, hask⟩ := publicBalance_failing (m := m) hw hn
  obtain ⟨e', hstorage⟩ := SimulatedNode.storageAt_failing hn m.slot
  have hread : nodeLink.storageAt m.feeJuice m.slot w = (some (.error e'),
      { w with node := .simulated (n.withFailures (n.failingReads - 1) (some m.slot)) }) := by
    simp only [nodeLink, hw, Rollup.OfflineNode.storageAt, hstorage]
  refine ⟨.both (.ofError e) (.ofError e'), ?_⟩
  rw [Monitor.pollRead, hask]
  simp only [hf, if_true, Monitor.pollStorage, hread, Monitor.readingOfStorage]

/-- Without the fallback, a reading of a failing node fails and leaves the node as it is. -/
theorem pollRead_refused (hw : w.node = .simulated n) (hn : 0 < n.failingReads)
    (hf : m.fallback = false) :
    ∃ why, m.pollRead nodeLink .primary w = (.done (.error why), w) := by
  obtain ⟨e, hask⟩ := publicBalance_failing (m := m) hw hn
  refine ⟨.primary (.ofError e), ?_⟩
  rw [Monitor.pollRead, hask]
  simp [hf]

end Offline

/-! ## What is done between readings -/

/-- What a setting does to a simulated node. -/
def Setting.onNode : Setting → SimulatedNode → SimulatedNode
  | .balance amount, n => { n with balance := amount }
  | .script amounts, n => n.script amounts
  | .failReads count, n => { n with failingReads := count }
  | .credit amount after, n => n.schedule amount after
  | .register message checks, n => n.register message checks
  | .failChecks fails, n => { n with checksFail := fails }
  | _, n => n

theorem Setting.spares_onNode {s : Setting} (hs : ∀ count, s ≠ .failReads count) :
    SimulatedNode.Spares s.onNode := by
  cases s with
  | failReads count => exact absurd rfl (hs count)
  | _ =>
    constructor
    · intro n
      rfl
    · intro n count slot
      rfl

/-- What is done in a rehearsal, one after the other, while readings fail or no longer fail. -/
inductive Beat where
  /-- The balance is read. -/
  | read
  /-- Something is set, but not how many readings fail. -/
  | set (s : Setting) (hs : ∀ count, s ≠ .failReads count)
  /-- The node is asked whether a message has arrived. -/
  | check (message : Word)

namespace Beat

/-- The beat is a reading. -/
def isRead : Beat → Bool
  | .read => true
  | _ => false

/-- The beats without the first so many readings. -/
def skipReads : Nat → List Beat → List Beat
  | 0, beats => beats
  | _ + 1, [] => []
  | k + 1, b :: rest => if b.isRead then skipReads k rest else b :: skipReads (k + 1) rest

/-- How many of the beats are readings. -/
def reads (beats : List Beat) : Nat := beats.countP isRead

variable {b : Beat} {rest : List Beat}

theorem eq_read (hb : b.isRead = true) : b = .read := by
  cases b with
  | read => rfl
  | set | check => cases hb

theorem skipReads_zero (beats : List Beat) : skipReads 0 beats = beats := by
  rw [skipReads]

theorem skipReads_nil (k : Nat) : skipReads k [] = [] := by
  cases k <;> rfl

theorem skipReads_cons (hb : b.isRead = false) (k : Nat) :
    skipReads k (b :: rest) = b :: skipReads k rest := by
  cases k with
  | zero => rw [skipReads_zero, skipReads_zero]
  | succ k => rw [skipReads, hb, if_neg Bool.false_ne_true]

theorem reads_cons (hb : b.isRead = false) : reads (b :: rest) = reads rest :=
  List.countP_cons_of_neg (by simp [hb])

theorem reads_cons_read : reads (.read :: rest) = reads rest + 1 :=
  List.countP_cons_of_pos rfl

end Beat

namespace Rehearsal

open Beat (reads skipReads)

/-- The rehearsal after a beat; a reading gives a report. -/
def beat (r : Rehearsal) : Beat → Option (Progress Exercise Report) × Rehearsal
  | .read =>
    let (x, r) := r.poll (.read .primary)
    (some x, r)
  | .set s _ => (none, (s.apply r).2)
  | .check message => (none, r.withOutside fun w => (Offline.nodeLink.messageReady message w).2)

/-- What the readings among some beats report, and the rehearsal after the beats. -/
def goThrough : List Beat → Rehearsal → List (Progress Exercise Report) × Rehearsal
  | [], r => ([], r)
  | b :: rest, r =>
    let (x, r) := r.beat b
    let (xs, r) := goThrough rest r
    (x.toList ++ xs, r)

/-- The rehearsal once so many readings have been made to fail. -/
def failing (r : Rehearsal) (count : Nat) : Rehearsal := ((Setting.failReads count).apply r).2

/-- A rehearsal of a charter, with a simulated node. -/
structure Watches (k : RehearsalCharter) (r : Rehearsal) (n : SimulatedNode) : Prop where
  charter_eq : r.charter = k
  node_eq : r.controller.outside.node = .simulated n

variable {k : RehearsalCharter} {r r' : Rehearsal} {n : SimulatedNode} {b : Beat}
  {rest : List Beat} {count lost left : Nat}

theorem goThrough_cons (r : Rehearsal) (b : Beat) (rest : List Beat) : r.goThrough (b :: rest) =
    ((r.beat b).1.toList ++ ((r.beat b).2.goThrough rest).1, ((r.beat b).2.goThrough rest).2) := rfl

theorem goThrough_of_none (h : (r.beat b).1 = none) :
    r.goThrough (b :: rest) = (r.beat b).2.goThrough rest := by
  rw [goThrough_cons, h]
  rfl

theorem goThrough_of_some {x : Progress Exercise Report} (h : (r.beat b).1 = some x) :
    r.goThrough (b :: rest) =
      (x :: ((r.beat b).2.goThrough rest).1, ((r.beat b).2.goThrough rest).2) := by
  rw [goThrough_cons, h]
  rfl

theorem Watches.withNode (h : Watches k r n) (f : SimulatedNode → SimulatedNode) :
    Watches k (r.withNode f) (f n) := by
  refine ⟨h.charter_eq, ?_⟩
  simp only [Rehearsal.withNode, withOutside, withController, h.node_eq]

theorem Watches.apply (h : Watches k r n) (s : Setting) :
    Watches k (s.apply r).2 (s.onNode n) := by
  cases s with
  | balance | script | failReads | credit | register | failChecks => exact h.withNode _
  | failDeposits | cancel | shutdown | wall | save => exact ⟨h.charter_eq, h.node_eq⟩
  | disk change =>
    rw [Setting.apply]
    split
    · exact ⟨h.charter_eq, h.node_eq⟩
    · exact h

theorem Watches.check (h : Watches k r n) (message : Word) :
    Watches k (r.beat (.check message)).2 (n.messageReady message).2 := by
  refine ⟨h.charter_eq, ?_⟩
  simp only [beat, withOutside, withController, Offline.nodeLink, h.node_eq,
    Rollup.OfflineNode.messageReady]

/-- Between readings the node changes in a way that has nothing to do with failures. -/
theorem exists_spares (k : RehearsalCharter) (hb : b.isRead = false) : ∃ f, SimulatedNode.Spares f ∧
    ∀ r n, Watches k r n → (r.beat b).1 = none ∧ Watches k (r.beat b).2 (f n) := by
  cases b with
  | read => cases hb
  | set s hs =>
    refine ⟨s.onNode, Setting.spares_onNode hs, ?_⟩
    intro r n h
    exact ⟨rfl, h.apply s⟩
  | check message =>
    refine ⟨_, SimulatedNode.spares_messageReady message, ?_⟩
    intro r n h
    exact ⟨rfl, h.check message⟩

theorem Watches.read {result : Except ReadError Reading} {w : Offline} (h : Watches k r n)
    (hk : k.node = Offline.nodeLink) (hpoll : k.monitor.pollRead Offline.nodeLink .primary
      r.controller.outside = (.done result, w)) :
    (r.beat .read).1 = some (.done (.read result)) ∧
      (r.beat .read).2.charter = k ∧ (r.beat .read).2.controller.outside = w := by
  obtain rfl := h.charter_eq
  rw [← hk] at hpoll
  simp only [beat, poll, Exercise.poll, hpoll, and_self]

/-! ## Readings that fail against readings that are left out -/

/-- Two rehearsals of one charter whose balances can be read; in the first one so many readings are
still to fail. -/
structure Differ (k : RehearsalCharter) (count : Nat) (r r' : Rehearsal) : Prop where
  exists_node : ∃ n slot, Watches k r' n ∧ Watches k r (n.withFailures count slot) ∧
    n.Answers k.monitor.fallback

theorem Differ.beat (h : Differ k count r r') (hb : b.isRead = false) :
    (r.beat b).1 = none ∧ (r'.beat b).1 = none ∧ Differ k count (r.beat b).2 (r'.beat b).2 := by
  obtain ⟨n, slot, hr', hr, hn⟩ := h.exists_node
  obtain ⟨f, hf, hbeat⟩ := exists_spares k hb
  obtain ⟨hnone, hafter⟩ := hbeat r _ hr
  obtain ⟨hnone', hafter'⟩ := hbeat r' _ hr'
  rw [hf.withFailures_eq] at hafter
  exact ⟨hnone, hnone', ⟨f n, slot, hafter', hafter, hf.answers hn⟩⟩

/-- If no reading is to fail any more, both read the same. -/
theorem Differ.read (h : Differ k 0 r r') (hk : k.node = Offline.nodeLink) : ∃ reading,
    (r.beat .read).1 = some (.done (.read (.ok reading))) ∧
      (r'.beat .read).1 = some (.done (.read (.ok reading))) ∧
      Differ k 0 (r.beat .read).2 (r'.beat .read).2 := by
  obtain ⟨n, slot, hr', hr, hn⟩ := h.exists_node
  have hn' : (n.withFailures 0 slot).Answers k.monitor.fallback := ⟨rfl, hn.readable⟩
  have hpoll := Offline.pollRead_answers hr.node_eq hn'
  rw [SimulatedNode.nextBalance_withFailures] at hpoll
  obtain ⟨hreport, hcharter, hafter⟩ := hr.read hk hpoll
  obtain ⟨hreport', hcharter', hafter'⟩ := hr'.read hk (Offline.pollRead_answers hr'.node_eq hn)
  exact ⟨_, hreport, hreport', ⟨_, _, ⟨hcharter', congrArg Offline.node hafter'⟩,
    ⟨hcharter, congrArg Offline.node hafter⟩, ⟨hn.failingReads_eq, hn.readable⟩⟩⟩

/-- A reading that fails counts as one if there is a fallback, and otherwise as none. -/
theorem Differ.read_failing (h : Differ k (count + 1) r r') (hk : k.node = Offline.nodeLink) :
    ∃ why, (r.beat .read).1 = some (.done (.read (.error why))) ∧
      Differ k (if k.monitor.fallback then count else count + 1) (r.beat .read).2 r' := by
  obtain ⟨n, slot, hr', hr, hn⟩ := h.exists_node
  have hfails : 0 < (n.withFailures (count + 1) slot).failingReads := Nat.succ_pos count
  cases hf : k.monitor.fallback with
  | true =>
    obtain ⟨why, hpoll⟩ := Offline.pollRead_failing hr.node_eq hfails hf
    obtain ⟨hreport, hcharter, hafter⟩ := hr.read hk hpoll
    exact ⟨why, hreport, ⟨n, _, hr', ⟨hcharter, congrArg Offline.node hafter⟩, hn⟩⟩
  | false =>
    obtain ⟨why, hpoll⟩ := Offline.pollRead_refused hr.node_eq hfails hf
    obtain ⟨hreport, hcharter, hafter⟩ := hr.read hk hpoll
    exact ⟨why, hreport,
      ⟨n, slot, hr', ⟨hcharter, (congrArg Offline.node hafter).trans hr.node_eq⟩, hn⟩⟩

/-- Of the readings among some beats of `r` the first so many fail, and otherwise it is as if they
had not been made: the others succeed and report what they report in `r'`, where the first ones are
left out. -/
structure LosesFirst (lost left : Nat) (beats : List Beat) (r r' : Rehearsal) : Prop where
  /-- Each reading gives a report. -/
  reports : (r.goThrough beats).1.length = reads beats
  lost_fail : ∀ x ∈ (r.goThrough beats).1.take lost, ∃ why, x = .done (.read (.error why))
  others_succeed : ∀ x ∈ (r.goThrough beats).1.drop lost, ∃ reading, x = .done (.read (.ok reading))
  others_eq : (r.goThrough beats).1.drop lost = (r'.goThrough (skipReads lost beats)).1
  /-- Afterwards the node has the same balance, scripted balances and credits as if the failing
  readings had been left out; only its failures and the slot asked for last may differ. -/
  exists_node : ∃ n slot,
    (r'.goThrough (skipReads lost beats)).2.controller.outside.node = .simulated n ∧
      (r.goThrough beats).2.controller.outside.node = .simulated (n.withFailures left slot)

theorem Differ.nil (h : Differ k count r r') (lost : Nat) : LosesFirst lost count [] r r' := by
  obtain ⟨n, slot, hr', hr, -⟩ := h.exists_node
  refine ⟨rfl, ?_, ?_, ?_, ?_⟩
  all_goals simp only [Beat.skipReads_nil, goThrough, List.take_nil, List.drop_nil]
  · intro x hx
    cases hx
  · intro x hx
    cases hx
  · exact ⟨n, slot, hr'.node_eq, hr.node_eq⟩

theorem LosesFirst.cons (hb : b.isRead = false) (hr : (r.beat b).1 = none)
    (hr' : (r'.beat b).1 = none) (h : LosesFirst lost left rest (r.beat b).2 (r'.beat b).2) :
    LosesFirst lost left (b :: rest) r r' := by
  refine ⟨?_, ?_, ?_, ?_, ?_⟩
  all_goals simp only [goThrough_of_none hr, goThrough_of_none hr', Beat.skipReads_cons hb,
    Beat.reads_cons hb]
  · exact h.reports
  · exact h.lost_fail
  · exact h.others_succeed
  · exact h.others_eq
  · exact h.exists_node

theorem LosesFirst.cons_fails {why : ReadError}
    (hr : (r.beat .read).1 = some (.done (.read (.error why))))
    (h : LosesFirst lost left rest (r.beat .read).2 r') :
    LosesFirst (lost + 1) left (.read :: rest) r r' := by
  have hskip : skipReads (lost + 1) (.read :: rest) = skipReads lost rest := rfl
  refine ⟨?_, ?_, ?_, ?_, ?_⟩
  all_goals simp only [goThrough_of_some hr, hskip, Beat.reads_cons_read, List.length_cons,
    List.take_succ_cons, List.drop_succ_cons, List.forall_mem_cons]
  · exact congrArg Nat.succ h.reports
  · exact ⟨⟨why, rfl⟩, h.lost_fail⟩
  · exact h.others_succeed
  · exact h.others_eq
  · exact h.exists_node

theorem LosesFirst.cons_succeeds {reading : Reading}
    (hr : (r.beat .read).1 = some (.done (.read (.ok reading))))
    (hr' : (r'.beat .read).1 = some (.done (.read (.ok reading))))
    (h : LosesFirst 0 left rest (r.beat .read).2 (r'.beat .read).2) :
    LosesFirst 0 left (.read :: rest) r r' := by
  have heq := h.others_eq
  have hnode := h.exists_node
  rw [Beat.skipReads_zero, List.drop_zero] at heq
  rw [Beat.skipReads_zero] at hnode
  refine ⟨?_, ?_, ?_, ?_, ?_⟩
  all_goals simp only [goThrough_of_some hr, goThrough_of_some hr', Beat.skipReads_zero,
    Beat.reads_cons_read, List.length_cons, List.take_zero, List.drop_zero, List.forall_mem_cons]
  · exact congrArg Nat.succ h.reports
  · intro x hx
    cases hx
  · exact ⟨⟨reading, rfl⟩, h.others_succeed⟩
  · rw [heq]
  · exact hnode

/-- With the fallback each failing reading uses up a failure. -/
theorem Differ.losesFirst (hk : k.node = Offline.nodeLink)
    (hcount : k.monitor.fallback = true ∨ count = 0) (beats : List Beat)
    (h : Differ k count r r') : LosesFirst count (count - reads beats) beats r r' := by
  induction beats generalizing count r r' with
  | nil => exact h.nil count
  | cons b rest ih =>
    cases hb : b.isRead with
    | false =>
      obtain ⟨hr, hr', hnext⟩ := h.beat hb
      rw [Beat.reads_cons hb]
      exact (ih hcount hnext).cons hb hr hr'
    | true =>
      cases Beat.eq_read hb
      rw [Beat.reads_cons_read]
      cases count with
      | zero =>
        obtain ⟨reading, hr, hr', hnext⟩ := h.read hk
        have hrest := ih (.inr rfl) hnext
        rw [Nat.zero_sub] at hrest ⊢
        exact hrest.cons_succeeds hr hr'
      | succ count =>
        have hfallback : k.monitor.fallback = true := hcount.resolve_right (Nat.succ_ne_zero count)
        obtain ⟨why, hr, hnext⟩ := h.read_failing hk
        rw [if_pos hfallback] at hnext
        rw [Nat.add_sub_add_right]
        exact (ih (.inl hfallback) hnext).cons_fails hr

/-- Without the fallback no reading uses up a failure, and all readings fail. -/
theorem Differ.losesAll (hk : k.node = Offline.nodeLink) (hfallback : k.monitor.fallback = false)
    (beats : List Beat) (h : Differ k (count + 1) r r') :
    LosesFirst (reads beats) (count + 1) beats r r' := by
  induction beats generalizing r r' with
  | nil => exact h.nil _
  | cons b rest ih =>
    cases hb : b.isRead with
    | false =>
      obtain ⟨hr, hr', hnext⟩ := h.beat hb
      rw [Beat.reads_cons hb]
      exact (ih hnext).cons hb hr hr'
    | true =>
      cases Beat.eq_read hb
      obtain ⟨why, hr, hnext⟩ := h.read_failing hk
      rw [if_neg (by simp [hfallback])] at hnext
      rw [Beat.reads_cons_read]
      exact (ih hnext).cons_fails hr

theorem Watches.differ_failing (h : Watches k r n)
    (hpath : n.primary = true ∨ k.monitor.fallback = true) (count : Nat) :
    Differ k count (r.failing count) (r.failing 0) := by
  have hnone : Watches k (r.failing 0) (n.withFailures 0 n.lastSlot) := h.apply (.failReads 0)
  have hcount : Watches k (r.failing count) (n.withFailures count n.lastSlot) :=
    h.apply (.failReads count)
  exact ⟨_, n.lastSlot, hnone, hcount, rfl, hpath⟩

/-- A simulated node in any state, whose balance a monitor can read one way or the other, is told
that so many readings fail. With the fallback exactly so many of the next readings fail, whether or
not the node knows the question for the balance, and whatever is set or asked about messages in
between. The others succeed, and report what they report if the node is told of no failure and the
readings that fail are not made. Without the fallback, a node that is told of a failure fails at
every reading, and none of them changes what a later one would find. -/
theorem failing_readings_lost (hlink : r.charter.node = Offline.nodeLink)
    (hnode : r.controller.outside.node = .simulated n)
    (hpath : n.primary = true ∨ r.charter.monitor.fallback = true) (count : Nat)
    (beats : List Beat) :
    (r.charter.monitor.fallback = true ∨ count = 0 →
      LosesFirst count (count - reads beats) beats (r.failing count) (r.failing 0)) ∧
    (r.charter.monitor.fallback = false → 0 < count →
      LosesFirst (reads beats) count beats (r.failing count) (r.failing 0)) := by
  have hwatches : Watches r.charter r n := ⟨rfl, hnode⟩
  have hdiffer := hwatches.differ_failing hpath count
  constructor
  · intro hcount
    exact hdiffer.losesFirst hlink hcount beats
  · intro hfallback hcount
    obtain ⟨left, rfl⟩ := Nat.exists_eq_add_of_lt hcount
    rw [Nat.zero_add] at hdiffer ⊢
    exact hdiffer.losesAll hlink hfallback beats

/-- A rehearsal with this node, with or without the fallback. -/
def ofNode (fallback : Bool) (node : SimulatedNode) : Rehearsal where
  charter := ⟨Offline.nodeLink, Offline.bridgeLink, StateFile.store "bridge.json",
    ⟨⟨5⟩, ⟨250⟩, 1, fallback⟩, ⟨5, 2, 10000, 60000, ⟨1000, 8000, 30000⟩⟩⟩
  controller := .initial 60000 ⟨.simulated node, .simulated {}⟩ .empty
  wall := 0

/-- A node that goes through the balances 3 and 9. -/
def climbing : SimulatedNode := { feeJuice := ⟨5⟩, scripted := [3, 9] }

/-- Four readings; after the first a credit of 2 is scheduled that lands with the second reading
from then on. -/
def creditBetween : List Beat :=
  [.read, .set (.credit 2 2) nofun, .read, .read, .read]

/-- The two readings that fail bring neither the balances nor the credit nearer. Without the
fallback the second reading fails as well. -/
theorem failing_readings_lost_climbing :
    (climbing.primary = true ∧ (ofNode true climbing).charter.monitor.fallback = true ∧
      (((ofNode true climbing).failing 2).goThrough creditBetween).1.drop 2 =
        [.done (.read (.ok ⟨3, .primary⟩)), .done (.read (.ok ⟨11, .primary⟩))]) ∧
    (ofNode false climbing).charter.monitor.fallback = false ∧
      LosesFirst 2 1 [.read, .read] ((ofNode false climbing).failing 1)
        ((ofNode false climbing).failing 0) := by
  have hlost := (failing_readings_lost (r := ofNode true climbing) (n := climbing) rfl rfl
    (.inl rfl) 2 creditBetween).1 (.inl rfl)
  have hall := (failing_readings_lost (r := ofNode false climbing) (n := climbing) rfl rfl
    (.inl rfl) 1 [.read, .read]).2 rfl Nat.one_pos
  refine ⟨⟨rfl, rfl, ?_⟩, rfl, hall⟩
  rw [hlost.others_eq]
  rfl

/-- Told of one failure, a node that is only asked directly fails at the second reading too. -/
theorem one_failure_fails_twice :
    climbing.primary = true ∧ (ofNode false climbing).charter.monitor.fallback = false ∧
      ∀ left, ¬LosesFirst 1 left [.read, .read] ((ofNode false climbing).failing 1)
        ((ofNode false climbing).failing 0) := by
  refine ⟨rfl, rfl, ?_⟩
  intro left h
  obtain ⟨reading, hreading⟩ := h.others_succeed _ List.mem_cons_self
  cases hreading

end Rehearsal
end Reserve
end Paymaster

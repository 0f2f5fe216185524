import Paymaster.Proofs.Reserve.Accounts
import Paymaster.Proofs.Reserve.ClaimSecret
/-!
# After the shutdown

From the moment at which the controller is told to stop, no wait ends well: one that is under way is
cut short at its next step, before anything else is looked at, and one that begins is cut short at
once. A tick that has come past its openings goes on nevertheless, so a deposit may still be made;
its record is kept like any other. So nothing is forgotten: what was kept stays kept.
-/

namespace Paymaster.Reserve

open Bridge (ClaimSecret)

variable {ω σ : Type}

/-! ## Waits that are cut short -/

/-- The result of a wait that is cut short before its first look. -/
def WaitResult.unbegun (baseline : Amount) : WaitResult where
  status := .aborted
  confirmedBy := none
  baseline := baseline
  max := baseline
  last := none
  elapsed := 0
  attempts := 0
  pollErrors := 0
  messageChecked := false
  messageReady := false
  messageFailed := false

theorem Wait.finish_start (p : WaitPolicy) (target : WaitTarget) (now : Nat) :
    (Wait.start p target now).finish now .aborted none = .unbegun target.baseline := by
  simp [Wait.finish, Wait.start, WaitResult.unbegun]

/-- The controller after a wait that was cut short. -/
def Controller.abandon (c : Controller ω σ) (now : Nat) (r : BridgeRecord) (result : WaitResult) :
    Controller ω σ :=
  (c.note now (.waited r result)).record .aborted

variable {k : Charter ω σ} {t : Moment} {path : String} {disk : σ → Disk} {c c' : Controller ω σ}
  {r : BridgeRecord} {x : Wait}

/-- A wait that is looked at after the shutdown ends, and nobody is asked. -/
theorem Charter.pollWait_cancelled (ht : t.cancelled = true) :
    k.pollWait t r x c = (.done (x.finish t.now .aborted none),
      c.abandon t.now r (x.finish t.now .aborted none)) := by
  have hpoll : x.poll k.monitor k.node t c.outside c.view =
      (.done (x.finish t.now .aborted none), c.outside, c.view) := by
    rw [Wait.poll, if_pos ht]
  have hstatus : (x.finish t.now .aborted none).status ≠ .confirmed := by
    intro h
    cases h
  unfold Charter.pollWait
  rw [hpoll]
  show (Progress.done _, Controller.settle _ _ _ _ _ _) = _
  rw [Controller.settle_of_ne _ _ _ _ hstatus]
  rfl

theorem Tick.pollBridging_cancelled (ht : t.cancelled = true) :
    pollBridging k t r x c = (.done (.bridged (x.finish t.now .aborted none)),
      (c.abandon t.now r (x.finish t.now .aborted none)).endFlight) := by
  rw [pollBridging, Charter.pollWait_cancelled ht]
  rfl

theorem Tick.pollResuming_cancelled (ht : t.cancelled = true) :
    pollResuming k t r x c = (.done (.resumed (x.finish t.now .aborted none)),
      (c.abandon t.now r (x.finish t.now .aborted none)).endFlight) := by
  rw [pollResuming, Charter.pollWait_cancelled ht]
  rfl

theorem Recovery.poll_cancelled (ht : t.cancelled = true) (y : Recovery) :
    y.poll k t c = (.done (.ok (some (y.wait.finish t.now .aborted none))),
      if y.holdsFlag then (c.abandon t.now y.record (y.wait.finish t.now .aborted none)).endFlight
      else c.abandon t.now y.record (y.wait.finish t.now .aborted none)) := by
  rw [poll, Charter.pollWait_cancelled ht]

/-- The waits that a tick is in the middle of, each with its record. -/
def Tick.underWay : Tick → List (BridgeRecord × Wait)
  | .bridging r x | .resuming r x => [(r, x)]
  | .reading _ | .depositing _ _ _ => []

def Stage.underWay : Stage → List (BridgeRecord × Wait)
  | .idle => []
  | .recovering x => [(x.record, x.wait)]
  | .ticking ticks => ticks.flatMap Tick.underWay

/-! ## What is spared -/

/-- A wait that has ended was cut short: it is one of those that were under way, or it had not
looked yet. -/
def Act.Cut (under : List (BridgeRecord × Wait)) (time : Nat) : Act → Prop
  | .waited r result => result = .unbegun r.baseline ∨
      ∃ x, (r, x) ∈ under ∧ result = x.finish time .aborted none
  | _ => True

theorem Act.Cut.event?_ne {under : List (BridgeRecord × Wait)} {time : Nat} {a : Act}
    (h : a.Cut under time) : a.event? ≠ some .confirmed := by
  intro hevent
  cases a with
  | waited r result =>
    rcases h with rfl | ⟨x, -, rfl⟩
    · cases hevent
    · cases hevent
  | looked | asked | refused | deposited | saved => cases hevent

/-- From one state of a controller to a later one nothing is forgotten: what was kept is kept, and
so is the record of every deposit that was made in between; all waits that ended were cut short. -/
structure Controller.Spares (under : List (BridgeRecord × Wait)) (path : String) (disk : σ → Disk)
    (c c' : Controller ω σ) : Prop where
  cooldown : c'.cooldownUntil = c.cooldownUntil
  file : ∀ r, StateFile.load path (disk c.store) = .ok (some r) →
    StateFile.load path (disk c'.store) = .ok (some r)
  keeps : ∀ r, c.Keeps path disk r → c'.Keeps path disk r
  journal : ∃ later, c'.journal = later ++ c.journal ∧ (∀ e ∈ later, e.act.Cut under e.time) ∧
    ∀ e ∈ later, ∀ d, e.act = .deposited d → c'.Keeps path disk d.record

namespace Controller

variable {under : List (BridgeRecord × Wait)}

theorem keeps_persist {s : RecordStore σ} (hs : s.OnFile path disk) (now : Nat) (r : BridgeRecord)
    (c : Controller ω σ) : (c.persist s now r).Keeps path disk r := by
  rw [persist_eq]
  cases hsave : (s.save r c.store).1 with
  | ok done => exact .inr (hs.durable.load_save hsave)
  | error why => exact .inl rfl

theorem load_persist {s : RecordStore σ} (hs : s.OnFile path disk) {now : Nat}
    (hload : StateFile.load path (disk c.store) = .ok (some r)) :
    StateFile.load path (disk (c.persist s now r).store) = .ok (some r) := by
  rw [persist_eq]
  cases hsave : (s.save r c.store).1 with
  | ok done => exact hs.durable.load_save hsave
  | error why => exact (StateFile.load_congr (hs.save_error r c.store why hsave)).trans hload

namespace Spares

theorem of_same (hcooldown : c'.cooldownUntil = c.cooldownUntil) (hjournal : c'.journal = c.journal)
    (hmemory : c'.unpersisted = c.unpersisted)
    (hfile : StateFile.load path (disk c'.store) = StateFile.load path (disk c.store)) :
    c.Spares under path disk c' where
  cooldown := hcooldown
  file r hr := hfile.trans hr
  keeps r hr := by
    rw [Keeps, hmemory, hfile]
    exact hr
  journal := ⟨[], hjournal, by simp, by simp⟩

theorem trans {c'' : Controller ω σ} (h : c.Spares under path disk c')
    (h' : c'.Spares under path disk c'') : c.Spares under path disk c'' where
  cooldown := h'.cooldown.trans h.cooldown
  file r hr := h'.file r (h.file r hr)
  keeps r hr := h'.keeps r (h.keeps r hr)
  journal := by
    obtain ⟨later, hlater, hcut, hkept⟩ := h.journal
    obtain ⟨newer, hnewer, hcut', hkept'⟩ := h'.journal
    refine ⟨newer ++ later, ?_, ?_, ?_⟩
    · rw [hnewer, hlater, List.append_assoc]
    · intro e he
      rcases List.mem_append.mp he with he | he
      · exact hcut' e he
      · exact hcut e he
    · intro e he d hd
      rcases List.mem_append.mp he with he | he
      · exact hkept' e he d hd
      · exact h'.keeps _ (hkept e he d hd)

theorem noted {now : Nat} {a : Act} (ha : a.Cut under now) (hd : a.deposit? = none) :
    c.Spares under path disk (c.note now a) where
  cooldown := rfl
  file r hr := hr
  keeps r hr := hr
  journal := by
    refine ⟨[⟨now, a⟩], rfl, List.forall_mem_singleton.mpr ha, List.forall_mem_singleton.mpr ?_⟩
    intro d hdeposit
    obtain rfl : a = .deposited d := hdeposit
    cases hd

theorem recorded (e : BridgeEvent) : c.Spares under path disk (c.record e) :=
  of_same rfl rfl rfl rfl

theorem abandoned {now : Nat} {result : WaitResult}
    (hcut : (Act.waited r result).Cut under now) :
    c.Spares under path disk (c.abandon now r result) :=
  (noted hcut rfl).trans (recorded _)

theorem ended : c.Spares under path disk c.endFlight := of_same rfl rfl rfl rfl

/-- A record is written where no other is kept. -/
theorem persisted (hs : k.store.OnFile path disk) (now : Nat)
    (honly : ∀ r', c.Keeps path disk r' → r' = r) :
    c.Spares under path disk (c.persist k.store now r) where
  cooldown := cooldownUntil_persist _ _ _ _
  file r' hr' := by
    obtain rfl := honly r' (.inr hr')
    exact load_persist hs hr'
  keeps r' hr' := by
    obtain rfl := honly r' hr'
    exact keeps_persist hs _ _ _
  journal := by
    refine ⟨[_], journal_persist _ _ _ _, List.forall_mem_singleton.mpr trivial,
      List.forall_mem_singleton.mpr ?_⟩
    intro d hd
    cases hd

theorem loaded (hs : k.store.OnFile path disk) {answer : Except StoreError (Option BridgeRecord)}
    {store : σ} (hload : k.store.load c.store = (answer, store))
    (hcooldown : c'.cooldownUntil = c.cooldownUntil) (hjournal : c'.journal = c.journal)
    (hmemory : c'.unpersisted = c.unpersisted) (hstore : c'.store = store) :
    c.Spares under path disk c' := by
  refine of_same hcooldown hjournal hmemory ?_
  rw [hstore]
  exact hs.load_eq hload

/-- A deposit is taken while no record is kept. -/
theorem accepted (hs : k.store.OnFile path disk) (hkept : ∀ r, ¬c.Keeps path disk r) (d : Deposit)
    (s : Bridge.Submission) : c.Spares under path disk (Tick.accept k t d s d.record c) where
  cooldown := cooldownUntil_persist _ _ _ _
  file r hr := absurd (.inr hr) (hkept r)
  keeps r hr := absurd hr (hkept r)
  journal := by
    refine ⟨[_, ⟨t.now, .deposited d⟩], journal_persist _ _ _ _,
      List.forall_mem_cons.mpr ⟨trivial, List.forall_mem_singleton.mpr trivial⟩,
      List.forall_mem_cons.mpr ⟨?_, List.forall_mem_singleton.mpr ?_⟩⟩
    · intro d' hd'
      cases hd'
    · intro d' hd'
      cases hd'
      exact keeps_persist hs _ _ _

end Spares
end Controller

/-! ## Steps after the shutdown -/

variable {under : List (BridgeRecord × Wait)}

theorem Act.cut_of_mem (h : (r, x) ∈ under) (time : Nat) :
    (Act.waited r (x.finish time .aborted none)).Cut under time :=
  .inr ⟨x, h, rfl⟩

theorem Act.cut_waitFor (r : BridgeRecord) (budget time : Nat) :
    (Act.waited r ((k.waitFor r budget time).finish time .aborted none)).Cut under time :=
  .inl (Wait.finish_start _ _ _)

/-- If a record is in memory, no other is in the file. -/
theorem Custody.eq_of_keeps (h : Custody k path disk c) (hr : c.unpersisted = some r)
    {r' : BridgeRecord} (hkept : c.Keeps path disk r') : r' = r := by
  obtain ⟨d, hlast, rfl⟩ := h.memory r hr
  rcases hkept with hmemory | hfile
  · exact Option.some.inj (hmemory.symm.trans hr)
  · exact h.file r' d hfile hlast

/-- What a step of a tick or a recovery leaves: nothing is forgotten, and no wait is under way. -/
structure Stops {α : Type} (stage : α → Stage) (under : List (BridgeRecord × Wait)) (path : String)
    (disk : σ → Disk) (c : Controller ω σ) (q : α × Controller ω σ) : Prop where
  spares : c.Spares under path disk q.2
  underWay_eq : (stage q.1).underWay = []

theorem Stops.after {α : Type} {stage : α → Stage} {q : α × Controller ω σ}
    (h : Stops stage under path disk c' q) (hc : c.Spares under path disk c') :
    Stops stage under path disk c q :=
  ⟨hc.trans h.spares, h.underWay_eq⟩

namespace Tick

theorem pollBridging_stops (ht : t.cancelled = true)
    (hcut : (Act.waited r (x.finish t.now .aborted none)).Cut under t.now) :
    Stops (Stage.ticking ∘ left) under path disk c (pollBridging k t r x c) := by
  rw [pollBridging_cancelled ht]
  exact ⟨(Controller.Spares.abandoned hcut).trans .ended, rfl⟩

theorem pollResuming_stops (ht : t.cancelled = true)
    (hcut : (Act.waited r (x.finish t.now .aborted none)).Cut under t.now) :
    Stops (Stage.ticking ∘ left) under path disk c (pollResuming k t r x c) := by
  rw [pollResuming_cancelled ht]
  exact ⟨(Controller.Spares.abandoned hcut).trans .ended, rfl⟩

/-- A deposit may still be made; the wait for it is cut short at once. -/
theorem pollDepositing_stops (hs : k.store.OnFile path disk) (ht : t.cancelled = true)
    (hkept : ∀ r, ¬c.Keeps path disk r) (balance : Amount) (secret : ClaimSecret) (since : Nat) :
    Stops (Stage.ticking ∘ left) under path disk c (pollDepositing k t balance secret since c) := by
  rcases h : k.bridge.deposit (k.requestAt secret) since t.now c.outside with ⟨answer, outside⟩
  have hsame : c.Spares under path disk { c with outside } := .of_same rfl rfl rfl rfl
  cases answer with
  | none =>
    rw [pollDepositing_of_none h]
    exact ⟨hsame, rfl⟩
  | some answer =>
    cases answer with
    | error why =>
      rw [pollDepositing_of_error h]
      have hnoted : c.Spares under path disk ({ c with outside }.note t.now (.refused why)) :=
        hsame.trans (.noted trivial rfl)
      exact ⟨(hnoted.trans (.recorded _)).trans .ended, rfl⟩
    | ok receipt =>
      rw [pollDepositing_of_ok h]
      -- The record is written before the wait for the deposit is cut short.
      have hkept' : ∀ r, ¬({ c with outside } : Controller ω σ).Keeps path disk r := hkept
      exact (pollBridging_stops ht (Act.cut_waitFor _ _ _)).after
        (hsame.trans (.accepted hs hkept' _ _))

theorem pollReading_stops (hs : k.store.OnFile path disk) (ht : t.cancelled = true)
    (hkept : ∀ r, ¬c.Keeps path disk r) (phase : ReadPhase) :
    Stops (Stage.ticking ∘ left) under path disk c (pollReading k t phase c) := by
  rw [pollReading]
  rcases k.monitor.pollRead k.node phase c.outside with ⟨p, outside⟩
  cases p with
  | pending phase' => exact ⟨.of_same rfl rfl rfl rfl, rfl⟩
  | done reading =>
    have hnoted : c.Spares under path disk (c.note t.now (.looked reading)) := .noted trivial rfl
    have hlooked : c.Spares under path disk (c.afterReading t outside reading) :=
      hnoted.trans (.of_same rfl rfl rfl rfl)
    cases reading with
    | error why => exact ⟨hlooked.trans .ended, rfl⟩
    | ok reading =>
      show Stops (Stage.ticking ∘ left) under path disk c
        (weigh k t reading.balance (c.afterReading t outside (.ok reading)))
      rw [weigh]
      split_ifs with hcool hb
      · exact ⟨hlooked.trans .ended, rfl⟩
      · exact ⟨hlooked.trans .ended, rfl⟩
      · have hkept' : ∀ r, ¬((c.afterReading t outside (.ok reading)).note t.now
            (.asked (k.requestAt (.ofRandom t.random)))).Keeps path disk r := hkept
        exact (pollDepositing_stops hs ht hkept' _ _ _).after (hlooked.trans (.noted trivial rfl))

theorem poll_stops (hs : k.store.OnFile path disk) (ht : t.cancelled = true) {tick : Tick}
    (hunbarred : tick.Unbarred path disk c) (hunder : tick.underWay ⊆ under) :
    Stops (Stage.ticking ∘ left) under path disk c (tick.poll k t c) := by
  cases tick with
  | reading phase => exact pollReading_stops hs ht hunbarred phase
  | depositing balance secret since => exact pollDepositing_stops hs ht hunbarred.2 _ _ _
  | bridging r x => exact pollBridging_stops ht (Act.cut_of_mem (hunder (.head _)) _)
  | resuming r x => exact pollResuming_stops ht (Act.cut_of_mem (hunder (.head _)) _)

theorem start_stops (hs : k.store.OnFile path disk) (ht : t.cancelled = true)
    (h : Custody k path disk c) (hflag : c.inFlight = false) :
    Stops (Stage.ticking ∘ left) under path disk c (start k t c) := by
  rw [start_of_free hflag]
  have htaken : c.Spares under path disk c.takeFlight := .of_same rfl rfl rfl rfl
  cases hr : c.unpersisted with
  | some r =>
    have honly : ∀ r', c.takeFlight.Keeps path disk r' → r' = r := fun _ => h.eq_of_keeps hr
    exact (pollResuming_stops ht (Act.cut_waitFor _ _ _)).after
      (htaken.trans (.persisted hs t.now honly))
  | none =>
    rcases hload : k.store.load c.store with ⟨answer, store⟩
    have hloaded : c.Spares under path disk { c.takeFlight with store } :=
      .loaded hs hload rfl rfl rfl rfl
    cases answer with
    | error why => exact ⟨hloaded.trans .ended, rfl⟩
    | ok kept =>
      cases kept with
      | some r => exact (pollResuming_stops ht (Act.cut_waitFor _ _ _)).after hloaded
      | none =>
        have hkept : ∀ r, ¬({ c.takeFlight with store } : Controller ω σ).Keeps path disk r :=
          Controller.not_keeps hr (hs.load_loaded hload)
        exact (pollReading_stops hs ht hkept _).after hloaded

end Tick

namespace Recovery

theorem poll_stops (ht : t.cancelled = true) {y : Recovery}
    (hcut : (Act.waited y.record (y.wait.finish t.now .aborted none)).Cut under t.now) :
    Stops Stage.ofRecovery under path disk c (y.poll k t c) := by
  have habandoned : c.Spares under path disk _ := .abandoned hcut
  rw [poll_cancelled ht]
  refine ⟨?_, rfl⟩
  by_cases hflag : y.holdsFlag = true
  · rw [if_pos hflag]
    exact habandoned.trans .ended
  · rw [if_neg hflag]
    exact habandoned

theorem start_stops (hs : k.store.OnFile path disk) (ht : t.cancelled = true) :
    Stops Stage.ofRecovery under path disk c (start k t c) := by
  rw [start]
  rcases hload : k.store.load c.store with ⟨answer, store⟩
  have hloaded {c' : Controller ω σ} (hcooldown : c'.cooldownUntil = c.cooldownUntil)
      (hjournal : c'.journal = c.journal) (hmemory : c'.unpersisted = c.unpersisted)
      (hstore : c'.store = store) : c.Spares under path disk c' :=
    .loaded hs hload hcooldown hjournal hmemory hstore
  cases answer with
  | error why => exact ⟨hloaded rfl rfl rfl rfl, rfl⟩
  | ok kept =>
    cases kept with
    | none => exact ⟨hloaded rfl rfl rfl rfl, rfl⟩
    | some r =>
      have hcut : (Act.waited r ((k.resume r t).finish t.now .aborted none)).Cut under t.now :=
        Act.cut_waitFor _ _ _
      simp only [Controller.beginFlight?_eq]
      by_cases hflag : c.inFlight = true
      · rw [if_pos (by exact hflag)]
        exact (poll_stops (y := ⟨r, k.resume r t, false⟩) ht hcut).after (hloaded rfl rfl rfl rfl)
      · rw [if_neg (by exact hflag)]
        exact (poll_stops (y := ⟨r, k.resume r t, true⟩) ht hcut).after (hloaded rfl rfl rfl rfl)

end Recovery

theorem happened_append_of_cut {later : List JournalEntry} (journal : List JournalEntry)
    (hcut : ∀ e ∈ later, e.act.Cut under e.time) :
    happened .confirmed (later ++ journal) = happened .confirmed journal := by
  have hnone : happened .confirmed later = 0 := by
    apply List.countP_eq_zero.mpr
    intro e he
    simpa using (hcut e he).event?_ne
  rw [happened, List.countP_append]
  show happened .confirmed later + happened .confirmed journal = _
  rw [hnone, Nat.zero_add]

namespace Session

/-- A run after the shutdown: the controller is told to stop, and it stays told. -/
abbrev StoppedRun (k : Charter ω σ) (path : String) (disk : σ → Disk) :
    Session ω σ → Session ω σ → Prop :=
  RunWhen (fun t => t.cancelled = true) k path disk

/-- What is kept after the shutdown: since then nothing has been forgotten, and no wait is under way
that was not under way then. -/
def Stopped (k : Charter ω σ) (path : String) (disk : σ → Disk) (s : Session ω σ) (g : Stage)
    (c : Controller ω σ) : Prop :=
  Guards k path disk g c ∧ s.controller.Spares s.stage.underWay path disk c ∧
    g.underWay ⊆ s.stage.underWay

/-- Whoever stops has nothing under way any more. -/
theorem Stopped.of_stops {s : Session ω σ} {α : Type} {stage : α → Stage} {q : α × Controller ω σ}
    (hspares : s.controller.Spares s.stage.underWay path disk c)
    (hstops : Stops stage s.stage.underWay path disk c q)
    (hguards : Guards k path disk (stage q.1) q.2) : Stopped k path disk s (stage q.1) q.2 := by
  refine ⟨hguards, hspares.trans hstops.spares, ?_⟩
  rw [hstops.underWay_eq]
  exact List.nil_subset _

theorem kept_stopped {Q : Controller ω σ → Controller ω σ → Prop} (hs : k.store.OnFile path disk)
    (s : Session ω σ) :
    KeptWhen (fun t => t.cancelled = true) Q k path disk (Stopped k path disk s) := by
  have hkept : KeptWhen (fun t => t.cancelled = true) Q k path disk (Guards k path disk) :=
    (kept_guards hs).when
  constructor
  case drift =>
    rintro c c' g hdrift hc ⟨hguards, hspares, hunder⟩
    have hsame : c.Spares s.stage.underWay path disk c' :=
      .of_same hdrift.cooldownUntil hdrift.journal hdrift.unpersisted hdrift.load
    exact ⟨hkept.drift hdrift hc hguards, hspares.trans hsame, hunder⟩
  case ready =>
    rintro c ⟨hguards, hspares, -⟩
    exact ⟨hkept.ready hguards, hspares, List.nil_subset _⟩
  case start =>
    rintro t c ht hflag ⟨hguards, hspares, -⟩
    have hstops : Stops (Stage.ticking ∘ Tick.left) s.stage.underWay path disk c
        (Tick.start k t c) := Tick.start_stops hs ht hguards.1 hflag
    exact .of_stops hspares hstops (hkept.start ht hflag hguards)
  case poll =>
    rintro t c x ht ⟨hguards, hspares, hunder⟩
    have hx : x.underWay ⊆ s.stage.underWay := by simpa [Stage.underWay] using hunder
    have hstops : Stops (Stage.ticking ∘ Tick.left) s.stage.underWay path disk c
        (x.poll k t c) := Tick.poll_stops hs ht (hguards.2 x (by simp)) hx
    exact .of_stops hspares hstops (hkept.poll ht hguards)
  case recoveryStart =>
    rintro t c ht hflag ⟨hguards, hspares, -⟩
    have hstops : Stops Stage.ofRecovery s.stage.underWay path disk c (Recovery.start k t c) :=
      Recovery.start_stops hs ht
    exact .of_stops hspares hstops (hkept.recoveryStart ht hflag hguards)
  case recoveryPoll =>
    rintro t c x ht hholds ⟨hguards, hspares, hunder⟩
    have hstops : Stops Stage.ofRecovery s.stage.underWay path disk c (x.poll k t c) :=
      Recovery.poll_stops ht (Act.cut_of_mem (hunder (.head _)) _)
    exact .of_stops hspares hstops (hkept.recoveryPoll ht hholds hguards)

/-- In every run of a session and from every point of it at which the controller is told to stop:
no record is forgotten, no deposit is counted as arrived, and the cooldown stays as it is. A wait
that was under way ends at its next step, whatever is due then, without a question to the node or
the store; one that begins later ends before its first look; and the record of a deposit that is
still made is kept, in the file or in memory. -/
theorem run_stopped (hs : k.store.OnFile path disk) {staleAfter : Nat} {outside : ω} {store : σ}
    {s s' : Session ω σ} (h : Run k path disk (start staleAfter outside store) s)
    (h' : StoppedRun k path disk s s') :
    (∀ r, StateFile.load path (disk s.controller.store) = .ok (some r) →
      StateFile.load path (disk s'.controller.store) = .ok (some r)) ∧
    (∀ r, s.controller.unpersisted = some r → s'.controller.Keeps path disk r) ∧
    (s'.controller.cooldownUntil = s.controller.cooldownUntil ∧
      s'.controller.view.readiness.events.count .confirmed =
        s.controller.view.readiness.events.count .confirmed ∧
      s'.controller.view.metrics.events.count .confirmed =
        s.controller.view.metrics.events.count .confirmed) ∧
    (∃ later, s'.controller.journal = later ++ s.controller.journal ∧
      (∀ e ∈ later, ∀ r result, e.act = .waited r result → result = .unbegun r.baseline ∨
        ∃ x, (r, x) ∈ s.stage.underWay ∧ result = x.finish e.time .aborted none) ∧
      ∀ e ∈ later, ∀ d, e.act = .deposited d → s'.controller.Keeps path disk ⟨d.baseline,
        d.request.amount, d.request.secretHash, d.receipt.messageHash, d.receipt.leafIndex,
        d.wall⟩) ∧
    s'.stage.underWay ⊆ s.stage.underWay ∧
    ∀ (t : Moment) (r : BridgeRecord) (x : Wait) (c : Controller ω σ), t.cancelled = true →
      (∀ tick : Tick, (r, x) ∈ tick.underWay → ∃ o, tick.poll k t c =
        (.done o, (c.abandon t.now r (x.finish t.now .aborted none)).endFlight)) ∧
      Recovery.poll k t ⟨r, x, true⟩ c = (.done (.ok (some (x.finish t.now .aborted none))),
        (c.abandon t.now r (x.finish t.now .aborted none)).endFlight) := by
  have hlone := lone_start staleAfter outside store
  -- Up to the shutdown nothing but the custody of the secret is needed: it says that no record in
  -- the file stands in the way of one that is in memory.
  obtain ⟨hlone', hguards⟩ := (kept_guards hs).run h hlone (guards_start staleAfter outside store)
  have hbegin : Stopped k path disk s s.stage s.controller :=
    ⟨hguards, .of_same rfl rfl rfl rfl, List.Subset.refl _⟩
  obtain ⟨-, -, hspares, hunder⟩ := (kept_stopped hs s).run h' hlone' hbegin
  obtain ⟨later, hjournal, hcut, hdeposits⟩ := hspares.journal
  -- Both counts of arrivals can be read off the journal, and what it has got since adds to neither.
  have hbooks := h.accounts
  have hrun : Run k path disk (start staleAfter outside store) s' :=
    h.trans (Relation.ReflTransGen.mono (fun _ _ hstep => hstep.step) _ _ h')
  have hbooks' := hrun.accounts
  have hcount : s'.controller.view.readiness.events.count .confirmed =
      s.controller.view.readiness.events.count .confirmed := by
    calc s'.controller.view.readiness.events.count .confirmed
        = happened .confirmed s'.controller.journal := hbooks'.happened_eq _
      _ = happened .confirmed s.controller.journal := by
        rw [hjournal, happened_append_of_cut _ hcut]
      _ = s.controller.view.readiness.events.count .confirmed := (hbooks.happened_eq _).symm
  refine ⟨hspares.file, fun r hr => hspares.keeps r (.inl hr), ⟨hspares.cooldown, hcount, ?_⟩,
    ⟨later, hjournal, ?_, hdeposits⟩, hunder, ?_⟩
  · have hmetrics := hbooks.events_eq .confirmed
    have hmetrics' := hbooks'.events_eq .confirmed
    exact hmetrics'.symm.trans (hcount.trans hmetrics)
  · intro e he r result hact
    have hcut' := hcut e he
    rw [hact] at hcut'
    exact hcut'
  · intro t r x c ht
    refine ⟨?_, ?_⟩
    · intro tick htick
      cases tick with
      | reading phase => cases htick
      | depositing balance secret since => cases htick
      | bridging r' x' =>
        obtain ⟨rfl, rfl⟩ := Prod.mk.inj (List.mem_singleton.mp htick)
        exact ⟨_, Tick.pollBridging_cancelled ht⟩
      | resuming r' x' =>
        obtain ⟨rfl, rfl⟩ := Prod.mk.inj (List.mem_singleton.mp htick)
        exact ⟨_, Tick.pollResuming_cancelled ht⟩
    · rw [Recovery.poll_cancelled ht]
      rfl

/-- The bridge needs a moment to answer, and at first the record of the deposit cannot be
written. -/
def slowBridgeStart : Session Offline ShakyDisk :=
  start 3000 ⟨.simulated { balance := 0, feeJuice := ⟨1⟩ }, .simulated { latency := some 5 }⟩
    ⟨.empty, [true, false]⟩

/-- The session when the bridge has been asked. -/
def slowBridgeAsked : Session Offline ShakyDisk :=
  ⟨(Tick.start offlineCharter ⟨0, 0, false, 7⟩ slowBridgeStart.controller).2,
    .ticking [.depositing 0 (.ofRandom 7) 0]⟩

/-- The bridge has been asked when the controller is told to stop. It takes the deposit afterwards,
and another tick begins, which writes the record again: both waits are cut short. -/
theorem run_stopped_asking : ∃ (s s' : Session Offline ShakyDisk) (d : Deposit),
    Run offlineCharter offlinePath ShakyDisk.disk slowBridgeStart s ∧
      StoppedRun offlineCharter offlinePath ShakyDisk.disk s s' ∧
      s'.controller.journal.map (·.time) = [6, 6, 5, 5, 5, 0, 0] ∧
      s'.controller.Keeps offlinePath ShakyDisk.disk d.record ∧
      s'.controller.cooldownUntil = none := by
  have hrun : Run offlineCharter offlinePath ShakyDisk.disk slowBridgeStart slowBridgeAsked :=
    .tail (.single .ready) (.ticks ⟨0, 0, false, 7⟩ trivial)
  have hstopped : StoppedRun offlineCharter offlinePath ShakyDisk.disk slowBridgeAsked _ :=
    .tail (.single (@StepWhen.tick _ _ _ _ _ _ _ _ [] [] _ ⟨5, 5, true, 0⟩ rfl))
      (.ticks ⟨6, 6, true, 0⟩ rfl)
  obtain ⟨-, -, ⟨hcooldown, -⟩, ⟨later, hjournal, -, hkept⟩, -⟩ :=
    run_stopped (ShakyDisk.onFile_store offlinePath) hrun hstopped
  have hlater : later = [_, _, _, _, _] := List.append_cancel_right (hjournal.symm.trans rfl)
  subst hlater
  have hdeposit := hkept _ (.tail _ (.tail _ (.tail _ (.tail _ (.head _))))) _ rfl
  exact ⟨_, _, _, hrun, hstopped, rfl, hdeposit, hcooldown⟩

end Session
end Paymaster.Reserve

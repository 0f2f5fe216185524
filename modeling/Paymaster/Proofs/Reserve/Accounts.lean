import Mathlib.Algebra.GroupWithZero.Nat
import Paymaster.Proofs.Reserve.OneDeposit
/-!
# The counters account for what happened

Operators see two sets of counters, and a wait counts its own readings of the balance. All of them
are told of an event in the same step in which it happens, so they agree with each other and with
the journal wherever the work is interrupted. A wait carries its readings until it ends; then the
journal has them.

Here any number of ticks and recoveries may be under way at once, and each of them may go on at any
moment. What one of them does leaves the readings of the others alone.
-/

namespace Paymaster.Reserve

open Relation (ReflTransGen)
open Rollup (NodeLink)

variable {ω σ : Type}

/-! ## What a journal tells -/

/-- The event that an act is counted as. -/
def Act.event? : Act → Option BridgeEvent
  | .deposited _ => some .submitted
  | .refused _ => some .failed
  | .waited _ result => some result.status.event
  | .looked _ | .asked _ | .saved _ _ => none

/-- How a wait has ended, if an act tells of it. -/
def Act.result? : Act → Option WaitResult
  | .waited _ result => some result
  | _ => none

/-- The act is a reading that a tick compares with the threshold. -/
def Act.isLook : Act → Bool
  | .looked _ => true
  | _ => false

/-- How often an event happened. -/
def happened (e : BridgeEvent) (journal : List JournalEntry) : Nat :=
  journal.countP fun x => x.act.event? = some e

/-- The readings that ticks have made themselves. -/
def looks (journal : List JournalEntry) : Nat := journal.countP fun x => x.act.isLook

/-- The results of the waits that have ended. -/
def results (journal : List JournalEntry) : List WaitResult :=
  journal.filterMap fun x => x.act.result?

theorem happened_cons {a : Act} {e : BridgeEvent} (he : a.event? = some e) (time : Nat)
    (journal : List JournalEntry) (e' : BridgeEvent) :
    happened e' (⟨time, a⟩ :: journal) = happened e' journal + if e' = e then 1 else 0 := by
  rw [happened, happened, List.countP_cons]
  by_cases heq : e' = e
  · simp [he, heq]
  · simp [he, heq, Ne.symm heq]

theorem happened_cons_of_none {a : Act} {time : Nat} {journal : List JournalEntry}
    (he : a.event? = none) (e : BridgeEvent) :
    happened e (⟨time, a⟩ :: journal) = happened e journal := by
  simp [happened, he]

theorem results_cons_of_none {a : Act} {time : Nat} {journal : List JournalEntry}
    (h : a.result? = none) : results (⟨time, a⟩ :: journal) = results journal := by
  simp [results, h]

theorem looks_cons_of_false {a : Act} {time : Nat} {journal : List JournalEntry}
    (h : a.isLook = false) : looks (⟨time, a⟩ :: journal) = looks journal := by
  simp [looks, h]

theorem happened_submitted (journal : List JournalEntry) :
    happened .submitted journal = journal.countP (·.act matches .deposited _) := by
  refine List.countP_congr fun x _ => ?_
  cases x.act with
  | waited r result => cases hs : result.status <;> simp [Act.event?, WaitStatus.event, hs]
  | looked | asked | refused | deposited | saved => simp [Act.event?]

theorem happened_failed (journal : List JournalEntry) :
    happened .failed journal = journal.countP (·.act matches .refused _) := by
  refine List.countP_congr fun x _ => ?_
  cases x.act with
  | waited r result => cases hs : result.status <;> simp [Act.event?, WaitStatus.event, hs]
  | looked | asked | refused | deposited | saved => simp [Act.event?]

theorem event_eq_iff {a b : WaitStatus} : a.event = b.event ↔ a = b := by
  cases a <;> cases b <;> simp [WaitStatus.event]

theorem happened_ended (status : WaitStatus) (journal : List JournalEntry) :
    happened status.event journal = (results journal).countP (·.status = status) := by
  rw [results, List.countP_filterMap]
  refine List.countP_congr fun x _ => ?_
  cases x.act with
  | waited r result => simp [Act.event?, Act.result?, event_eq_iff]
  | looked | asked | refused | deposited | saved =>
    cases status <;> simp [Act.event?, Act.result?, WaitStatus.event]

/-! ## The books -/

/-- The counters account for a journal, and for the readings of the waits that still go on. Counts
of readings that stand at their limit say nothing any more. -/
structure OpsView.Accounts (v : OpsView) (journal : List JournalEntry) (current : List Nat) :
    Prop where
  events_eq : ∀ e, v.readiness.events.count e = v.metrics.events.count e
  happened_eq : ∀ e, v.readiness.events.count e = happened e journal
  checksOk_eq : v.readiness.checksOk =
    v.metrics.checks.count .ok + v.metrics.checks.count .fallbackOk
  checksFailed_eq : v.readiness.checksFailed = v.metrics.checks.count .error
  readings_eq : (∀ r ∈ results journal, r.attempts < maxCount) → (∀ n ∈ current, n < maxCount) →
    v.readiness.checksOk + v.readiness.checksFailed =
      looks journal + ((results journal).map (·.attempts)).sum + current.sum

namespace OpsView.Accounts

variable {v : OpsView} {journal : List JournalEntry} {current current' : List Nat} {now time : Nat}
  {r : BridgeRecord} {result : WaitResult} {a : Act} {e : BridgeEvent}

theorem initial (staleAfter : Nat) : (⟨.initial staleAfter, .initial⟩ : OpsView).Accounts [] [] where
  events_eq e := by cases e <;> rfl
  happened_eq e := by cases e <;> rfl
  checksOk_eq := rfl
  checksFailed_eq := rfl
  readings_eq _ _ := rfl

theorem perm (h : v.Accounts journal current) (hp : current.Perm current') :
    v.Accounts journal current' where
  events_eq := h.events_eq
  happened_eq := h.happened_eq
  checksOk_eq := h.checksOk_eq
  checksFailed_eq := h.checksFailed_eq
  readings_eq hended hcurrent := by
    have hsum : current.sum = current'.sum := hp.sum_nat
    have hread := h.readings_eq hended fun n hn => hcurrent n (hp.mem_iff.mp hn)
    omega

theorem setInFlight (h : v.Accounts journal current) (b : Bool) :
    OpsView.Accounts { v with readiness := { v.readiness with inFlight := b } } journal current :=
  ⟨h.events_eq, h.happened_eq, h.checksOk_eq, h.checksFailed_eq, h.readings_eq⟩

theorem beginShutdown (h : v.Accounts journal current) :
    OpsView.Accounts { v with readiness := v.readiness.beginShutdown } journal current :=
  ⟨h.events_eq, h.happened_eq, h.checksOk_eq, h.checksFailed_eq, h.readings_eq⟩

theorem refresh (h : v.Accounts journal current) (now : Nat) :
    (v.refresh now).Accounts journal current :=
  ⟨h.events_eq, h.happened_eq, h.checksOk_eq, h.checksFailed_eq, h.readings_eq⟩

/-- A wait that begins has read nothing. -/
theorem began (h : v.Accounts journal current) : v.Accounts journal (0 :: current) where
  events_eq := h.events_eq
  happened_eq := h.happened_eq
  checksOk_eq := h.checksOk_eq
  checksFailed_eq := h.checksFailed_eq
  readings_eq hended hcurrent := by
    have hread := h.readings_eq hended fun n hn => hcurrent n (List.mem_cons_of_mem 0 hn)
    rw [List.sum_cons]
    omega

/-- An act that is no event and no reading is not counted. -/
theorem noted (h : v.Accounts journal current) (he : a.event? = none) (hl : a.isLook = false) :
    v.Accounts (⟨time, a⟩ :: journal) current := by
  have hresult : a.result? = none := by
    cases a with
    | waited => cases he
    | looked | asked | refused | deposited | saved => rfl
  refine ⟨h.events_eq, ?_, h.checksOk_eq, h.checksFailed_eq, ?_⟩
  · intro e
    rw [h.happened_eq e, happened_cons_of_none he]
  · rw [results_cons_of_none hresult, looks_cons_of_false hl]
    exact h.readings_eq

theorem count_recordEvent (h : v.Accounts journal current) (he : a.event? = some e) (time : Nat)
    (e' : BridgeEvent) :
    (v.recordEvent e).readiness.events.count e' = (v.recordEvent e).metrics.events.count e' ∧
      (v.recordEvent e).readiness.events.count e' = happened e' (⟨time, a⟩ :: journal) := by
  have hagree := h.events_eq e'
  have htold := h.happened_eq e'
  have hreadiness := Metrics.Tally.count_bump v.readiness.events e e'
  have hmetrics := Metrics.Tally.count_bump v.metrics.events e e'
  have hjournal := happened_cons he time journal e'
  constructor
  · exact hreadiness.trans (by rw [hagree]; exact hmetrics.symm)
  · exact hreadiness.trans (by rw [htold]; exact hjournal.symm)

theorem answered (h : v.Accounts journal current) (he : a.event? = some e)
    (hresult : a.result? = none) : (v.recordEvent e).Accounts (⟨time, a⟩ :: journal) current := by
  have hlook : a.isLook = false := by
    cases a with
    | looked => cases he
    | asked | refused | deposited | saved | waited => rfl
  have hcount := h.count_recordEvent he time
  refine ⟨fun e => (hcount e).1, fun e => (hcount e).2, h.checksOk_eq, h.checksFailed_eq, ?_⟩
  rw [results_cons_of_none hresult, looks_cons_of_false hlook]
  exact h.readings_eq

/-- The readings of a wait that ends go over to the journal. -/
theorem ended (h : v.Accounts journal (result.attempts :: current)) :
    (v.recordEvent result.status.event).Accounts (⟨time, .waited r result⟩ :: journal) current := by
  have hresults : results (⟨time, .waited r result⟩ :: journal) = result :: results journal := rfl
  have hcount := h.count_recordEvent (a := .waited r result) rfl time
  refine ⟨fun e => (hcount e).1, fun e => (hcount e).2, h.checksOk_eq, h.checksFailed_eq, ?_⟩
  rw [hresults, looks_cons_of_false rfl]
  intro hended hcurrent
  have hread := h.readings_eq (fun x hx => hended x (List.mem_cons_of_mem _ hx)) (by
    intro n hn
    rcases List.mem_cons.mp hn with rfl | hn
    · exact hended result List.mem_cons_self
    · exact hcurrent n hn)
  rw [List.sum_cons] at hread
  rw [List.map_cons, List.sum_cons]
  show v.readiness.checksOk + v.readiness.checksFailed = _
  omega

/-! ### Readings -/

/-- A reading is one check more on both sides. -/
theorem checks_recordReading (h : v.Accounts journal current) (now : Nat)
    (x : Except ReadError Reading) :
    (v.recordReading now x).readiness.checksOk =
        (v.recordReading now x).metrics.checks.count .ok +
          (v.recordReading now x).metrics.checks.count .fallbackOk ∧
      (v.recordReading now x).readiness.checksFailed =
        (v.recordReading now x).metrics.checks.count .error ∧
      (v.recordReading now x).readiness.checksOk + (v.recordReading now x).readiness.checksFailed =
        v.readiness.checksOk + v.readiness.checksFailed + 1 := by
  have hok := h.checksOk_eq
  have hfailed := h.checksFailed_eq
  have hbump := Metrics.Tally.count_bump v.metrics.checks
  cases x with
  | error why =>
    refine ⟨?_, ?_, ?_⟩
    · show v.readiness.checksOk = (v.metrics.checks.bump .error).count .ok +
        (v.metrics.checks.bump .error).count .fallbackOk
      simp [hbump, hok]
    · show v.readiness.checksFailed + 1 = (v.metrics.checks.bump .error).count .error
      simp [hbump, hfailed]
    · show v.readiness.checksOk + (v.readiness.checksFailed + 1) = _
      omega
  | ok reading =>
    refine ⟨?_, ?_, ?_⟩
    · show v.readiness.checksOk + 1 = (v.metrics.checks.bump reading.path.outcome).count .ok +
        (v.metrics.checks.bump reading.path.outcome).count .fallbackOk
      cases reading.path with
      | primary => simp [hbump, hok, ReadPath.outcome]; omega
      | fallback => simp [hbump, hok, ReadPath.outcome]; omega
    · show v.readiness.checksFailed = (v.metrics.checks.bump reading.path.outcome).count .error
      cases reading.path with
      | primary => simp [hbump, hfailed, ReadPath.outcome]
      | fallback => simp [hbump, hfailed, ReadPath.outcome]
    · show v.readiness.checksOk + 1 + v.readiness.checksFailed = _
      omega

theorem events_recordReading (v : OpsView) (now : Nat) (x : Except ReadError Reading) :
    (v.recordReading now x).readiness.events = v.readiness.events ∧
      (v.recordReading now x).metrics.events = v.metrics.events := by
  cases x with
  | error why => exact ⟨rfl, rfl⟩
  | ok reading => exact ⟨rfl, rfl⟩

theorem looked (h : v.Accounts journal current) (x : Except ReadError Reading) :
    (v.recordReading now x).Accounts (⟨time, .looked x⟩ :: journal) current := by
  obtain ⟨hok, hfailed, hone⟩ := h.checks_recordReading now x
  obtain ⟨hreadiness, hmetrics⟩ := events_recordReading v now x
  have hlooks : looks (⟨time, .looked x⟩ :: journal) = looks journal + 1 := by
    simp [looks, Act.isLook]
  refine ⟨fun e => ?_, fun e => ?_, hok, hfailed, fun hended hcurrent => ?_⟩
  · rw [hreadiness, hmetrics]
    exact h.events_eq e
  · rw [hreadiness, h.happened_eq e, happened_cons_of_none rfl]
  · have hread := h.readings_eq hended hcurrent
    rw [hone, hlooks]
    show _ = looks journal + 1 + ((results journal).map (·.attempts)).sum + current.sum
    omega

/-- A reading of a wait is counted by the wait. -/
theorem read {n : Nat} (h : v.Accounts journal (n :: current)) (x : Except ReadError Reading) :
    (v.recordReading now x).Accounts journal (countOne n :: current) := by
  obtain ⟨hok, hfailed, hone⟩ := h.checks_recordReading now x
  obtain ⟨hreadiness, hmetrics⟩ := events_recordReading v now x
  refine ⟨fun e => ?_, fun e => ?_, hok, hfailed, fun hended hcurrent => ?_⟩
  · rw [hreadiness, hmetrics]
    exact h.events_eq e
  · rw [hreadiness]
    exact h.happened_eq e
  · -- The count stands below its limit after the reading, so it did before.
    have hcount : countOne n < maxCount := hcurrent _ List.mem_cons_self
    have hone' : countOne n = n + 1 := by
      unfold countOne at hcount ⊢
      omega
    have hread := h.readings_eq hended (by
      intro m hm
      rcases List.mem_cons.mp hm with rfl | hm
      · omega
      · exact hcurrent m (List.mem_cons_of_mem _ hm))
    rw [List.sum_cons] at hread
    rw [hone, List.sum_cons, hone']
    omega

end OpsView.Accounts

/-! ## Waits -/

section Waits

variable {m : Monitor} {link : NodeLink ω} {t : Moment} {x y : Wait} {w w' : ω} {v v' : OpsView}
  {p : Progress Wait WaitResult}

/-- The counts of readings of a wait that may have ended. -/
def Wait.attempts : Progress Wait WaitResult → Nat
  | .pending x => x.seen.attempts
  | .done result => result.attempts

theorem Wait.BalanceLook.attempts {a : Option (Except ReadError Reading)}
    (h : BalanceLook m link t x w a y) :
    y.seen.attempts = if a.isSome then countOne x.seen.attempts else x.seen.attempts := by
  cases h with
  | idle => rfl
  | unanswered => rfl
  | answered hp hw =>
    rename_i r
    cases r <;> rfl

theorem Wait.MessageLook.attempts {b : Option (Except RollupError Bool)}
    (h : MessageLook link t x w b y) : y.seen.attempts = x.seen.attempts := by
  cases h with
  | unknown => rfl
  | idle => rfl
  | unanswered => rfl
  | answered hm hp hw =>
    rename_i r
    cases r <;> rfl

theorem Wait.Look.attempts {a : Option (Except ReadError Reading)}
    {b : Option (Except RollupError Bool)} (h : Look m link t x w a b p) :
    Wait.attempts p = if a.isSome then countOne x.seen.attempts else x.seen.attempts := by
  cases h with
  | aborted => rfl
  | timeout => rfl
  | rose hc hd hb hr => exact hb.attempts
  | ready hc hd hb hr hm => exact hm.attempts.trans hb.attempts
  | pending hc hd hb hr hm hn => exact hm.attempts.trans hb.attempts

theorem Wait.pollBalance_view (hc : t.cancelled = false) (hd : t.now < x.deadline) :
    (x.pollBalance m link t w v).2.2.2 =
      (x.reading? m link t w).elim v (v.recordReading t.wall.toNat) := by
  have hgo : ¬(t.cancelled = true ∨ x.deadline ≤ t.now) := by simp [hc]; omega
  rw [reading?, if_neg hgo, pollBalance]
  cases hp : x.balance.rouse .primary t.now with
  | asking φ i =>
    rcases hw : m.pollRead link φ w with ⟨p, w'⟩
    cases p with
    | pending ψ => simp [hw, Progress.result?]
    | done r => simp [hw, Progress.result?]
  | sleeping wake i => rfl
  | off => rfl

theorem Wait.poll_view (h : x.poll m link t w v = (p, w', v')) :
    v' = (x.reading? m link t w).elim v (v.recordReading t.wall.toNat) := by
  rw [poll] at h
  by_cases hc : t.cancelled = true
  · rw [if_pos hc] at h
    cases h
    simp [reading?, hc]
  by_cases hd : x.deadline ≤ t.now
  · rw [if_neg hc, if_pos hd] at h
    cases h
    simp [reading?, hd]
  have hview : (x.pollBalance m link t w v).2.2.2 = _ :=
    pollBalance_view (by simpa using hc) (by omega)
  rw [if_neg hc, if_neg hd] at h
  rcases hbalance : x.pollBalance m link t w v with ⟨up, y, w₁, v₁⟩
  rw [hbalance] at h hview
  cases up with
  | true =>
    cases h
    exact hview
  | false =>
    simp only at h
    rcases hmessage : y.pollMessage link t w₁ with ⟨ready, z, w₂⟩
    rw [hmessage] at h
    cases ready with
    | true =>
      cases h
      exact hview
    | false =>
      cases h
      exact hview

/-- What a look reads is counted by the wait and by both sets of counters. -/
theorem OpsView.Accounts.poll {journal : List JournalEntry} {current : List Nat}
    (h : v.Accounts journal (x.seen.attempts :: current))
    (hpoll : x.poll m link t w v = (p, w', v')) :
    v'.Accounts journal (Wait.attempts p :: current) := by
  have hlook : Wait.Look m link t x w _ (x.check? m link t w v) (x.poll m link t w v).1 :=
    Wait.poll_look
  rw [hpoll] at hlook
  rw [Wait.poll_view hpoll, hlook.attempts]
  cases x.reading? m link t w with
  | none => exact h
  | some reading => exact h.read reading

end Waits

/-! ## Ticks and recoveries -/

namespace Controller

theorem view_persist (s : RecordStore σ) (now : Nat) (r : BridgeRecord) (c : Controller ω σ) :
    (c.persist s now r).view = c.view := by
  rw [persist_eq]
  rfl

theorem view_settle (s : RecordStore σ) (cooldown now : Nat) (r : BridgeRecord)
    (result : WaitResult) (c : Controller ω σ) :
    (c.settle s cooldown now r result).view = c.view.recordEvent result.status.event := by
  by_cases h : result.status = .confirmed
  · rw [settle_confirmed s cooldown now r h, h]
    rfl
  · rw [settle_of_ne s cooldown now r h]
    rfl

/-- The counters of a controller account for its journal and for the readings under way. -/
def Accounts (c : Controller ω σ) (current : List Nat) : Prop :=
  c.view.Accounts c.journal current

variable {k : Charter ω σ} {t : Moment} {c : Controller ω σ} {current : List Nat}

namespace Accounts

theorem began (h : c.Accounts current) : c.Accounts (0 :: current) := OpsView.Accounts.began h

theorem takeFlight (h : c.Accounts current) : c.takeFlight.Accounts current :=
  OpsView.Accounts.setInFlight h true

theorem endFlight (h : c.Accounts current) : c.endFlight.Accounts current :=
  OpsView.Accounts.setInFlight h false

theorem note {a : Act} (h : c.Accounts current) (now : Nat) (he : a.event? = none)
    (hl : a.isLook = false) : (c.note now a).Accounts current :=
  OpsView.Accounts.noted h he hl

theorem afterReading (h : c.Accounts current) (t : Moment) (outside : ω)
    (x : Except ReadError Reading) : (c.afterReading t outside x).Accounts current :=
  OpsView.Accounts.looked h x

theorem persist (h : c.Accounts current) (s : RecordStore σ) (now : Nat) (r : BridgeRecord) :
    (c.persist s now r).Accounts current := by
  rw [Accounts, view_persist, journal_persist]
  exact OpsView.Accounts.noted h rfl rfl

theorem accept (h : c.Accounts current) (d : Deposit) (s : Bridge.Submission) (r : BridgeRecord) :
    (Tick.accept k t d s r c).Accounts current := by
  have hcounted : ((c.note t.now (.deposited d)).record .submitted).Accounts current :=
    OpsView.Accounts.answered h rfl rfl
  exact persist (c := { (c.note t.now (.deposited d)).record .submitted with
    lastSubmission := some s }) hcounted k.store t.now r

theorem settle {result : WaitResult} (h : c.Accounts (result.attempts :: current))
    (s : RecordStore σ) (cooldown now : Nat) (r : BridgeRecord) :
    (c.settle s cooldown now r result).Accounts current := by
  rw [Accounts, view_settle, journal_settle]
  exact OpsView.Accounts.ended h

end Accounts
end Controller

variable {k : Charter ω σ} {t : Moment} {c c' : Controller ω σ} {current : List Nat}

/-- The readings that a wait holds, unless it has ended. -/
def Wait.held : Progress Wait WaitResult → List Nat
  | .pending x => [x.seen.attempts]
  | .done _ => []

theorem WaitMove.accounts {r : BridgeRecord} {x : Wait} {p : Progress Wait WaitResult}
    (hmove : WaitMove k t r x c p c') (h : c.Accounts (x.seen.attempts :: current)) :
    c'.Accounts (Wait.held p ++ current) := by
  cases hmove with
  | pending hpoll => exact OpsView.Accounts.poll h hpoll
  | @done result outside view hpoll =>
    have hread : ({ c with outside, view } : Controller ω σ).Accounts (result.attempts :: current) :=
      OpsView.Accounts.poll h hpoll
    exact hread.settle _ _ _ _

/-- The readings that the wait of a tick holds. -/
def Tick.held : Tick → List Nat
  | .bridging _ x | .resuming _ x => [x.seen.attempts]
  | .reading _ | .depositing _ _ _ => []

theorem Tick.Opening.accounts {p : Progress Tick TickOutcome} (hopen : Opening k t c p c')
    (h : c.Accounts current) : c'.Accounts ((left p).flatMap held ++ current) := by
  cases hopen with
  | taken => exact h
  | retried => exact (h.takeFlight.persist _ _ _).began
  | unloaded => exact Controller.Accounts.endFlight h.takeFlight
  | resumed => exact Controller.Accounts.began h.takeFlight
  | reads => exact h.takeFlight

theorem Tick.Move.accounts {x : Tick} {p : Progress Tick TickOutcome} (hmove : Move k t c x p c')
    (h : c.Accounts (x.held ++ current)) : c'.Accounts ((left p).flatMap held ++ current) := by
  cases hmove with
  | reads => exact h
  | unread => exact (h.afterReading _ _ _).endFlight
  | cools => exact (h.afterReading _ _ _).endFlight
  | enough => exact (h.afterReading _ _ _).endFlight
  | asks => exact (h.afterReading _ _ _).note _ rfl rfl
  | deposits => exact h
  | @refused balance secret since why outside =>
    have hcounted : (({ c with outside }.note t.now (.refused why)).record .failed).Accounts current :=
      OpsView.Accounts.answered h rfl rfl
    exact hcounted.endFlight
  | @accepted balance secret since receipt outside =>
    have hasked : ({ c with outside } : Controller ω σ).Accounts current := h
    exact (hasked.accept _ _ _).began
  | bridges hwait => exact hwait.accounts h
  | bridged hwait => exact (hwait.accounts h).endFlight
  | resumes hwait => exact hwait.accounts h
  | resumed hwait => exact (hwait.accounts h).endFlight

theorem Tick.Moves.accounts {p q : Progress Tick TickOutcome} (hmoves : Moves k t p c q c')
    (h : c.Accounts ((left p).flatMap held ++ current)) :
    c'.Accounts ((left q).flatMap held ++ current) := by
  induction hmoves with
  | none => exact h
  | more hmove _ ih => exact ih (hmove.accounts (by simpa [left] using h))

theorem Tick.start_accounts (h : c.Accounts current) :
    (start k t c).2.Accounts ((left (start k t c).1).flatMap held ++ current) := by
  obtain ⟨p, c₁, hopen, hmoves⟩ := start_moves (k := k) (t := t) c
  exact hmoves.accounts (hopen.accounts h)

theorem Tick.poll_accounts {x : Tick} (h : c.Accounts (x.held ++ current)) :
    (x.poll k t c).2.Accounts ((left (x.poll k t c).1).flatMap held ++ current) :=
  (poll_moves x c).accounts (by simpa [left] using h)

namespace Recovery

/-- The recovery that is left, unless it is done. -/
def left : Progress Recovery (Except StoreError (Option WaitResult)) → List Recovery
  | .pending x => [x]
  | .done _ => []

def held (x : Recovery) : List Nat := [x.wait.seen.attempts]

theorem Opening.accounts {p : Progress Recovery (Except StoreError (Option WaitResult))}
    (hopen : Opening k t c p c') (h : c.Accounts current) :
    c'.Accounts ((left p).flatMap held ++ current) := by
  cases hopen with
  | unloaded => exact h
  | nothing => exact h
  | found => exact Controller.Accounts.began h.takeFlight
  | foundTaken => exact h.began

theorem Move.accounts {x : Recovery} {p : Progress Recovery (Except StoreError (Option WaitResult))}
    (hmove : Move k t c x p c') (h : c.Accounts (x.held ++ current)) :
    c'.Accounts ((left p).flatMap held ++ current) := by
  cases hmove with
  | waits hwait => exact hwait.accounts h
  | ends hwait =>
    have hsettled := hwait.accounts h
    cases x.holdsFlag with
    | true => exact hsettled.endFlight
    | false => exact hsettled

theorem poll_accounts {x : Recovery} (h : c.Accounts (x.held ++ current)) :
    (x.poll k t c).2.Accounts ((left (x.poll k t c).1).flatMap held ++ current) :=
  (poll_move x c).accounts h

theorem start_accounts (h : c.Accounts current) :
    (start k t c).2.Accounts ((left (start k t c).1).flatMap held ++ current) := by
  obtain ⟨p, c₁, hopen, hrest⟩ := start_moves (k := k) (t := t) c
  have hopened := hopen.accounts h
  cases p with
  | pending x => exact Move.accounts hrest (by simpa [left] using hopened)
  | done a =>
    rw [hrest]
    exact hopened

end Recovery

/-! ## Any number of ticks and recoveries at once -/

/-- A tick or a recovery that is under way. -/
inductive Work where
  | tick (x : Tick)
  | recovery (x : Recovery)

def Work.held : Work → List Nat
  | .tick x => x.held
  | .recovery x => x.held

/-- A controller and all that is under way on it. -/
structure Workload (ω σ : Type) where
  controller : Controller ω σ
  works : List Work

namespace Workload

def start (staleAfter : Nat) (outside : ω) (store : σ) : Workload ω σ :=
  ⟨.initial staleAfter outside store, []⟩

/-- A step of a controller with all that is under way on it, at any moment. -/
inductive Step (k : Charter ω σ) : Workload ω σ → Workload ω σ → Prop where
  /-- The node, the bridge and the place where the record is kept may become anything. -/
  | changes {c : Controller ω σ} {works : List Work} (outside : ω) (store : σ) :
      Step k ⟨c, works⟩ ⟨{ c with outside, store }, works⟩
  /-- An operator looks. -/
  | refreshes {c : Controller ω σ} {works : List Work} (now : Nat) :
      Step k ⟨c, works⟩ ⟨{ c with view := c.view.refresh now }, works⟩
  | shutsDown {c : Controller ω σ} {works : List Work} : Step k ⟨c, works⟩
      ⟨{ c with view := { c.view with readiness := c.view.readiness.beginShutdown } }, works⟩
  | recovers {c : Controller ω σ} {works : List Work} (t : Moment) : Step k ⟨c, works⟩
      ⟨(Recovery.start k t c).2, works ++ (Recovery.left (Recovery.start k t c).1).map .recovery⟩
  | ticks {c : Controller ω σ} {works : List Work} (t : Moment) : Step k ⟨c, works⟩
      ⟨(Tick.start k t c).2, works ++ (Tick.left (Tick.start k t c).1).map .tick⟩
  | recovery {c : Controller ω σ} {before after : List Work} {x : Recovery} (t : Moment) :
      Step k ⟨c, before ++ .recovery x :: after⟩
        ⟨(x.poll k t c).2,
          before ++ (Recovery.left (x.poll k t c).1).map .recovery ++ after⟩
  | tick {c : Controller ω σ} {before after : List Work} {x : Tick} (t : Moment) :
      Step k ⟨c, before ++ .tick x :: after⟩
        ⟨(x.poll k t c).2, before ++ (Tick.left (x.poll k t c).1).map .tick ++ after⟩

abbrev Run (k : Charter ω σ) : Workload ω σ → Workload ω σ → Prop := ReflTransGen (Step k)

/-- The counters account for the journal and for all readings under way. -/
def Accounts (s : Workload ω σ) : Prop := s.controller.Accounts (s.works.flatMap Work.held)

theorem held_map_tick (xs : List Tick) :
    (xs.map Work.tick).flatMap Work.held = xs.flatMap Tick.held := by
  rw [List.flatMap_map]
  rfl

theorem held_map_recovery (xs : List Recovery) :
    (xs.map Work.recovery).flatMap Work.held = xs.flatMap Recovery.held := by
  rw [List.flatMap_map]
  rfl

/-- What one piece of work holds may stand before what the others hold. -/
theorem perm_held (before middle after : List Work) :
    ((before ++ middle ++ after).flatMap Work.held).Perm
      (middle.flatMap Work.held ++ (before ++ after).flatMap Work.held) := by
  rw [← List.flatMap_append]
  refine List.Perm.flatMap_right _ ?_
  rw [← List.append_assoc]
  exact List.perm_append_comm.append_right after

theorem Accounts.step {s s' : Workload ω σ} (hstep : Step k s s') (h : s.Accounts) :
    s'.Accounts := by
  cases hstep with
  | changes outside store => exact h
  | refreshes now => exact OpsView.Accounts.refresh h now
  | shutsDown => exact OpsView.Accounts.beginShutdown h
  | recovers t =>
    rw [Accounts, List.flatMap_append, held_map_recovery]
    exact OpsView.Accounts.perm (Recovery.start_accounts h) List.perm_append_comm
  | ticks t =>
    rw [Accounts, List.flatMap_append, held_map_tick]
    exact OpsView.Accounts.perm (Tick.start_accounts h) List.perm_append_comm
  | @recovery c before after x t =>
    have hfirst : c.Accounts (x.held ++ (before ++ after).flatMap Work.held) := by
      refine OpsView.Accounts.perm h ?_
      simpa [Work.held] using perm_held before [.recovery x] after
    have hnext := Recovery.poll_accounts (k := k) (t := t) hfirst
    rw [← held_map_recovery] at hnext
    exact OpsView.Accounts.perm hnext (perm_held _ _ _).symm
  | @tick c before after x t =>
    have hfirst : c.Accounts (x.held ++ (before ++ after).flatMap Work.held) := by
      refine OpsView.Accounts.perm h ?_
      simpa [Work.held] using perm_held before [.tick x] after
    have hnext := Tick.poll_accounts (k := k) (t := t) hfirst
    rw [← held_map_tick] at hnext
    exact OpsView.Accounts.perm hnext (perm_held _ _ _).symm

theorem Accounts.run {s s' : Workload ω σ} (hrun : Run k s s') (h : s.Accounts) : s'.Accounts := by
  induction hrun with
  | refl => exact h
  | tail _ hstep ih => exact ih.step hstep

theorem accounts_start (staleAfter : Nat) (outside : ω) (store : σ) :
    (start staleAfter outside store : Workload ω σ).Accounts :=
  .initial staleAfter

/-- Wherever the work on a controller is interrupted, its counters account for what happened: both
sets of counters have the same events, each as often as it happened; both have the same checks of
the balance; and these are the readings of ticks, of the waits that have ended and of the waits that
go on. -/
theorem run_accounts {staleAfter : Nat} {outside : ω} {store : σ} {s : Workload ω σ}
    (h : Run k (start staleAfter outside store) s) :
    let view := s.controller.view
    let journal := s.controller.journal
    let held := s.works.flatMap Work.held
    (∀ e, view.readiness.events.count e = view.metrics.events.count e) ∧
      view.readiness.events.count .submitted = journal.countP (·.act matches .deposited _) ∧
      view.readiness.events.count .failed = journal.countP (·.act matches .refused _) ∧
      (∀ status : WaitStatus, view.readiness.events.count status.event =
        (results journal).countP (·.status = status)) ∧
      view.readiness.checksOk =
        view.metrics.checks.count .ok + view.metrics.checks.count .fallbackOk ∧
      view.readiness.checksFailed = view.metrics.checks.count .error ∧
      ((∀ r ∈ results journal, r.attempts < maxCount) → (∀ n ∈ held, n < maxCount) →
        view.readiness.checksOk + view.readiness.checksFailed =
          ((results journal).map (·.attempts)).sum + held.sum + looks journal) := by
  have hend := (accounts_start (σ := σ) staleAfter outside store).run h
  refine ⟨hend.events_eq, ?_, ?_, fun status => ?_, hend.checksOk_eq, hend.checksFailed_eq, ?_⟩
  · rw [hend.happened_eq, happened_submitted]
  · rw [hend.happened_eq, happened_failed]
  · rw [hend.happened_eq, happened_ended]
  · intro hended hheld
    have hread := hend.readings_eq hended hheld
    omega

/-- A deposit is waited for, the wait is cut short and begun again while another tick finds the flag
taken: four readings of the balance, one of them by a tick itself. -/
theorem run_accounts_resumed : ∃ s : Workload Offline ShakyDisk,
    Run Session.offlineCharter ⟨(Session.offlineStart [true, true, false, false]).controller, []⟩ s ∧
      s.controller.view.readiness.events.count .submitted = 1 ∧
      s.controller.view.readiness.events.count .aborted = 1 ∧
      s.works.flatMap Work.held = [1] ∧
      s.controller.view.readiness.checksOk + s.controller.view.readiness.checksFailed =
        2 + 1 + 1 := by
  have hrun : Run Session.offlineCharter
      ⟨(Session.offlineStart [true, true, false, false]).controller, []⟩ _ :=
    .tail (.tail (.tail (.tail (.tail (.single (.recovers ⟨0, 0, false, 0⟩))
      (.ticks ⟨0, 0, false, 0⟩)) (.ticks ⟨5, 5, false, 0⟩))
      (@Step.tick _ _ _ _ [] [] _ ⟨10, 10, false, 0⟩))
      (@Step.tick _ _ _ _ [] [] _ ⟨20, 20, true, 0⟩)) (.ticks ⟨30, 30, false, 0⟩)
  obtain ⟨-, hsubmitted, -, hended, -, -, hread⟩ := run_accounts hrun
  exact ⟨_, hrun, hsubmitted, hended .aborted, rfl, hread (by decide) (by decide)⟩

end Workload

/-! ## Sessions -/

def Stage.works : Stage → List Work
  | .idle => []
  | .recovering x => [.recovery x]
  | .ticking ticks => ticks.map .tick

namespace Session

/-- A session as a controller with all that is under way. -/
def workload (s : Session ω σ) : Workload ω σ := ⟨s.controller, s.stage.works⟩

variable {path : String} {disk : σ → Disk} {s s' : Session ω σ}

theorem Step.workload (h : Step k path disk s s') : Workload.Run k s.workload s'.workload := by
  cases h with
  | drifts h _ =>
    cases h with
    | outside w => exact .single (.changes w _)
    | store x _ => exact .single (.changes _ x)
    | refreshed now => exact .single (.refreshes now)
    | shutdown => exact .single .shutsDown
  | @recovers c t _ =>
    have hstep : Workload.Step k ⟨c, []⟩ _ := .recovers t
    rcases hp : Recovery.start k t c with ⟨p, c'⟩
    rw [hp] at hstep
    cases p <;> exact .single hstep
  | @recovery c x t _ =>
    have hstep : Workload.Step k ⟨c, [] ++ .recovery x :: []⟩ _ := .recovery t
    rcases hp : x.poll k t c with ⟨p, c'⟩
    rw [hp] at hstep
    cases p <;> exact .single hstep
  | ready => exact .refl
  | ticks t _ =>
    rw [Session.workload, Session.workload, Stage.works, Stage.works, List.map_append]
    exact .single (.ticks t)
  | tick t _ =>
    rw [Session.workload, Session.workload, Stage.works, Stage.works, List.map_append,
      List.map_append, List.map_append, List.map_cons]
    exact .single (.tick t)

theorem Run.accounts {staleAfter : Nat} {outside : ω} {store : σ}
    (h : Run k path disk (start staleAfter outside store) s) : s.workload.Accounts := by
  induction h with
  | refl => exact Workload.accounts_start (ω := ω) (σ := σ) staleAfter outside store
  | tail _ hstep ih => exact ih.run hstep.workload

end Session
end Paymaster.Reserve

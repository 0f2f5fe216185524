import Paymaster.Proofs.Reserve.WaitRun
import Paymaster.Reserve.Controller
/-!
# Moves of ticks and recoveries

One step of a tick may do much at once: it may load the record, read the balance, make a deposit,
keep its record and see the deposit arrive, if all answers are there. Here such a step is taken
apart into moves, each of which ends at the next question. The moves say all that a tick and a
recovery can do to the controller they run on, so a property that every move keeps is kept by all
steps.
-/

namespace Paymaster.Reserve

open Bridge (ClaimSecret DepositReceipt Submission)

variable {ω σ : Type}

/-! ## What the controller does -/

namespace Controller

/-- A deposit, or a wait for one, is in flight. -/
def inFlight (c : Controller ω σ) : Bool := c.view.readiness.inFlight

/-- The controller with the flag taken. -/
def takeFlight (c : Controller ω σ) : Controller ω σ :=
  { c with view := { c.view with readiness := { c.view.readiness with inFlight := true } } }

/-- The controller after a reading of the balance that a tick has asked for. -/
def afterReading (t : Moment) (outside : ω) (r : Except ReadError Reading) (c : Controller ω σ) :
    Controller ω σ :=
  { c with outside, view := c.view.recordReading t.wall.toNat r }.note t.now (.looked r)

theorem beginFlight?_eq (c : Controller ω σ) :
    c.beginFlight? = if c.inFlight then none else some c.takeFlight := by
  rw [beginFlight?, Readiness.beginFlight?, inFlight]
  cases c.view.readiness.inFlight <;> rfl

section Fields

variable {c : Controller ω σ} {now cooldown : Nat} {a : Act} {e : BridgeEvent} {t : Moment}
  {outside : ω} {reading : Except ReadError Reading}

@[simp] theorem journal_note : (c.note now a).journal = ⟨now, a⟩ :: c.journal := rfl

@[simp] theorem store_note : (c.note now a).store = c.store := rfl

@[simp] theorem unpersisted_note : (c.note now a).unpersisted = c.unpersisted := rfl

@[simp] theorem inFlight_note : (c.note now a).inFlight = c.inFlight := rfl

@[simp] theorem journal_record : (c.record e).journal = c.journal := rfl

@[simp] theorem store_record : (c.record e).store = c.store := rfl

@[simp] theorem unpersisted_record : (c.record e).unpersisted = c.unpersisted := rfl

@[simp] theorem inFlight_record : (c.record e).inFlight = c.inFlight := rfl

@[simp] theorem journal_takeFlight : c.takeFlight.journal = c.journal := rfl

@[simp] theorem store_takeFlight : c.takeFlight.store = c.store := rfl

@[simp] theorem unpersisted_takeFlight : c.takeFlight.unpersisted = c.unpersisted := rfl

@[simp] theorem inFlight_takeFlight : c.takeFlight.inFlight = true := rfl

@[simp] theorem journal_endFlight : c.endFlight.journal = c.journal := rfl

@[simp] theorem store_endFlight : c.endFlight.store = c.store := rfl

@[simp] theorem outside_endFlight : c.endFlight.outside = c.outside := rfl

@[simp] theorem unpersisted_endFlight : c.endFlight.unpersisted = c.unpersisted := rfl

@[simp] theorem inFlight_endFlight : c.endFlight.inFlight = false := rfl

@[simp] theorem journal_afterReading :
    (c.afterReading t outside reading).journal = ⟨t.now, .looked reading⟩ :: c.journal := rfl

@[simp] theorem store_afterReading : (c.afterReading t outside reading).store = c.store := rfl

@[simp] theorem unpersisted_afterReading :
    (c.afterReading t outside reading).unpersisted = c.unpersisted := rfl

@[simp] theorem inFlight_afterReading :
    (c.afterReading t outside reading).inFlight = c.inFlight := by
  cases reading <;> rfl

end Fields

/-- Keeping a record is noted with its outcome; a record that cannot be written stays in memory. -/
theorem persist_eq (s : RecordStore σ) (now : Nat) (r : BridgeRecord) (c : Controller ω σ) :
    c.persist s now r = { c.note now (.saved r (s.save r c.store).1) with
      store := (s.save r c.store).2
      unpersisted := match (s.save r c.store).1 with
        | .ok () => none
        | .error _ => some r } := by
  rw [persist]
  rcases s.save r c.store with ⟨outcome, store⟩
  cases outcome with
  | ok done => rfl
  | error why => rfl

theorem settle_confirmed (s : RecordStore σ) (cooldown now : Nat) (r : BridgeRecord)
    {result : WaitResult} (h : result.status = .confirmed) (c : Controller ω σ) :
    c.settle s cooldown now r result = { (c.note now (.waited r result)).record .confirmed with
      store := (s.clear c.store).2
      unpersisted := none
      cooldownUntil := some (now + cooldown) } := by
  simp only [settle, h]
  rfl

theorem settle_of_ne (s : RecordStore σ) (cooldown now : Nat) (r : BridgeRecord)
    {result : WaitResult} (h : result.status ≠ .confirmed) (c : Controller ω σ) :
    c.settle s cooldown now r result =
      (c.note now (.waited r result)).record result.status.event := by
  simp only [settle]

@[simp] theorem journal_persist (s : RecordStore σ) (now : Nat) (r : BridgeRecord)
    (c : Controller ω σ) : (c.persist s now r).journal =
      ⟨now, .saved r (s.save r c.store).1⟩ :: c.journal := by
  rw [persist_eq]
  rfl

@[simp] theorem cooldownUntil_persist (s : RecordStore σ) (now : Nat) (r : BridgeRecord)
    (c : Controller ω σ) : (c.persist s now r).cooldownUntil = c.cooldownUntil := by
  rw [persist_eq]
  rfl

@[simp] theorem journal_settle (s : RecordStore σ) (cooldown now : Nat) (r : BridgeRecord)
    (result : WaitResult) (c : Controller ω σ) :
    (c.settle s cooldown now r result).journal = ⟨now, .waited r result⟩ :: c.journal := by
  by_cases h : result.status = .confirmed
  · rw [settle_confirmed s cooldown now r h]
    rfl
  · rw [settle_of_ne s cooldown now r h]
    rfl

@[simp] theorem outside_settle (s : RecordStore σ) (cooldown now : Nat) (r : BridgeRecord)
    (result : WaitResult) (c : Controller ω σ) :
    (c.settle s cooldown now r result).outside = c.outside := by
  by_cases h : result.status = .confirmed
  · rw [settle_confirmed s cooldown now r h]
    rfl
  · rw [settle_of_ne s cooldown now r h]
    rfl

@[simp] theorem inFlight_persist (s : RecordStore σ) (now : Nat) (r : BridgeRecord)
    (c : Controller ω σ) : (c.persist s now r).inFlight = c.inFlight := by
  rw [persist_eq]
  rfl

@[simp] theorem inFlight_settle (s : RecordStore σ) (cooldown now : Nat) (r : BridgeRecord)
    (result : WaitResult) (c : Controller ω σ) :
    (c.settle s cooldown now r result).inFlight = c.inFlight := by
  by_cases h : result.status = .confirmed
  · rw [settle_confirmed s cooldown now r h]
    rfl
  · rw [settle_of_ne s cooldown now r h]
    rfl

end Controller

/-- The request for a deposit that a tick makes at a moment. -/
def Charter.requestAt (k : Charter ω σ) (secret : ClaimSecret) : Bridge.DepositRequest :=
  Bridge.requestFor k.monitor.facility k.policy.amount secret

/-- The deposit that a receipt answers to. -/
def Charter.depositOf (k : Charter ω σ) (t : Moment) (balance : Amount) (secret : ClaimSecret)
    (receipt : DepositReceipt) : Deposit :=
  ⟨balance, k.requestAt secret, receipt, t.wall⟩

/-- What is kept of a deposit that a receipt answers to, its secret included. -/
def Charter.submissionOf (k : Charter ω σ) (secret : ClaimSecret) (receipt : DepositReceipt) :
    Submission :=
  ⟨k.policy.amount, secret, (k.requestAt secret).secretHash, receipt⟩

/-- The record of a deposit. -/
def Deposit.record (d : Deposit) : BridgeRecord :=
  ⟨d.baseline, d.request.amount, d.request.secretHash, d.receipt.messageHash, d.receipt.leafIndex,
    d.wall⟩

variable {k : Charter ω σ} {t : Moment}

/-! ## Waits -/

/-- How a wait on a record goes on within a controller. -/
inductive WaitMove (k : Charter ω σ) (t : Moment) (r : BridgeRecord) (x : Wait)
    (c : Controller ω σ) : Progress Wait WaitResult → Controller ω σ → Prop where
  /-- It goes on. -/
  | pending {y : Wait} {outside : ω} {view : OpsView}
      (h : x.poll k.monitor k.node t c.outside c.view = (.pending y, outside, view)) :
      WaitMove k t r x c (.pending y) { c with outside, view }
  /-- It ends and is settled. -/
  | done {result : WaitResult} {outside : ω} {view : OpsView}
      (h : x.poll k.monitor k.node t c.outside c.view = (.done result, outside, view)) :
      WaitMove k t r x c (.done result)
        ({ c with outside, view }.settle k.store k.policy.cooldown t.now r result)

theorem pollWait_move (r : BridgeRecord) (x : Wait) (c : Controller ω σ) :
    WaitMove k t r x c (k.pollWait t r x c).1 (k.pollWait t r x c).2 := by
  rw [Charter.pollWait]
  rcases h : x.poll k.monitor k.node t c.outside c.view with ⟨p, outside, view⟩
  cases p with
  | pending y => exact .pending h
  | done result => exact .done h

/-! ## Ticks -/

namespace Tick

/-- How a tick opens. -/
inductive Opening (k : Charter ω σ) (t : Moment) (c : Controller ω σ) :
    Progress Tick TickOutcome → Controller ω σ → Prop where
  /-- The flag is taken. -/
  | taken (hflag : c.inFlight = true) : Opening k t c (.done .skippedInFlight) c
  /-- A record that could not be written is written again and waited for. -/
  | retried {r : BridgeRecord} (hflag : c.inFlight = false)
      (hr : c.unpersisted = some r) :
      Opening k t c (.pending (.resuming r (k.resume r t)))
        (c.takeFlight.persist k.store t.now r)
  /-- The store cannot be read. -/
  | unloaded {why : StoreError} {store : σ} (hflag : c.inFlight = false)
      (hr : c.unpersisted = none) (hload : k.store.load c.store = (.error why, store)) :
      Opening k t c (.done .storeFailed) { c.takeFlight with store }.endFlight
  /-- A record that is kept is waited for. -/
  | resumed {r : BridgeRecord} {store : σ} (hflag : c.inFlight = false)
      (hr : c.unpersisted = none) (hload : k.store.load c.store = (.ok (some r), store)) :
      Opening k t c (.pending (.resuming r (k.resume r t))) { c.takeFlight with store }
  /-- No record is kept, so the balance is read. -/
  | reads {store : σ} (hflag : c.inFlight = false) (hr : c.unpersisted = none)
      (hload : k.store.load c.store = (.ok none, store)) :
      Opening k t c (.pending (.reading .primary)) { c.takeFlight with store }

/-- What a tick does up to its next question. -/
inductive Move (k : Charter ω σ) (t : Moment) (c : Controller ω σ) :
    Tick → Progress Tick TickOutcome → Controller ω σ → Prop where
  /-- The balance is not known yet. -/
  | reads {phase phase' : ReadPhase} {outside : ω}
      (h : k.monitor.pollRead k.node phase c.outside = (.pending phase', outside)) :
      Move k t c (.reading phase) (.pending (.reading phase')) { c with outside }
  /-- The balance cannot be read. -/
  | unread {phase : ReadPhase} {why : ReadError} {outside : ω}
      (h : k.monitor.pollRead k.node phase c.outside = (.done (.error why), outside)) :
      Move k t c (.reading phase) (.done .balanceReadFailed)
        (c.afterReading t outside (.error why)).endFlight
  /-- The last deposit arrived only just. -/
  | cools {phase : ReadPhase} {r : Reading} {outside : ω}
      (h : k.monitor.pollRead k.node phase c.outside = (.done (.ok r), outside))
      (hcool : c.coolingDown t.now = true) :
      Move k t c (.reading phase) (.done (.coolingDown r.balance))
        (c.afterReading t outside (.ok r)).endFlight
  /-- The balance is high enough. -/
  | enough {phase : ReadPhase} {r : Reading} {outside : ω}
      (h : k.monitor.pollRead k.node phase c.outside = (.done (.ok r), outside))
      (hcool : c.coolingDown t.now = false) (hb : k.policy.threshold ≤ r.balance) :
      Move k t c (.reading phase) (.done (.aboveThreshold r.balance))
        (c.afterReading t outside (.ok r)).endFlight
  /-- The bridge is asked for a deposit. -/
  | asks {phase : ReadPhase} {r : Reading} {outside : ω}
      (h : k.monitor.pollRead k.node phase c.outside = (.done (.ok r), outside))
      (hcool : c.coolingDown t.now = false) (hb : ¬k.policy.threshold ≤ r.balance) :
      Move k t c (.reading phase)
        (.pending (.depositing r.balance (.ofRandom t.random) t.now))
        ((c.afterReading t outside (.ok r)).note t.now
          (.asked (k.requestAt (.ofRandom t.random))))
  /-- The bridge has not answered yet. -/
  | deposits {balance : Amount} {secret : ClaimSecret} {since : Nat} {outside : ω}
      (h : k.bridge.deposit (k.requestAt secret) since t.now c.outside = (none, outside)) :
      Move k t c (.depositing balance secret since) (.pending (.depositing balance secret since))
        { c with outside }
  /-- The bridge refuses. -/
  | refused {balance : Amount} {secret : ClaimSecret} {since : Nat} {why : BridgeError} {outside : ω}
      (h : k.bridge.deposit (k.requestAt secret) since t.now c.outside
        = (some (.error why), outside)) :
      Move k t c (.depositing balance secret since) (.done .submitFailed)
        (({ c with outside }.note t.now (.refused why)).record .failed).endFlight
  /-- The bridge takes the deposit. -/
  | accepted {balance : Amount} {secret : ClaimSecret} {since : Nat} {receipt : DepositReceipt}
      {outside : ω}
      (h : k.bridge.deposit (k.requestAt secret) since t.now c.outside
        = (some (.ok receipt), outside)) :
      Move k t c (.depositing balance secret since)
        (.pending (.bridging (k.depositOf t balance secret receipt).record
          (k.waitFor (k.depositOf t balance secret receipt).record k.policy.wait.timeout t.now)))
        (accept k t (k.depositOf t balance secret receipt) (k.submissionOf secret receipt)
          (k.depositOf t balance secret receipt).record { c with outside })
  /-- The wait for the deposit goes on. -/
  | bridges {r : BridgeRecord} {x y : Wait} {c' : Controller ω σ}
      (h : WaitMove k t r x c (.pending y) c') :
      Move k t c (.bridging r x) (.pending (.bridging r y)) c'
  /-- The wait for the deposit ends. -/
  | bridged {r : BridgeRecord} {x : Wait} {result : WaitResult} {c' : Controller ω σ}
      (h : WaitMove k t r x c (.done result) c') :
      Move k t c (.bridging r x) (.done (.bridged result)) c'.endFlight
  /-- The wait for an earlier record goes on. -/
  | resumes {r : BridgeRecord} {x y : Wait} {c' : Controller ω σ}
      (h : WaitMove k t r x c (.pending y) c') :
      Move k t c (.resuming r x) (.pending (.resuming r y)) c'
  /-- The wait for an earlier record ends. -/
  | resumed {r : BridgeRecord} {x : Wait} {result : WaitResult} {c' : Controller ω σ}
      (h : WaitMove k t r x c (.done result) c') :
      Move k t c (.resuming r x) (.done (.resumed result)) c'.endFlight

/-- Some moves of a tick at one moment, one behind the other. -/
inductive Moves (k : Charter ω σ) (t : Moment) : Progress Tick TickOutcome → Controller ω σ →
    Progress Tick TickOutcome → Controller ω σ → Prop where
  /-- No move. -/
  | none {p : Progress Tick TickOutcome} {c : Controller ω σ} : Moves k t p c p c
  /-- A move and those behind it. -/
  | more {tick : Tick} {p q : Progress Tick TickOutcome} {c c' c'' : Controller ω σ}
      (h : Move k t c tick p c') (hs : Moves k t p c' q c'') : Moves k t (.pending tick) c q c''

theorem Move.single {tick : Tick} {p : Progress Tick TickOutcome} {c c' : Controller ω σ}
    (h : Move k t c tick p c') : Moves k t (.pending tick) c p c' :=
  .more h .none

theorem pollBridging_moves (r : BridgeRecord) (x : Wait) (c : Controller ω σ) :
    Moves k t (.pending (.bridging r x)) c (pollBridging k t r x c).1 (pollBridging k t r x c).2 := by
  have h := pollWait_move (k := k) (t := t) r x c
  rw [pollBridging]
  rcases hp : k.pollWait t r x c with ⟨p, c'⟩
  rw [hp] at h
  cases p with
  | pending y => exact (Move.bridges h).single
  | done result => exact (Move.bridged h).single

theorem pollResuming_moves (r : BridgeRecord) (x : Wait) (c : Controller ω σ) :
    Moves k t (.pending (.resuming r x)) c (pollResuming k t r x c).1 (pollResuming k t r x c).2 := by
  have h := pollWait_move (k := k) (t := t) r x c
  rw [pollResuming]
  rcases hp : k.pollWait t r x c with ⟨p, c'⟩
  rw [hp] at h
  cases p with
  | pending y => exact (Move.resumes h).single
  | done result => exact (Move.resumed h).single

section Answers

variable {balance : Amount} {secret : ClaimSecret} {since : Nat} {c : Controller ω σ} {outside : ω}

theorem pollDepositing_of_none
    (h : k.bridge.deposit (k.requestAt secret) since t.now c.outside = (none, outside)) :
    pollDepositing k t balance secret since c =
      (.pending (.depositing balance secret since), { c with outside }) := by
  rw [Charter.requestAt] at h
  simp only [pollDepositing, h]

theorem pollDepositing_of_error {why : BridgeError}
    (h : k.bridge.deposit (k.requestAt secret) since t.now c.outside
      = (some (.error why), outside)) :
    pollDepositing k t balance secret since c =
      leave .submitFailed (({ c with outside }.note t.now (.refused why)).record .failed) := by
  rw [Charter.requestAt] at h
  simp only [pollDepositing, h]

theorem pollDepositing_of_ok {receipt : DepositReceipt}
    (h : k.bridge.deposit (k.requestAt secret) since t.now c.outside
      = (some (.ok receipt), outside)) :
    pollDepositing k t balance secret since c =
      pollBridging k t (k.depositOf t balance secret receipt).record
        (k.waitFor (k.depositOf t balance secret receipt).record k.policy.wait.timeout t.now)
        (accept k t (k.depositOf t balance secret receipt) (k.submissionOf secret receipt)
          (k.depositOf t balance secret receipt).record { c with outside }) := by
  rw [Charter.requestAt] at h
  simp only [pollDepositing, h]
  rfl

end Answers

theorem pollDepositing_moves (balance : Amount) (secret : ClaimSecret) (since : Nat)
    (c : Controller ω σ) :
    Moves k t (.pending (.depositing balance secret since)) c
      (pollDepositing k t balance secret since c).1
      (pollDepositing k t balance secret since c).2 := by
  rcases h : k.bridge.deposit (k.requestAt secret) since t.now c.outside with ⟨answer, outside⟩
  cases answer with
  | none =>
    rw [pollDepositing_of_none h]
    exact (Move.deposits h).single
  | some answer =>
    cases answer with
    | error why =>
      rw [pollDepositing_of_error h]
      exact (Move.refused h).single
    | ok receipt =>
      rw [pollDepositing_of_ok h]
      exact .more (Move.accepted h) (pollBridging_moves _ _ _)

theorem pollReading_moves (phase : ReadPhase) (c : Controller ω σ) :
    Moves k t (.pending (.reading phase)) c (pollReading k t phase c).1
      (pollReading k t phase c).2 := by
  rw [pollReading]
  rcases h : k.monitor.pollRead k.node phase c.outside with ⟨p, outside⟩
  cases p with
  | pending phase' => exact (Move.reads h).single
  | done r =>
    cases r with
    | error why => exact (Move.unread h).single
    | ok r =>
      simp only [weigh]
      by_cases hcool : c.coolingDown t.now = true
      · rw [if_pos (by exact hcool)]
        exact (Move.cools h hcool).single
      · rw [if_neg (by exact hcool)]
        have hcool' : c.coolingDown t.now = false := by simpa using hcool
        by_cases hb : k.policy.threshold ≤ r.balance
        · rw [if_pos hb]
          exact (Move.enough h hcool' hb).single
        · rw [if_neg hb]
          exact .more (Move.asks h hcool' hb) (pollDepositing_moves _ _ _ _)

/-- A step of a tick is made of moves. -/
theorem poll_moves (tick : Tick) (c : Controller ω σ) :
    Moves k t (.pending tick) c (poll k t tick c).1 (poll k t tick c).2 := by
  cases tick with
  | reading phase => exact pollReading_moves phase c
  | depositing balance secret since => exact pollDepositing_moves balance secret since c
  | bridging r x => exact pollBridging_moves r x c
  | resuming r x => exact pollResuming_moves r x c

theorem start_of_free {c : Controller ω σ} (hflag : c.inFlight = false) :
    start k t c =
      match c.unpersisted with
      | some r => pollResuming k t r (k.resume r t) (c.takeFlight.persist k.store t.now r)
      | none =>
        match k.store.load c.store with
        | (.error _, store) => leave .storeFailed { c.takeFlight with store }
        | (.ok (some r), store) => pollResuming k t r (k.resume r t) { c.takeFlight with store }
        | (.ok none, store) => pollReading k t .primary { c.takeFlight with store } := by
  rw [start, Controller.beginFlight?_eq, if_neg (by simp [hflag])]
  rfl

/-- The first step of a tick is its opening, and moves behind it. -/
theorem start_moves (c : Controller ω σ) : ∃ p c', Opening k t c p c' ∧
    Moves k t p c' (start k t c).1 (start k t c).2 := by
  by_cases hflag : c.inFlight = true
  · rw [start, Controller.beginFlight?_eq, if_pos hflag]
    exact ⟨_, _, .taken hflag, .none⟩
  · have hfree : c.inFlight = false := by simpa using hflag
    rw [start_of_free hfree]
    cases hr : c.unpersisted with
    | some r => exact ⟨_, _, .retried hfree hr, pollResuming_moves _ _ _⟩
    | none =>
      rcases hload : k.store.load c.store with ⟨answer, store⟩
      cases answer with
      | error why => exact ⟨_, _, .unloaded hfree hr hload, .none⟩
      | ok kept =>
        cases kept with
        | none => exact ⟨_, _, .reads hfree hr hload, pollReading_moves _ _⟩
        | some r => exact ⟨_, _, .resumed hfree hr hload, pollResuming_moves _ _ _⟩

end Tick

/-! ## Recoveries -/

namespace Recovery

/-- How a recovery opens. -/
inductive Opening (k : Charter ω σ) (t : Moment) (c : Controller ω σ) :
    Progress Recovery (Except StoreError (Option WaitResult)) → Controller ω σ → Prop where
  /-- The store cannot be read. -/
  | unloaded {why : StoreError} {store : σ} (hload : k.store.load c.store = (.error why, store)) :
      Opening k t c (.done (.error why)) { c with store }
  /-- No record is kept. -/
  | nothing {store : σ} (hload : k.store.load c.store = (.ok none, store)) :
      Opening k t c (.done (.ok none)) { c with store }
  /-- A record is kept, and the flag is free. -/
  | found {r : BridgeRecord} {store : σ} (hload : k.store.load c.store = (.ok (some r), store))
      (hflag : c.inFlight = false) :
      Opening k t c (.pending ⟨r, k.resume r t, true⟩) { c.takeFlight with store }
  /-- A record is kept, but the flag is taken. -/
  | foundTaken {r : BridgeRecord} {store : σ}
      (hload : k.store.load c.store = (.ok (some r), store))
      (hflag : c.inFlight = true) :
      Opening k t c (.pending ⟨r, k.resume r t, false⟩) { c with store }

/-- What a recovery does up to its next question. -/
inductive Move (k : Charter ω σ) (t : Moment) (c : Controller ω σ) (x : Recovery) :
    Progress Recovery (Except StoreError (Option WaitResult)) → Controller ω σ → Prop where
  /-- The wait goes on. -/
  | waits {y : Wait} {c' : Controller ω σ} (h : WaitMove k t x.record x.wait c (.pending y) c') :
      Move k t c x (.pending { x with wait := y }) c'
  /-- The wait ends. -/
  | ends {result : WaitResult} {c' : Controller ω σ}
      (h : WaitMove k t x.record x.wait c (.done result) c') :
      Move k t c x (.done (.ok (some result))) (if x.holdsFlag then c'.endFlight else c')

/-- A step of a recovery is a move. -/
theorem poll_move (x : Recovery) (c : Controller ω σ) :
    Move k t c x (poll k t x c).1 (poll k t x c).2 := by
  have h := pollWait_move (k := k) (t := t) x.record x.wait c
  rw [poll]
  rcases hp : k.pollWait t x.record x.wait c with ⟨p, c'⟩
  rw [hp] at h
  cases p with
  | pending y => exact .waits h
  | done result => exact .ends h

/-- The first step of a recovery is its opening, and a move if there is a record. -/
theorem start_moves (c : Controller ω σ) : ∃ p c', Opening k t c p c' ∧
    match p with
    | .pending x => Move k t c' x (start k t c).1 (start k t c).2
    | .done _ => start k t c = (p, c') := by
  rw [start]
  rcases hload : k.store.load c.store with ⟨answer, store⟩
  cases answer with
  | error why => exact ⟨_, _, .unloaded hload, rfl⟩
  | ok kept =>
    cases kept with
    | none => exact ⟨_, _, .nothing hload, rfl⟩
    | some r =>
      simp only [Controller.beginFlight?_eq]
      by_cases hflag : c.inFlight = true
      · rw [if_pos (by exact hflag)]
        exact ⟨_, _, .foundTaken hload hflag, poll_move _ _⟩
      · rw [if_neg (by exact hflag)]
        exact ⟨_, _, .found hload (by simpa using hflag), poll_move _ _⟩

end Recovery
end Paymaster.Reserve

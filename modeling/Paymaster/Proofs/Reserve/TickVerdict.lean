import Paymaster.Proofs.Reserve.BridgeCalls
import Paymaster.Proofs.Reserve.ClaimSecret
/-!
# What a tick may do

A tick goes through its checks one after the other: the flag, the record in memory, the file, the
balance, the cooldown and the threshold. Only behind all of them is the bridge asked. Each check may
end the tick, and some of them come after the tick had to wait for an answer; so what a tick has
told so far is kept beside how far it has come, and what it must leave alone is compared with the
state in which it began.
-/

namespace Paymaster.Reserve

open Bridge (BridgeCall)

variable {ω σ : Type} {k : Charter ω σ} {t : Moment} {path : String} {disk : σ → Disk}
  {c c' c'' : Controller ω σ} {recorded : List BridgeEvent}

/-! ## What is left alone -/

/-- From one state of a controller to another the file, the record in memory, the cooldown and the
last submission are the same, and nothing but the given events was recorded. -/
structure Controller.Untouched (path : String) (disk : σ → Disk) (recorded : List BridgeEvent)
    (c c' : Controller ω σ) : Prop where
  file : (disk c'.store).readBytes path = (disk c.store).readBytes path
  unpersisted : c'.unpersisted = c.unpersisted
  cooldownUntil : c'.cooldownUntil = c.cooldownUntil
  lastSubmission : c'.lastSubmission = c.lastSubmission
  events : c'.view.readiness.events = recorded.foldl Metrics.Tally.bump c.view.readiness.events
  counted : c'.view.metrics.events = recorded.foldl Metrics.Tally.bump c.view.metrics.events

namespace Controller.Untouched

theorem refl (path : String) (disk : σ → Disk) (c : Controller ω σ) :
    c.Untouched path disk [] c := ⟨rfl, rfl, rfl, rfl, rfl, rfl⟩

theorem trans {more : List BridgeEvent} (h : c.Untouched path disk recorded c')
    (h' : c'.Untouched path disk more c'') : c.Untouched path disk (recorded ++ more) c'' where
  file := h'.file.trans h.file
  unpersisted := h'.unpersisted.trans h.unpersisted
  cooldownUntil := h'.cooldownUntil.trans h.cooldownUntil
  lastSubmission := h'.lastSubmission.trans h.lastSubmission
  events := by rw [h'.events, h.events, List.foldl_append]
  counted := by rw [h'.counted, h.counted, List.foldl_append]

theorem coolingDown (h : c.Untouched path disk recorded c') (now : Nat) :
    c'.coolingDown now = c.coolingDown now := by
  rw [Controller.coolingDown, Controller.coolingDown, h.cooldownUntil]

end Controller.Untouched

theorem Drift.untouched (h : Drift path disk c c') : c.Untouched path disk [] c' where
  file := by
    cases h with
    | store x hx => exact hx
    | outside | refreshed | shutdown => rfl
  unpersisted := h.unpersisted
  cooldownUntil := h.cooldownUntil
  lastSubmission := h.lastSubmission
  events := by cases h <;> rfl
  counted := by cases h <;> rfl

theorem Controller.untouched_afterReading (t : Moment) (outside : ω) (r : Except ReadError Reading)
    (c : Controller ω σ) : c.Untouched path disk [] (c.afterReading t outside r) where
  file := rfl
  unpersisted := rfl
  cooldownUntil := rfl
  lastSubmission := rfl
  events := by cases r <;> rfl
  counted := by cases r <;> rfl

theorem Controller.untouched_takeFlight (c : Controller ω σ) {store : σ}
    (hfile : (disk store).readBytes path = (disk c.store).readBytes path) :
    c.Untouched path disk [] { c.takeFlight with store } :=
  ⟨hfile, rfl, rfl, rfl, rfl, rfl⟩

theorem Controller.untouched_outside (c : Controller ω σ) (outside : ω) :
    c.Untouched path disk [] { c with outside } := ⟨rfl, rfl, rfl, rfl, rfl, rfl⟩

theorem Controller.untouched_note (c : Controller ω σ) (now : Nat) (a : Act) :
    c.Untouched path disk [] (c.note now a) := ⟨rfl, rfl, rfl, rfl, rfl, rfl⟩

theorem Controller.untouched_record (c : Controller ω σ) (e : BridgeEvent) :
    c.Untouched path disk [e] (c.record e) := ⟨rfl, rfl, rfl, rfl, rfl, rfl⟩

theorem Controller.untouched_endFlight (c : Controller ω σ) :
    c.Untouched path disk [] c.endFlight := ⟨rfl, rfl, rfl, rfl, rfl, rfl⟩

/-- A tick that ends when it has read the balance leaves everything alone. -/
theorem Controller.Untouched.endReading (h : c.Untouched path disk [] c') (t : Moment) (outside : ω)
    (r : Except ReadError Reading) :
    c.Untouched path disk [] (c'.afterReading t outside r).endFlight :=
  (h.trans (c'.untouched_afterReading t outside r)).trans (Controller.untouched_endFlight _)

/-! ## What a tick has told -/

/-- Nothing is in flight: the flag is free, and no record is kept in memory or in the file. -/
structure Charter.Vacant (k : Charter ω σ) (c : Controller ω σ) : Prop where
  free : c.inFlight = false
  memory : c.unpersisted = none
  file : (k.store.load c.store).1 = .ok none

/-- A reading that calls for a deposit was made at a time. -/
structure Charter.Calls (k : Charter ω σ) (c : Controller ω σ) (time : Nat) (r : Reading) :
    Prop where
  vacant : k.Vacant c
  cooled : c.coolingDown time = false
  low : r.balance < k.policy.threshold

/-- The act belongs to a wait for a record: the record is written, or the wait ends. -/
def Act.isUpkeep : Act → Bool
  | .saved _ _ | .waited _ _ => true
  | _ => false

/-- The bridge is asked. -/
def Act.isAsked : Act → Bool
  | .asked _ => true
  | _ => false

/-- The act is a question to the node or to the bridge. -/
def Act.isQuestion : Act → Bool
  | .looked _ | .asked _ => true
  | _ => false

namespace Tick

/-- How far a tick that began at a controller has come, and what it has told since, the latest
first. -/
inductive Told (k : Charter ω σ) (c : Controller ω σ) :
    Progress Tick TickOutcome → List JournalEntry → Prop where
  | skipped (hflag : c.inFlight = true) : Told k c (.done .skippedInFlight) []
  | unloaded {why : StoreError} (hfree : c.inFlight = false) (hmemory : c.unpersisted = none)
      (hload : (k.store.load c.store).1 = .error why) : Told k c (.done .storeFailed) []
  | resuming {r : BridgeRecord} {x : Wait} {news : List JournalEntry} (hfree : c.inFlight = false)
      (hkept : c.unpersisted = some r ∨
        c.unpersisted = none ∧ (k.store.load c.store).1 = .ok (some r))
      (hnews : ∀ e ∈ news, e.act.isUpkeep = true) : Told k c (.pending (.resuming r x)) news
  | resumed {r : BridgeRecord} {result : WaitResult} {news : List JournalEntry}
      (hfree : c.inFlight = false)
      (hkept : c.unpersisted = some r ∨
        c.unpersisted = none ∧ (k.store.load c.store).1 = .ok (some r))
      (hnews : ∀ e ∈ news, e.act.isUpkeep = true) : Told k c (.done (.resumed result)) news
  | reading {phase : ReadPhase} (h : k.Vacant c) : Told k c (.pending (.reading phase)) []
  | unread {time : Nat} {why : ReadError} (h : k.Vacant c) :
      Told k c (.done .balanceReadFailed) [⟨time, .looked (.error why)⟩]
  | cools {time : Nat} {r : Reading} (h : k.Vacant c) (hcool : c.coolingDown time = true) :
      Told k c (.done (.coolingDown r.balance)) [⟨time, .looked (.ok r)⟩]
  | enough {time : Nat} {r : Reading} (h : k.Vacant c) (hcool : c.coolingDown time = false)
      (hb : k.policy.threshold ≤ r.balance) :
      Told k c (.done (.aboveThreshold r.balance)) [⟨time, .looked (.ok r)⟩]
  | depositing {time : Nat} {r : Reading} {secret : Bridge.ClaimSecret} (h : k.Calls c time r) :
      Told k c (.pending (.depositing r.balance secret time))
        [⟨time, .asked (k.requestAt secret)⟩, ⟨time, .looked (.ok r)⟩]
  | refused {time time' : Nat} {r : Reading} {secret : Bridge.ClaimSecret} {why : BridgeError}
      (h : k.Calls c time r) : Told k c (.done .submitFailed)
        [⟨time', .refused why⟩, ⟨time, .asked (k.requestAt secret)⟩, ⟨time, .looked (.ok r)⟩]
  | bridging {time : Nat} {r : Reading} {d : Deposit} {secret : Bridge.ClaimSecret} {x : Wait}
      {news : List JournalEntry} (h : k.Calls c time r) (hd : d.baseline = r.balance)
      (hrequest : d.request = k.requestAt secret) (hnews : ∀ e ∈ news, e.act.isUpkeep = true)
      (time' : Nat) (outcome : Except StoreError Unit) : Told k c (.pending (.bridging d.record x))
        (news ++ [⟨time', .saved d.record outcome⟩, ⟨time', .deposited d⟩,
          ⟨time, .asked (k.requestAt secret)⟩, ⟨time, .looked (.ok r)⟩])
  | bridged {time : Nat} {r : Reading} {d : Deposit} {secret : Bridge.ClaimSecret}
      {result : WaitResult} {news : List JournalEntry} (h : k.Calls c time r)
      (hd : d.baseline = r.balance) (hrequest : d.request = k.requestAt secret)
      (hnews : ∀ e ∈ news, e.act.isUpkeep = true) (time' : Nat)
      (outcome : Except StoreError Unit) : Told k c (.done (.bridged result))
        (news ++ [⟨time', .saved d.record outcome⟩, ⟨time', .deposited d⟩,
          ⟨time, .asked (k.requestAt secret)⟩, ⟨time, .looked (.ok r)⟩])

section Told

variable {p : Progress Tick TickOutcome} {news : List JournalEntry} {time : Nat}

/-- The questions in what a tick has told: the node was asked for the balance at most once, and the
bridge was asked for a deposit after a reading that called for one. -/
inductive Questions (k : Charter ω σ) (c : Controller ω σ) : List JournalEntry → Prop where
  | none : Questions k c []
  | unread {time : Nat} {why : ReadError} : Questions k c [⟨time, .looked (.error why)⟩]
  | read {time : Nat} {r : Reading} (h : ¬k.Calls c time r) :
      Questions k c [⟨time, .looked (.ok r)⟩]
  | asked {time : Nat} {r : Reading} {secret : Bridge.ClaimSecret} (h : k.Calls c time r) :
      Questions k c [⟨time, .asked (k.requestAt secret)⟩, ⟨time, .looked (.ok r)⟩]

theorem filter_upkeep (hnews : ∀ e ∈ news, e.act.isUpkeep = true) :
    news.filter (·.act.isQuestion) = [] := by
  rw [List.filter_eq_nil_iff]
  intro e he
  have hupkeep := hnews e he
  cases hact : e.act <;> simp_all [Act.isUpkeep, Act.isQuestion]

theorem Told.questions (h : Told k c p news) :
    Questions k c (news.filter (·.act.isQuestion)) := by
  cases h with
  | skipped | unloaded | reading => exact .none
  | resuming _ _ hnews | resumed _ _ hnews =>
    rw [filter_upkeep hnews]
    exact .none
  | unread => exact .unread
  | cools _ hcool =>
    refine .read fun hcalls => ?_
    rw [hcalls.cooled] at hcool
    cases hcool
  | enough _ _ hb => exact .read fun hcalls => BitVec.not_le.mpr hcalls.low hb
  | depositing hcalls => exact .asked hcalls
  | refused hcalls => exact .asked hcalls
  | bridging hcalls _ _ hnews | bridged hcalls _ _ hnews =>
    rw [List.filter_append, filter_upkeep hnews]
    exact .asked hcalls

/-- The bridge is asked if and only if a reading calls for it. -/
theorem Questions.asked_iff (h : Questions k c news) :
    (∃ time request, ⟨time, .asked request⟩ ∈ news) ↔
      ∃ time r, ⟨time, .looked (.ok r)⟩ ∈ news ∧ k.Calls c time r := by
  cases h with
  | none | unread => simp
  | read hcalls =>
    constructor
    · rintro ⟨_, _, hmem⟩
      simp at hmem
    · rintro ⟨_, _, hmem, hcalls'⟩
      cases List.mem_singleton.mp hmem
      exact absurd hcalls' hcalls
  | asked hcalls =>
    constructor
    · intro _
      exact ⟨_, _, .tail _ (.head _), hcalls⟩
    · intro _
      exact ⟨_, _, .head _⟩

theorem Questions.request (h : Questions k c news) {request : Bridge.DepositRequest}
    (hmem : ⟨time, .asked request⟩ ∈ news) : ∃ secret, request = k.requestAt secret := by
  cases h with
  | none | unread | read => simp at hmem
  | @asked _ _ secret =>
    simp only [List.mem_cons, JournalEntry.mk.injEq, Act.asked.injEq, reduceCtorEq, and_false,
      List.not_mem_nil, or_false] at hmem
    exact ⟨secret, hmem.2⟩

theorem Questions.asked_once (h : Questions k c news) : news.countP (·.act.isAsked) ≤ 1 := by
  cases h with
  | none => exact Nat.zero_le 1
  | unread | read | asked => exact Nat.le_of_ble_eq_true rfl

theorem mem_questions {a : Act} (ha : a.isQuestion = true) :
    ⟨time, a⟩ ∈ news.filter (·.act.isQuestion) ↔ ⟨time, a⟩ ∈ news := by
  simp [List.mem_filter, ha]

theorem Told.asked_iff (h : Told k c p news) : (∃ time request, ⟨time, .asked request⟩ ∈ news) ↔
    ∃ time r, ⟨time, .looked (.ok r)⟩ ∈ news ∧ k.Calls c time r := by
  have hasked (time : Nat) (request : Bridge.DepositRequest) :
      ⟨time, .asked request⟩ ∈ news.filter (·.act.isQuestion) ↔ ⟨time, .asked request⟩ ∈ news :=
    mem_questions rfl
  have hlooked (time : Nat) (r : Reading) : ⟨time, .looked (.ok r)⟩ ∈
      news.filter (·.act.isQuestion) ↔ ⟨time, .looked (.ok r)⟩ ∈ news := mem_questions rfl
  simpa only [hasked, hlooked] using h.questions.asked_iff

theorem Told.request (h : Told k c p news) {request : Bridge.DepositRequest}
    (hmem : ⟨time, .asked request⟩ ∈ news) : ∃ secret, request = k.requestAt secret :=
  h.questions.request ((mem_questions rfl).mpr hmem)

/-- The bridge is asked once at most. -/
theorem Told.asked_once (h : Told k c p news) : news.countP (·.act.isAsked) ≤ 1 := by
  have hquestion (a : Act) : (a.isAsked && a.isQuestion) = a.isAsked := by cases a <;> rfl
  have hcount : (news.filter (·.act.isQuestion)).countP (·.act.isAsked) =
      news.countP (·.act.isAsked) := by
    simp only [List.countP_filter, hquestion]
  rw [← hcount]
  exact h.questions.asked_once

/-- What the bridge has taken was asked for, and its record, with the balance that was read, was
tried to be written at once. -/
theorem Told.deposited (h : Told k c p news) {d : Deposit} (hmem : ⟨time, .deposited d⟩ ∈ news) :
    (∃ since, ⟨since, .asked d.request⟩ ∈ news) ∧
      (∃ outcome, ⟨time, .saved d.record outcome⟩ ∈ news) ∧
      ∀ since r, ⟨since, .looked (.ok r)⟩ ∈ news → d.record.baseline = r.balance := by
  cases h with
  | skipped | unloaded | reading | unread | cools | enough | depositing | refused =>
    simp at hmem
  | resuming _ _ hnews | resumed _ _ hnews => cases hnews _ hmem
  | bridging _ hd hrequest hnews | bridged _ hd hrequest hnews =>
    rcases List.mem_append.mp hmem with hwait | hmem
    · cases hnews _ hwait
    · simp only [List.mem_cons, JournalEntry.mk.injEq, Act.deposited.injEq, reduceCtorEq,
        and_false, List.not_mem_nil, or_false, false_or] at hmem
      obtain ⟨rfl, rfl⟩ := hmem
      rw [hrequest]
      refine ⟨⟨_, List.mem_append_right _ (.tail _ (.tail _ (.head _)))⟩,
        ⟨_, List.mem_append_right _ (.head _)⟩, fun since r hlooked => ?_⟩
      rcases List.mem_append.mp hlooked with hwait | hlooked
      · cases hnews _ hwait
      · simp only [List.mem_cons, JournalEntry.mk.injEq, Act.looked.injEq, Except.ok.injEq,
          reduceCtorEq, and_false, List.not_mem_nil, or_false, false_or] at hlooked
        rw [hlooked.2]
        exact hd

/-- The way on which a tick comes to an outcome, by what was so when it began and what it has
learned since. -/
def Reason (k : Charter ω σ) (c : Controller ω σ) (news : List JournalEntry) : TickOutcome → Prop
  | .skippedInFlight => c.inFlight = true
  | .storeFailed => c.inFlight = false ∧ c.unpersisted = none ∧
      ∃ why, (k.store.load c.store).1 = .error why
  | .resumed _ => c.inFlight = false ∧ ∃ r, c.unpersisted = some r ∨
      c.unpersisted = none ∧ (k.store.load c.store).1 = .ok (some r)
  | .balanceReadFailed => k.Vacant c ∧ ∃ time why, ⟨time, .looked (.error why)⟩ ∈ news
  | .coolingDown b => k.Vacant c ∧ ∃ time r, ⟨time, .looked (.ok r)⟩ ∈ news ∧
      r.balance = b ∧ c.coolingDown time = true
  | .aboveThreshold b => k.Vacant c ∧ ∃ time r, ⟨time, .looked (.ok r)⟩ ∈ news ∧
      r.balance = b ∧ c.coolingDown time = false ∧ k.policy.threshold ≤ b
  | .submitFailed => k.Vacant c ∧ ∃ time why, ⟨time, .refused why⟩ ∈ news
  | .bridged _ => k.Vacant c ∧ ∃ time d, ⟨time, .deposited d⟩ ∈ news

theorem Told.reason {o : TickOutcome} (h : Told k c (.done o) news) : Reason k c news o := by
  cases h with
  | skipped hflag => exact hflag
  | unloaded hfree hmemory hload => exact ⟨hfree, hmemory, _, hload⟩
  | resumed hfree hkept => exact ⟨hfree, _, hkept⟩
  | unread h => exact ⟨h, _, _, .head _⟩
  | cools h hcool => exact ⟨h, _, _, .head _, rfl, hcool⟩
  | enough h hcool hb => exact ⟨h, _, _, .head _, rfl, hcool, hb⟩
  | refused h => exact ⟨h.vacant, _, _, .head _⟩
  | bridged h =>
    exact ⟨h.vacant, _, _, List.mem_append_right _ (.tail _ (.head _))⟩

end Told

/-- What a tick that has come so far may have recorded, unless it has made a deposit or waited for
one; those change more. -/
def mayRecord : Progress Tick TickOutcome → Option (List BridgeEvent)
  | .pending (.reading _) | .pending (.depositing _ _ _) => some []
  | .pending (.bridging _ _) | .pending (.resuming _ _) => none
  | .done (.bridged _) | .done (.resumed _) => none
  | .done .submitFailed => some [.failed]
  | .done _ => some []

/-- The flag while a tick has come so far: it is taken until the tick ends, and a tick that found it
taken has left it so. -/
def flag : Progress Tick TickOutcome → Bool
  | .pending _ | .done .skippedInFlight => true
  | .done _ => false

/-- What can be said of a tick that began at a controller and has come so far. -/
structure Verdict (k : Charter ω σ) (path : String) (disk : σ → Disk) (c : Controller ω σ)
    (p : Progress Tick TickOutcome) (c' : Controller ω σ) : Prop where
  told : ∃ news, c'.journal = news ++ c.journal ∧ Told k c p news
  untouched : ∀ recorded, mayRecord p = some recorded → c.Untouched path disk recorded c'
  flag : c'.inFlight = flag p

/-- The first step of a tick. -/
theorem Opening.verdict {p : Progress Tick TickOutcome}
    (hload : ∀ x, (disk (k.store.load x).2).readBytes path = (disk x).readBytes path)
    (h : Opening k t c p c') : Verdict k path disk c p c' := by
  cases h with
  | taken hflag =>
    refine ⟨⟨[], rfl, .skipped hflag⟩, ?_, hflag⟩
    rintro recorded hrecorded
    cases hrecorded
    exact .refl path disk c
  | @retried r hflag hr =>
    refine ⟨⟨[⟨t.now, .saved r (k.store.save r c.store).1⟩], ?_, ?_⟩, by simp [mayRecord], ?_⟩
    · simp
    · exact .resuming hflag (.inl hr) (List.forall_mem_singleton.mpr rfl)
    · exact Controller.inFlight_persist _ _ _ _
  | @unloaded why store hflag hr hread =>
    refine ⟨⟨[], rfl, .unloaded hflag hr (congrArg Prod.fst hread)⟩, ?_, rfl⟩
    rintro recorded hrecorded
    cases hrecorded
    have hfile := hload c.store
    rw [hread] at hfile
    exact ⟨hfile, rfl, rfl, rfl, rfl, rfl⟩
  | @resumed r store hflag hr hread =>
    refine ⟨⟨[], rfl, ?_⟩, by simp [mayRecord], rfl⟩
    exact .resuming hflag (.inr ⟨hr, congrArg Prod.fst hread⟩) (by simp)
  | @reads store hflag hr hread =>
    refine ⟨⟨[], rfl, .reading ⟨hflag, hr, congrArg Prod.fst hread⟩⟩, ?_, rfl⟩
    rintro recorded hrecorded
    cases hrecorded
    have hfile := hload c.store
    rw [hread] at hfile
    exact c.untouched_takeFlight hfile

/-- What is told of a wait is upkeep. -/
theorem upkeep_of_wait {r : BridgeRecord} {x : Wait} {p : Progress Wait WaitResult}
    (h : WaitMove k t r x c p c') :
    ∃ more, c'.journal = more ++ c.journal ∧ ∀ e ∈ more, e.act.isUpkeep = true := by
  cases h with
  | pending => exact ⟨[], rfl, by simp⟩
  | @done result =>
    refine ⟨[⟨t.now, .waited r result⟩], ?_, List.forall_mem_singleton.mpr rfl⟩
    rw [Controller.journal_settle]
    rfl

theorem journal_accept (k : Charter ω σ) (t : Moment) (d : Deposit) (s : Bridge.Submission)
    (c : Controller ω σ) : ∃ outcome, (accept k t d s d.record c).journal =
      ⟨t.now, .saved d.record outcome⟩ :: ⟨t.now, .deposited d⟩ :: c.journal :=
  ⟨_, Controller.journal_persist _ _ _ _⟩

section Told

variable {r : BridgeRecord} {x : Wait} {news more : List JournalEntry} {phase : ReadPhase}
  {o : TickOutcome}

theorem Told.bridging_more (h : Told k c (.pending (.bridging r x)) news)
    (hmore : ∀ e ∈ more, e.act.isUpkeep = true) :
    (∀ y, Told k c (.pending (.bridging r y)) (more ++ news)) ∧
      ∀ result, Told k c (.done (.bridged result)) (more ++ news) := by
  cases h with
  | bridging hcalls hd hrequest hnews time' outcome =>
    have hall := List.forall_mem_append.mpr ⟨hmore, hnews⟩
    rw [← List.append_assoc]
    exact ⟨fun y => .bridging hcalls hd hrequest hall time' outcome,
      fun result => .bridged hcalls hd hrequest hall time' outcome⟩

theorem Told.resuming_more (h : Told k c (.pending (.resuming r x)) news)
    (hmore : ∀ e ∈ more, e.act.isUpkeep = true) :
    (∀ y, Told k c (.pending (.resuming r y)) (more ++ news)) ∧
      ∀ result, Told k c (.done (.resumed result)) (more ++ news) := by
  cases h with
  | resuming hfree hkept hnews =>
    have hall := List.forall_mem_append.mpr ⟨hmore, hnews⟩
    exact ⟨fun y => .resuming hfree hkept hall, fun result => .resumed hfree hkept hall⟩

/-- A tick that ends when it has read the balance has told its reading. -/
theorem Verdict.endsReading (hv : Verdict k path disk c (.pending (.reading phase)) c') (t : Moment)
    (outside : ω) {reading : Except ReadError Reading} (hflag : Tick.flag (.done o) = false)
    (hrecord : mayRecord (.done o) = some [])
    (htold : k.Vacant c → Told k c (.done o) [⟨t.now, .looked reading⟩]) :
    Verdict k path disk c (.done o) (c'.afterReading t outside reading).endFlight := by
  obtain ⟨⟨news, hjournal, hreading⟩, huntouched, -⟩ := hv
  cases hreading with
  | reading hvacant =>
    refine ⟨⟨[⟨t.now, .looked reading⟩], by simp [hjournal], htold hvacant⟩, ?_, hflag.symm⟩
    intro recorded hrecorded
    cases hrecord.symm.trans hrecorded
    exact (huntouched [] rfl).endReading _ _ _

/-- What a wait tells stands before what its tick has told. -/
theorem Verdict.waits {y : Tick} {p : Progress Wait WaitResult} {q : Progress Tick TickOutcome}
    {d : Controller ω σ} (hv : Verdict k path disk c (.pending y) c')
    (hwait : WaitMove k t r x c' p c'') (hjournal : d.journal = c''.journal)
    (hflag : d.inFlight = Tick.flag q) (hrecord : mayRecord q = none)
    (htold : ∀ {news more}, Told k c (.pending y) news → (∀ e ∈ more, e.act.isUpkeep = true) →
      Told k c q (more ++ news)) : Verdict k path disk c q d := by
  obtain ⟨⟨news, hnews, hy⟩, -, -⟩ := hv
  obtain ⟨more, hmore, hupkeep⟩ := upkeep_of_wait hwait
  refine ⟨⟨more ++ news, ?_, htold hy hupkeep⟩, by simp [hrecord], hflag⟩
  rw [hjournal, hmore, hnews, List.append_assoc]

end Told

theorem Move.verdict {x : Tick} {q : Progress Tick TickOutcome} (h : Move k t c' x q c'')
    (hv : Verdict k path disk c (.pending x) c') : Verdict k path disk c q c'' := by
  have hflag : c'.inFlight = true := hv.flag
  cases h with
  | reads =>
    obtain ⟨⟨news, hjournal, htold⟩, huntouched, -⟩ := hv
    cases htold with
    | reading hvacant =>
      refine ⟨⟨[], hjournal, .reading hvacant⟩, ?_, hflag⟩
      rintro recorded ⟨⟩
      exact (huntouched [] rfl).trans (c'.untouched_outside _)
  | unread => exact hv.endsReading t _ rfl rfl .unread
  | cools _ hcool =>
    -- the cooldown is still the one with which the tick began
    rw [(hv.untouched [] rfl).coolingDown] at hcool
    exact hv.endsReading t _ rfl rfl fun hvacant => .cools hvacant hcool
  | enough _ hcool hb =>
    rw [(hv.untouched [] rfl).coolingDown] at hcool
    exact hv.endsReading t _ rfl rfl fun hvacant => .enough hvacant hcool hb
  | asks _ hcool hb =>
    obtain ⟨⟨news, hjournal, htold⟩, huntouched, -⟩ := hv
    cases htold with
    | reading hvacant =>
      rw [(huntouched [] rfl).coolingDown] at hcool
      have hlow : _ < k.policy.threshold := BitVec.not_le.mp hb
      refine ⟨⟨[⟨t.now, .asked _⟩, ⟨t.now, .looked _⟩], by simp [hjournal],
        .depositing ⟨hvacant, hcool, hlow⟩⟩, ?_, ?_⟩
      · rintro recorded ⟨⟩
        exact ((huntouched [] rfl).trans (c'.untouched_afterReading _ _ _)).trans
          (Controller.untouched_note _ _ _)
      · exact (Controller.inFlight_note.trans Controller.inFlight_afterReading).trans hflag
  | deposits =>
    obtain ⟨⟨news, hjournal, htold⟩, huntouched, -⟩ := hv
    refine ⟨⟨news, hjournal, htold⟩, ?_, hflag⟩
    rintro recorded ⟨⟩
    exact (huntouched [] rfl).trans (c'.untouched_outside _)
  | @refused _ secret since why =>
    obtain ⟨⟨news, hjournal, htold⟩, huntouched, -⟩ := hv
    cases htold with
    | @depositing _ r _ hcalls =>
      refine ⟨⟨[⟨t.now, .refused why⟩, ⟨since, .asked (k.requestAt secret)⟩,
        ⟨since, .looked (.ok r)⟩], by simp [hjournal], .refused hcalls⟩, ?_, rfl⟩
      rintro recorded ⟨⟩
      exact ((((huntouched [] rfl).trans (c'.untouched_outside _)).trans
        (Controller.untouched_note _ _ _)).trans (Controller.untouched_record _ _)).trans
          (Controller.untouched_endFlight _)
  | @accepted _ secret since receipt outside =>
    obtain ⟨⟨news, hjournal, htold⟩, -, -⟩ := hv
    cases htold with
    | @depositing _ r _ hcalls =>
      obtain ⟨outcome, hnoted⟩ := journal_accept k t (k.depositOf t r.balance secret receipt)
        (k.submissionOf secret receipt) { c' with outside }
      have hnews : ∀ e ∈ ([] : List JournalEntry), e.act.isUpkeep = true := by simp
      refine ⟨⟨_, ?_, .bridging hcalls rfl rfl hnews t.now outcome⟩, by simp [mayRecord], ?_⟩
      · rw [hnoted, hjournal]
        rfl
      · exact (Controller.inFlight_persist _ _ _ _).trans hflag
  | bridges hwait =>
    exact hv.waits hwait rfl (hwait.inFlight.trans hflag) rfl fun h hmore =>
      (h.bridging_more hmore).1 _
  | bridged hwait => exact hv.waits hwait rfl rfl rfl fun h hmore => (h.bridging_more hmore).2 _
  | resumes hwait =>
    exact hv.waits hwait rfl (hwait.inFlight.trans hflag) rfl fun h hmore =>
      (h.resuming_more hmore).1 _
  | resumed hwait => exact hv.waits hwait rfl rfl rfl fun h hmore => (h.resuming_more hmore).2 _

theorem Moves.verdict {p q : Progress Tick TickOutcome} (h : Moves k t p c' q c'')
    (hv : Verdict k path disk c p c') : Verdict k path disk c q c'' := by
  induction h with
  | none => exact hv
  | more hmove _ ih => exact ih (hmove.verdict hv)

theorem Verdict.drift {x : Tick} (hv : Verdict k path disk c (.pending x) c')
    (h : Drift path disk c' c'') : Verdict k path disk c (.pending x) c'' := by
  obtain ⟨⟨news, hjournal, htold⟩, huntouched, hflag⟩ := hv
  refine ⟨⟨news, h.journal.trans hjournal, htold⟩, ?_, h.inFlight.trans hflag⟩
  intro recorded hrecorded
  have hboth := (huntouched recorded hrecorded).trans h.untouched
  rwa [List.append_nil] at hboth

/-- A tick that begins while another one is under way ends at once and changes nothing. -/
theorem start_of_taken (t : Moment) (h : c.inFlight = true) :
    start k t c = (.done .skippedInFlight, c) := by
  rw [start, Controller.beginFlight?_eq, if_pos h]

/-! ## A tick from its beginning -/

/-- How far a tick has come that began at a controller. It may go on at any moment, and in between
other ticks begin and things change around the controller, in ways of some kind. -/
inductive Course (Q : Controller ω σ → Controller ω σ → Prop) (k : Charter ω σ) (path : String)
    (disk : σ → Disk) (c : Controller ω σ) :
    Progress Tick TickOutcome → Controller ω σ → Prop where
  | begins (t : Moment) : Course Q k path disk c (start k t c).1 (start k t c).2
  | goesOn {x : Tick} {c' : Controller ω σ} (t : Moment)
      (h : Course Q k path disk c (.pending x) c') :
      Course Q k path disk c (poll k t x c').1 (poll k t x c').2
  | drifts {x : Tick} {c' c'' : Controller ω σ} (h : Course Q k path disk c (.pending x) c')
      (hdrift : Drift path disk c' c'') (hc : Q c' c'') : Course Q k path disk c (.pending x) c''
  | other {x : Tick} {c' : Controller ω σ} (t : Moment)
      (h : Course Q k path disk c (.pending x) c') :
      Course Q k path disk c (.pending x) (start k t c').2

theorem Course.verdict {Q : Controller ω σ → Controller ω σ → Prop} {p : Progress Tick TickOutcome}
    (hload : ∀ x, (disk (k.store.load x).2).readBytes path = (disk x).readBytes path)
    (h : Course Q k path disk c p c') : Verdict k path disk c p c' := by
  induction h with
  | begins t =>
    obtain ⟨p, c₁, hopen, hmoves⟩ := start_moves (k := k) (t := t) c
    exact hmoves.verdict (hopen.verdict hload)
  | goesOn t _ ih => exact (poll_moves _ _).verdict ih
  | drifts _ hdrift _ ih => exact ih.drift hdrift
  | other t _ ih =>
    -- a tick that is under way holds the flag
    rw [start_of_taken t ih.flag]
    exact ih

section Recorded

variable {p : Progress Tick TickOutcome} {news : List JournalEntry} {calls : List BridgeCall}

/-- Each course of a tick is one in which the calls of the bridge are written down, seen without
them. -/
theorem Course.exists_logged {c : Controller (ω × List BridgeCall) σ} {d : Controller ω σ}
    (h : Course (fun _ _ => True) k path disk c.unlogged p d) :
    ∃ c', Course Controller.SameLog k.recorded path disk c p c' ∧ c'.unlogged = d := by
  induction h with
  | begins t =>
    rw [← start_unlogged]
    exact ⟨_, .begins t, rfl⟩
  | goesOn t _ ih =>
    obtain ⟨c', hcourse, rfl⟩ := ih
    rw [← poll_unlogged]
    exact ⟨_, .goesOn t hcourse, rfl⟩
  | drifts _ hdrift _ ih =>
    obtain ⟨c', hcourse, rfl⟩ := ih
    obtain ⟨c'', hdrift', hlog, rfl⟩ := hdrift.exists_logged
    exact ⟨_, .drifts hcourse hdrift' hlog, rfl⟩
  | other t _ ih =>
    obtain ⟨c', hcourse, rfl⟩ := ih
    rw [← start_unlogged]
    exact ⟨_, .other t hcourse, rfl⟩

theorem Course.matches {c c' : Controller (ω × List BridgeCall) σ}
    (hload : ∀ x, (disk (k.store.load x).2).readBytes path = (disk x).readBytes path)
    (h : Course Controller.SameLog k.recorded path disk c p c') :
    c.Matches k (.ticking (left p)) c' := by
  induction h with
  | begins t => exact start_matches (Controller.matches_refl (g := .idle) rfl) rfl
  | goesOn t _ ih => exact poll_matches ih
  | drifts _ hdrift hlog ih => exact hdrift.matches hlog ih
  | other t hcourse ih =>
    rw [start_of_taken t (Course.verdict (k := k.recorded) hload hcourse).flag]
    exact ih

theorem questions_eq (h : dealings news = BridgeCall.tell calls) :
    BridgeCall.questions calls = news.countP (·.act.isAsked) := by
  rw [BridgeCall.questions, ← h, dealings, List.countP_filterMap]
  refine List.countP_congr fun e _ => ?_
  obtain ⟨time, act⟩ := e
  cases act <;> simp [Act.dealing?, Act.isAsked, Bridge.Dealing.isAsked]

theorem exists_call_iff (h : dealings news = BridgeCall.tell calls) :
    calls ≠ [] ↔ ∃ time request, ⟨time, .asked request⟩ ∈ news := by
  constructor
  · intro hcalls
    obtain ⟨call, hcall⟩ := List.exists_mem_of_ne_nil _ hcalls
    exact ⟨_, _, (asked_iff_call h).mpr ⟨call, hcall, rfl, rfl⟩⟩
  · rintro ⟨time, request, hasked⟩
    obtain ⟨call, hcall, -⟩ := (asked_iff_call h).mp hasked
    exact List.ne_nil_of_mem hcall

end Recorded

/-- A tick that may be interrupted anywhere calls the bridge if and only if nothing was in flight
when it began, the balance could be read, the cooldown was over when it was read, and it is below
the threshold. Its calls are looks for the answer to one question, for a deposit of the amount of
the policy to the facility, and the tick tells of the bridge what they tell. The record of a deposit
that the bridge takes begins with the balance that was read. A tick that neither makes a deposit nor
waits for an earlier one leaves everything as it was, but for the count of a refusal; and one that
has taken the flag gives it back. -/
theorem Course.asks_when_called_for {c c' : Controller (ω × List BridgeCall) σ}
    {p : Progress Tick TickOutcome} (hs : k.store.Durable path disk)
    (h : Course Controller.SameLog k.recorded path disk c p c') :
    ∃ news calls, c'.journal = news ++ c.journal ∧ c'.outside.2 = calls ++ c.outside.2 ∧
      dealings news = BridgeCall.tell calls ∧
      (calls ≠ [] ↔
        c.inFlight = false ∧ c.unpersisted = none ∧ (k.store.load c.store).1 = .ok none ∧
          ∃ time r, ⟨time, .looked (.ok r)⟩ ∈ news ∧ c.coolingDown time = false ∧
            r.balance < k.policy.threshold) ∧
      (∀ call ∈ calls, call.request.recipient = k.monitor.facility ∧
        call.request.amount = k.policy.amount) ∧
      calls.Pairwise BridgeCall.Awaits ∧
      (∀ call ∈ calls, ∀ receipt, call.answer = some (.ok receipt) →
        ∃ d : Deposit, d.request = call.request ∧ d.receipt = receipt ∧
          ⟨call.now, .deposited d⟩ ∈ news ∧
          (∃ outcome, ⟨call.now, .saved d.record outcome⟩ ∈ news) ∧
          ∀ since r, ⟨since, .looked (.ok r)⟩ ∈ news → d.record.baseline = r.balance) ∧
      ∀ o, p = .done o → Reason k.recorded c news o ∧
        (o ≠ .skippedInFlight → c'.inFlight = false) ∧
        ((∀ result, o ≠ .bridged result) → (∀ result, o ≠ .resumed result) →
          c.Untouched path disk (if o = .submitFailed then [.failed] else []) c') := by
  obtain ⟨⟨news, hjournal, htold⟩, huntouched, hflag⟩ :=
    Course.verdict (k := k.recorded) hs.load_bytes h
  obtain ⟨news', calls, hjournal', hlog, htell, -⟩ := h.matches hs.load_bytes
  obtain rfl : news' = news := List.append_cancel_right (hjournal'.symm.trans hjournal)
  refine ⟨_, calls, hjournal, hlog, htell, ?_, ?_, ?_, ?_, ?_⟩
  · rw [exists_call_iff htell, htold.asked_iff]
    constructor
    · rintro ⟨time, r, hlooked, ⟨hfree, hmemory, hfile⟩, hcooled, hlow⟩
      exact ⟨hfree, hmemory, hfile, time, r, hlooked, hcooled, hlow⟩
    · rintro ⟨hfree, hmemory, hfile, time, r, hlooked, hcooled, hlow⟩
      exact ⟨time, r, hlooked, ⟨hfree, hmemory, hfile⟩, hcooled, hlow⟩
  · intro call hcall
    have hasked := (asked_iff_call htell).mpr ⟨call, hcall, rfl, rfl⟩
    obtain ⟨secret, hrequest⟩ := htold.request hasked
    rw [hrequest]
    exact ⟨rfl, rfl⟩
  · refine BridgeCall.pairwise_of_questions ?_
    rw [questions_eq htell]
    exact htold.asked_once
  · intro call hcall receipt hanswer
    obtain ⟨d, hmem, hrequest, hreceipt⟩ :=
      (deposited_iff_call htell).mpr ⟨call, hcall, rfl, hanswer, rfl⟩
    exact ⟨d, hrequest, hreceipt, hmem, (htold.deposited hmem).2⟩
  · rintro o rfl
    refine ⟨htold.reason, fun ho => ?_, fun hbridged hresumed => ?_⟩
    · rw [hflag]
      cases o with
      | skippedInFlight => exact absurd rfl ho
      | storeFailed | balanceReadFailed | aboveThreshold | coolingDown | submitFailed | bridged
      | resumed => rfl
    · apply huntouched
      cases o with
      | bridged result => exact absurd rfl (hbridged result)
      | resumed result => exact absurd rfl (hresumed result)
      | skippedInFlight | storeFailed | balanceReadFailed | aboveThreshold | coolingDown
      | submitFailed => rfl

/-- The reserve is low, and the bridge takes a moment to refuse. -/
def refusingStart : Controller (Offline × List BridgeCall) ShakyDisk :=
  .initial 3000 (⟨.simulated { balance := 7, feeJuice := ⟨1⟩ },
    .simulated { latency := some 5, failNext := 1 }⟩, []) ⟨.empty, []⟩

/-- The controller when the bridge has been asked. -/
def refusingAsked : Controller (Offline × List BridgeCall) ShakyDisk :=
  (start Session.offlineCharter.recorded ⟨0, 0, false, 7⟩ refusingStart).2

/-- While the bridge has not answered another tick begins, and ends at once. The bridge is called
twice with one question; the refusal is counted, and nothing else is left of the deposit. -/
theorem asks_when_called_for_refused : ∃ c',
    Course Controller.SameLog Session.offlineCharter.recorded Session.offlinePath ShakyDisk.disk
      refusingStart (.done .submitFailed) c' ∧
    c'.inFlight = false ∧
    refusingStart.Untouched Session.offlinePath ShakyDisk.disk [.failed] c' ∧
    c'.outside.2.length = 2 ∧ (∀ call ∈ c'.outside.2, call.request.amount = 50) ∧
    c'.outside.2.Pairwise BridgeCall.Awaits := by
  have hasked : Course Controller.SameLog Session.offlineCharter.recorded Session.offlinePath
      ShakyDisk.disk refusingStart (.pending (.depositing 7 (.ofRandom 7) 0)) refusingAsked :=
    .begins ⟨0, 0, false, 7⟩
  have hdone : Course Controller.SameLog Session.offlineCharter.recorded Session.offlinePath
      ShakyDisk.disk refusingStart (.done .submitFailed) _ :=
    .goesOn ⟨5, 5, false, 0⟩ (.other ⟨2, 2, false, 0⟩ hasked)
  obtain ⟨news, calls, hjournal, hlog, -, hcalls, hrequest, hawaits, -, hends⟩ :=
    Course.asks_when_called_for (ShakyDisk.onFile_store Session.offlinePath).durable hdone
  obtain ⟨-, hfree, huntouched⟩ := hends .submitFailed rfl
  obtain rfl : calls = _ := (List.append_nil _).symm.trans hlog.symm
  exact ⟨_, hdone, hfree (by simp), huntouched (by simp) (by simp), rfl,
    fun call hcall => (hrequest call hcall).2, hawaits⟩

end Tick
end Paymaster.Reserve

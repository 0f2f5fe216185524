import Paymaster.Proofs.Reserve.OneDeposit
/-!
# The cooldown

When a wait ends well the cooldown begins, whatever the wait was for: a deposit of the same tick, a
record that was kept, or one that an earlier process has left. Until it is over the bridge is not
asked for another deposit. Since a deposit has to arrive before the next one is made, deposits are
spaced by the cooldown, which bounds how many of them fall into a span of time.
-/

namespace Paymaster.Reserve

variable {ω σ : Type}

/-! ## Journals -/

/-- The time of the last wait that ended well, after an act at a time. -/
def Act.arrival (a : Act) (time : Nat) (before : Option Nat) : Option Nat :=
  match a with
  | .waited _ result => if result.status = .confirmed then some time else before
  | _ => before

/-- The time of the last wait that ended well, as a journal tells it. -/
def lastArrival : List JournalEntry → Option Nat
  | [] => none
  | e :: earlier => e.act.arrival e.time (lastArrival earlier)

/-- The last time at which the bridge was asked for a deposit. -/
def lastAsked : List JournalEntry → Option Nat
  | [] => none
  | ⟨time, .asked _⟩ :: _ => some time
  | _ :: earlier => lastAsked earlier

/-- The deposits that the bridge took, each with the time at which it was asked for, the latest
first. -/
def taken : List JournalEntry → List (Nat × Deposit)
  | [] => []
  | e :: earlier =>
    match e.act, lastAsked earlier with
    | .deposited d, some since => (since, d) :: taken earlier
    | _, _ => taken earlier

/-- The act keeps to the policy: the bridge is asked for the amount that is due, and not before the
cooldown is over, and it takes only what it has just been asked for. -/
def Act.Spaced (p : TopupPolicy) (time : Nat) (earlier : List JournalEntry) : Act → Prop
  | .asked request => request.amount = p.amount ∧
      ∀ since, lastArrival earlier = some since → since + p.cooldown ≤ time
  | .deposited d => ∃ since rest, earlier = ⟨since, .asked d.request⟩ :: rest
  | _ => True

/-- All acts keep to the policy. -/
def Spaced (p : TopupPolicy) : List JournalEntry → Prop
  | [] => True
  | e :: earlier => e.act.Spaced p e.time earlier ∧ Spaced p earlier

/-- The clock has not stepped back between the acts. -/
def InOrder (journal : List JournalEntry) : Prop :=
  journal.Pairwise fun later earlier => earlier.time ≤ later.time

instance : DecidablePred InOrder := fun journal =>
  inferInstanceAs (Decidable (journal.Pairwise fun later earlier => earlier.time ≤ later.time))

variable {p : TopupPolicy} {r : BridgeRecord}

theorem Spaced.of_append {later earlier : List JournalEntry} (h : Spaced p (later ++ earlier)) :
    Spaced p earlier := by
  induction later with
  | nil => exact h
  | cons e later ih => exact ih h.2

/-- A wait that ended well is the last one to do so, or one after it is. -/
theorem exists_lastArrival {later : List JournalEntry} (h : Confirmed r later)
    (earlier : List JournalEntry) : ∃ e ∈ later, lastArrival (later ++ earlier) = some e.time := by
  induction later with
  | nil =>
    obtain ⟨e, he, -⟩ := h
    cases he
  | cons e later ih =>
    have hkept (hsame : lastArrival (e :: later ++ earlier) = lastArrival (later ++ earlier))
        (hlater : Confirmed r later) :
        ∃ e' ∈ e :: later, lastArrival (e :: later ++ earlier) = some e'.time := by
      obtain ⟨e', he', hlast⟩ := ih hlater
      exact ⟨e', List.mem_cons_of_mem e he', hsame.trans hlast⟩
    by_cases hnow : ∃ r' result, e.act = .waited r' result ∧ result.status = .confirmed
    · obtain ⟨r', result, hact, hstatus⟩ := hnow
      refine ⟨e, List.mem_cons_self, ?_⟩
      rw [List.cons_append, lastArrival, hact, Act.arrival, if_pos hstatus]
    · have hlater : Confirmed r later := by
        obtain ⟨e', he', result, hact, hstatus⟩ := h
        rcases List.mem_cons.mp he' with rfl | he'
        · exact absurd ⟨r, result, hact, hstatus⟩ hnow
        · exact ⟨e', he', result, hact, hstatus⟩
      refine hkept ?_ hlater
      rw [List.cons_append, lastArrival]
      cases hact : e.act with
      | waited r' result =>
        rw [Act.arrival, if_neg fun hstatus => hnow ⟨r', result, hact, hstatus⟩]
      | looked | asked | refused | deposited | saved => rfl

theorem taken_deposited {since time : Nat} {d : Deposit} {rest : List JournalEntry} :
    taken (⟨time, .deposited d⟩ :: ⟨since, .asked d.request⟩ :: rest) = (since, d) :: taken rest :=
  rfl

/-- A deposit that the bridge took is in the journal right after its request. -/
theorem exists_of_mem_taken {journal : List JournalEntry} (h : Spaced p journal) {x : Nat × Deposit}
    (hx : x ∈ taken journal) : ∃ later time rest,
      journal = later ++ ⟨time, .deposited x.2⟩ :: ⟨x.1, .asked x.2.request⟩ :: rest := by
  induction journal with
  | nil => cases hx
  | cons e earlier ih =>
    obtain ⟨time, act⟩ := e
    have hearlier (hx : x ∈ taken earlier) : ∃ later time' rest, ⟨time, act⟩ :: earlier =
        later ++ ⟨time', .deposited x.2⟩ :: ⟨x.1, .asked x.2.request⟩ :: rest := by
      obtain ⟨later, time', rest, heq⟩ := ih h.2 hx
      exact ⟨⟨time, act⟩ :: later, time', rest, by rw [heq, List.cons_append]⟩
    cases act with
    | deposited d =>
      obtain ⟨since, rest, rfl⟩ := h.1
      rw [taken_deposited] at hx
      rcases List.mem_cons.mp hx with rfl | hx
      · exact ⟨[], time, rest, rfl⟩
      · exact hearlier hx
    | looked | asked | refused | saved | waited => exact hearlier hx

/-- Deposits are asked for at least a cooldown apart, if each has arrived before the next. -/
theorem pairwise_taken {first : Option BridgeRecord} {journal : List JournalEntry}
    (horderly : Orderly first journal) (hspaced : Spaced p journal) (htime : InOrder journal) :
    (taken journal).Pairwise fun later earlier => earlier.1 + p.cooldown ≤ later.1 := by
  induction journal with
  | nil => exact List.Pairwise.nil
  | cons e earlier ih =>
    obtain ⟨time, act⟩ := e
    have hrest := ih horderly.2 hspaced.2 (List.pairwise_cons.mp htime).2
    cases act with
    | deposited d =>
      obtain ⟨since, rest, rfl⟩ := hspaced.1
      rw [taken_deposited, List.pairwise_cons]
      refine ⟨?_, hrest⟩
      intro x hx
      obtain ⟨middle, time', before, rfl⟩ := exists_of_mem_taken hspaced.2.2 hx
      have hasked : Orderly first ([] ++ ⟨since, .asked d.request⟩ :: (middle ++
          ⟨time', .deposited x.2⟩ :: ⟨x.1, .asked x.2.request⟩ :: before)) := horderly.2
      -- The earlier deposit arrived in between, and the cooldown began not before it was asked for.
      have harrived : Confirmed x.2.record middle :=
        hasked.confirmed_before_asked.2 middle time' x.2 _ rfl
      obtain ⟨e, he, hlast⟩ := exists_lastArrival harrived
        (⟨time', .deposited x.2⟩ :: ⟨x.1, .asked x.2.request⟩ :: before)
      have hcool : e.time + p.cooldown ≤ since := hspaced.2.1.2 e.time hlast
      have hbefore : x.1 ≤ e.time := by
        have hpair := (List.pairwise_cons.mp (List.pairwise_cons.mp htime).2).2
        exact (List.pairwise_append.mp hpair).2.2 e he ⟨x.1, .asked x.2.request⟩ (by simp)
      omega
    | looked | asked | refused | saved | waited => exact hrest

/-! ## Times that are spaced -/

theorem length_mul_le_of_spaced {gap low high : Nat} {times : List Nat}
    (h : times.Pairwise fun later earlier => earlier + gap ≤ later)
    (hrange : ∀ t ∈ times, low ≤ t ∧ t ≤ high) : times.length * gap ≤ high + gap - low := by
  induction times generalizing high with
  | nil => simp
  | cons t rest ih =>
    obtain ⟨hfirst, hrest⟩ := List.pairwise_cons.mp h
    obtain ⟨hlow, hhigh⟩ := hrange t List.mem_cons_self
    cases rest with
    | nil =>
      rw [List.length_singleton]
      omega
    | cons t' rest =>
      have hgap := hfirst t' List.mem_cons_self
      have hlow' := (hrange t' (by simp)).1
      have hle : (t' :: rest).length * gap ≤ t - gap + gap - low := ih hrest fun s hs =>
        ⟨(hrange s (List.mem_cons_of_mem t hs)).1, Nat.le_sub_of_add_le (hfirst s hs)⟩
      rw [List.length_cons, Nat.succ_mul]
      omega

/-- Of times that are spaced by a gap, a span holds at most one and as many more as the gap fits
into it. -/
theorem countP_le_of_spaced {gap : Nat} (hgap : 0 < gap) {times : List Nat}
    (h : times.Pairwise fun later earlier => earlier + gap ≤ later) (start span : Nat) :
    (times.countP fun t => start ≤ t ∧ t ≤ start + span) ≤ 1 + span / gap := by
  rw [List.countP_eq_length_filter]
  generalize hinside : (times.filter fun t => start ≤ t ∧ t ≤ start + span) = inside
  have hrange : ∀ t ∈ inside, start ≤ t ∧ t ≤ start + span := fun t ht => by
    rw [← hinside] at ht
    simpa using (List.mem_filter.mp ht).2
  have hspan : inside.length * gap ≤ span + gap := by
    have hle := length_mul_le_of_spaced (hinside ▸ h.filter _) hrange
    omega
  have hdiv := (Nat.le_div_iff_mul_le hgap).mpr hspan
  rw [Nat.add_div_right _ hgap] at hdiv
  omega

/-! ## The invariant -/

/-- The cooldown runs from the last wait that ended well, and all acts keep to the policy. -/
structure Paced (k : Charter ω σ) (c : Controller ω σ) : Prop where
  cooldown : c.cooldownUntil = (lastArrival c.journal).map (· + k.policy.cooldown)
  spaced : Spaced k.policy c.journal

/-- A tick that waits for the bridge to answer has just asked it. -/
def Tick.Asked (k : Charter ω σ) (journal : List JournalEntry) : Tick → Prop
  | .depositing _ secret since => ∃ rest, journal = ⟨since, .asked (k.requestAt secret)⟩ :: rest
  | _ => True

/-- The ticks of a stage that wait for the bridge to answer have just asked it. -/
def Stage.Asked (k : Charter ω σ) (c : Controller ω σ) : Stage → Prop
  | .ticking ticks => ∀ x ∈ ticks, x.Asked k c.journal
  | _ => True

variable {k : Charter ω σ} {t : Moment} {path : String} {disk : σ → Disk} {c c' : Controller ω σ}

theorem le_of_not_coolingDown {now until_ : Nat} (h : c.coolingDown now = false)
    (huntil : c.cooldownUntil = some until_) : until_ ≤ now := by
  rw [Controller.coolingDown, huntil] at h
  simpa using h

theorem Drift.cooldownUntil (h : Drift path disk c c') : c'.cooldownUntil = c.cooldownUntil := by
  cases h <;> rfl

namespace Paced

theorem of_same (h : Paced k c) (hcool : c'.cooldownUntil = c.cooldownUntil)
    (hjournal : c'.journal = c.journal) : Paced k c' := by
  refine ⟨?_, ?_⟩
  · rw [hcool, hjournal]
    exact h.cooldown
  · rw [hjournal]
    exact h.spaced

/-- An act that keeps to the policy and does not end a wait leaves the cooldown as it is. -/
theorem noted (h : Paced k c) {now : Nat} {a : Act} (ha : a.Spaced k.policy now c.journal)
    (hlast : a.arrival now (lastArrival c.journal) = lastArrival c.journal)
    (hcool : c'.cooldownUntil = c.cooldownUntil) (hjournal : c'.journal = ⟨now, a⟩ :: c.journal) :
    Paced k c' := by
  refine ⟨?_, ?_⟩
  · rw [hcool, hjournal, lastArrival, hlast]
    exact h.cooldown
  · rw [hjournal]
    exact ⟨ha, h.spaced⟩

/-- A wait that ends well begins the cooldown, and another one leaves it. -/
theorem settled (h : Paced k c) (now : Nat) (r : BridgeRecord) (result : WaitResult) :
    Paced k (c.settle k.store k.policy.cooldown now r result) := by
  refine ⟨?_, ?_⟩
  · rw [Controller.journal_settle, lastArrival, Act.arrival]
    by_cases hstatus : result.status = .confirmed
    · rw [Controller.settle_confirmed _ _ _ _ hstatus, if_pos hstatus]
      rfl
    · rw [Controller.settle_of_ne _ _ _ _ hstatus, if_neg hstatus]
      exact h.cooldown
  · rw [Controller.journal_settle]
    exact ⟨trivial, h.spaced⟩

theorem waits {x : Wait} {q : Progress Wait WaitResult} (h : Paced k c)
    (hmove : WaitMove k t r x c q c') : Paced k c' := by
  cases hmove with
  | pending hpoll => exact h.of_same rfl rfl
  | @done result outside view hpoll =>
    have hsame : Paced k { c with outside, view } := h.of_same rfl rfl
    exact hsame.settled _ _ _

theorem persisted (h : Paced k c) (now : Nat) (r : BridgeRecord) :
    Paced k (c.persist k.store now r) :=
  h.noted (a := .saved r (k.store.save r c.store).1) trivial rfl
    (Controller.cooldownUntil_persist _ _ _ _) (Controller.journal_persist _ _ _ _)

theorem looked (h : Paced k c) (t : Moment) (outside : ω) (reading : Except ReadError Reading) :
    Paced k (c.afterReading t outside reading) :=
  h.noted (a := .looked reading) trivial rfl rfl rfl

/-- A tick that is not cooling down may ask for the amount that is due. -/
theorem asked (h : Paced k c) {now : Nat} (hcool : c.coolingDown now = false)
    (secret : Bridge.ClaimSecret) : Paced k (c.note now (.asked (k.requestAt secret))) := by
  refine h.noted (a := .asked (k.requestAt secret)) ⟨rfl, ?_⟩ rfl rfl rfl
  intro since hsince
  apply le_of_not_coolingDown hcool
  rw [h.cooldown, hsince]
  rfl

/-- What the bridge takes is what it has just been asked for. -/
theorem accepted (h : Paced k c) {balance : Amount} {secret : Bridge.ClaimSecret} {since : Nat}
    {receipt : Bridge.DepositReceipt}
    (hasked : ∃ rest, c.journal = ⟨since, .asked (k.requestAt secret)⟩ :: rest) :
    Paced k (Tick.accept k t (k.depositOf t balance secret receipt)
      (k.submissionOf secret receipt) (k.depositOf t balance secret receipt).record c) := by
  obtain ⟨rest, hjournal⟩ := hasked
  rw [Tick.accept]
  refine persisted ?_ _ _
  exact h.noted (a := .deposited (k.depositOf t balance secret receipt)) ⟨since, rest, hjournal⟩
    rfl rfl rfl

end Paced

theorem Tick.Opening.asked {q : Progress Tick TickOutcome} (h : Opening k t c q c') :
    (Stage.ticking (left q)).Asked k c' := by
  cases h with
  | taken | retried | unloaded | resumed | reads => simp [Stage.Asked, left, Tick.Asked]

/-- A tick that begins to wait for the bridge asks it, and one that goes on to wait notes nothing. -/
theorem Tick.Move.asked {x : Tick} {q : Progress Tick TickOutcome} (h : Move k t c x q c')
    (hx : x.Asked k c.journal) : (Stage.ticking (left q)).Asked k c' := by
  cases h with
  | asks => simp [Stage.Asked, left, Tick.Asked]
  | deposits => simpa [Stage.Asked, left, Tick.Asked] using hx
  | reads | unread | cools | enough | refused | accepted | bridges | bridged | resumes | resumed =>
    simp [Stage.Asked, left, Tick.Asked]

theorem Stage.Asked.of_journal {g : Stage} (h : g.Asked k c) (hjournal : c'.journal = c.journal) :
    g.Asked k c' := by
  cases g with
  | ticking ticks =>
    intro x hx
    rw [hjournal]
    exact h x hx
  | idle => trivial
  | recovering x => trivial

namespace Session

/-- The invariant of a session: it is paced, and a tick that waits for the bridge has just asked. -/
def Paces (k : Charter ω σ) (g : Stage) (c : Controller ω σ) : Prop := Paced k c ∧ g.Asked k c

theorem paces_opening {q : Progress Tick TickOutcome} (hmove : Tick.Opening k t c q c')
    (h : Paces k (.ticking []) c) : Paces k (.ticking (Tick.left q)) c' := by
  refine ⟨?_, hmove.asked⟩
  cases hmove with
  | taken => exact h.1
  | retried =>
    have hsame : Paced k c.takeFlight := h.1.of_same rfl rfl
    exact hsame.persisted _ _
  | unloaded => exact h.1.of_same rfl rfl
  | resumed => exact h.1.of_same rfl rfl
  | reads => exact h.1.of_same rfl rfl

theorem paces_move {x : Tick} {q : Progress Tick TickOutcome} (hmove : Tick.Move k t c x q c')
    (h : Paces k (.ticking [x]) c) : Paces k (.ticking (Tick.left q)) c' := by
  obtain ⟨h, hasked⟩ := h
  have hx : x.Asked k c.journal := hasked x (by simp)
  refine ⟨?_, hmove.asked hx⟩
  cases hmove with
  | reads => exact h.of_same rfl rfl
  | unread => exact (h.looked t _ _).of_same rfl rfl
  | cools => exact (h.looked t _ _).of_same rfl rfl
  | enough => exact (h.looked t _ _).of_same rfl rfl
  | asks _ hcool => exact (h.looked t _ _).asked hcool _
  | deposits => exact h.of_same rfl rfl
  | @refused _ _ _ why => exact h.noted (a := .refused why) trivial rfl rfl rfl
  | @accepted _ _ _ _ outside =>
    have hsame : Paced k { c with outside } := h.of_same rfl rfl
    exact hsame.accepted hx
  | bridges hwait => exact h.waits hwait
  | bridged hwait => exact (h.waits hwait).of_same rfl rfl
  | resumes hwait => exact h.waits hwait
  | resumed hwait => exact (h.waits hwait).of_same rfl rfl

theorem paces_recoveryOpening {q : Progress Recovery (Except StoreError (Option WaitResult))}
    (hmove : Recovery.Opening k t c q c') (h : Paces k .idle c) : Paces k (.ofRecovery q) c' := by
  obtain ⟨h, -⟩ := h
  cases hmove with
  | unloaded => exact ⟨h.of_same rfl rfl, trivial⟩
  | nothing => exact ⟨h.of_same rfl rfl, trivial⟩
  | found => exact ⟨h.of_same rfl rfl, trivial⟩
  | foundTaken => exact ⟨h.of_same rfl rfl, trivial⟩

theorem paces_recoveryMove {x : Recovery}
    {q : Progress Recovery (Except StoreError (Option WaitResult))} (hholds : x.holdsFlag = true)
    (hmove : Recovery.Move k t c x q c') (h : Paces k (.recovering x) c) :
    Paces k (.ofRecovery q) c' := by
  obtain ⟨h, -⟩ := h
  cases hmove with
  | waits hwait => exact ⟨h.waits hwait, trivial⟩
  | ends hwait =>
    rw [if_pos hholds]
    exact ⟨(h.waits hwait).of_same rfl rfl, trivial⟩

/-- Whatever happens in a session keeps its pace. -/
theorem kept_paces {Q : Controller ω σ → Controller ω σ → Prop} (k : Charter ω σ) (path : String)
    (disk : σ → Disk) : Kept Q k path disk (Paces k) where
  drift hdrift _ h :=
    ⟨h.1.of_same hdrift.cooldownUntil hdrift.journal, h.2.of_journal hdrift.journal⟩
  ready h := ⟨h.1, by simp [Stage.Asked]⟩
  opening _ := paces_opening
  move := paces_move
  recoveryOpening _ := paces_recoveryOpening
  recoveryMove := paces_recoveryMove

/-- In every run of a session, whatever the node and the bridge answer, whichever operations on the
state file fail and whatever they leave in it then: the bridge is asked for the amount of the policy,
and not before the cooldown since the last wait that ended well is over; it takes only what it has
just been asked for; and on a clock that does not step back, the deposits that it took were asked for
a cooldown apart, so that their number in a span of time is bounded. -/
theorem run_cools_down (hs : k.store.Durable path disk) {staleAfter : Nat} {outside : ω} {store : σ}
    {s : Session ω σ} (h : Run k path disk (start staleAfter outside store) s) :
    (∀ later time request earlier,
      s.controller.journal = later ++ ⟨time, .asked request⟩ :: earlier →
        request.amount = k.policy.amount ∧
        ∀ since, lastArrival earlier = some since → since + k.policy.cooldown ≤ time) ∧
    (∀ later time d earlier, s.controller.journal = later ++ ⟨time, .deposited d⟩ :: earlier →
      d.request.amount = k.policy.amount ∧
        ∃ since rest, earlier = ⟨since, .asked d.request⟩ :: rest) ∧
    (InOrder s.controller.journal →
      (taken s.controller.journal).Pairwise
        (fun later earlier => earlier.1 + k.policy.cooldown ≤ later.1) ∧
      (0 < k.policy.cooldown → ∀ first span,
        ((taken s.controller.journal).countP fun x => first ≤ x.1 ∧ x.1 ≤ first + span) ≤
          1 + span / k.policy.cooldown)) := by
  have hstart : Holds path disk ((Controller.initial staleAfter outside store).next? path disk) []
      .idle (Controller.initial staleAfter outside store) :=
    ⟨_, ⟨trivial, rfl, fun _ hr => hr⟩, rfl⟩
  have hlone := lone_start staleAfter outside store
  obtain ⟨-, o, hone, -⟩ := (kept_holds_of_durable hs _ []).run h hlone hstart
  obtain ⟨-, hpaced, -⟩ := (kept_paces k path disk).run h hlone ⟨⟨rfl, trivial⟩, trivial⟩
  have horderly := hone.orderly
  rw [List.append_nil] at horderly
  have hspaced := hpaced.spaced
  refine ⟨?_, ?_, fun htime => ?_⟩
  · intro later time request earlier hjournal
    rw [hjournal] at hspaced
    exact hspaced.of_append.1
  · intro later time d earlier hjournal
    rw [hjournal] at hspaced
    obtain ⟨⟨since, rest, rfl⟩, hasked, -⟩ := hspaced.of_append
    exact ⟨hasked.1, since, rest, rfl⟩
  · have hpairs := pairwise_taken horderly hspaced htime
    refine ⟨hpairs, fun hcool first span => ?_⟩
    have htimes := countP_le_of_spaced hcool (List.pairwise_map.mpr hpairs) first span
    rwa [List.countP_map] at htimes

/-- A controller without a network that waits a minute after a deposit has arrived. -/
def patientCharter : Charter Offline ShakyDisk :=
  { offlineCharter with policy := { offlineCharter.policy with cooldown := 60000 } }

/-- The balance rises at every look, the bridge takes two deposits, and no record can be written. -/
def patientStart : Session Offline ShakyDisk :=
  start 3000 ⟨.scripted ⟨.ok ⟨1⟩, [.ok 0, .ok 1, .ok 2, .ok 3, .ok 4], [], []⟩,
    .scripted { replies := [.ok ⟨7, 0, none⟩, .ok ⟨8, 1, none⟩] }⟩
    ⟨.empty, [true, false, true, true, true, false, true]⟩

/-- The session after a tick that has nothing to wait for. -/
def ticked (s : Session Offline ShakyDisk) (now : Nat) : Session Offline ShakyDisk :=
  ⟨(Tick.start patientCharter ⟨now, 0, false, 0⟩ s.controller).2, .ticking []⟩

/-- Two deposits arrive at once. The second one is made when the cooldown is over; a tick before
that makes none. -/
theorem run_cools_down_twice : ∃ s : Session Offline ShakyDisk,
    Run patientCharter offlinePath ShakyDisk.disk patientStart s ∧ InOrder s.controller.journal ∧
      (taken s.controller.journal).map (·.1) = [60000, 0] ∧
      ((taken s.controller.journal).countP fun x => 0 ≤ x.1 ∧ x.1 ≤ 0 + 60000) ≤
        1 + 60000 / patientCharter.policy.cooldown := by
  have hrun : Run patientCharter offlinePath ShakyDisk.disk patientStart
      (ticked (ticked (ticked patientStart 0) 59999) 60000) :=
    .tail (.tail (.tail (.single .ready) (.ticks ⟨0, 0, false, 0⟩ trivial))
      (.ticks ⟨59999, 0, false, 0⟩ trivial)) (.ticks ⟨60000, 0, false, 0⟩ trivial)
  have horder : InOrder (ticked (ticked (ticked patientStart 0) 59999) 60000).controller.journal := by
    decide
  have hbound := ((run_cools_down (ShakyDisk.onFile_store offlinePath).durable hrun).2.2 horder).2
  exact ⟨_, hrun, horder, rfl, hbound (by decide) 0 60000⟩

end Session
end Paymaster.Reserve

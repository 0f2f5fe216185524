import Paymaster.Proofs.Reserve.KeptFile
import Paymaster.Proofs.Reserve.Session
import Paymaster.Reserve.Offline
/-!
# At most one outstanding deposit

A deposit is outstanding from the bridge's answer until a wait on its record ends well. The journal
of a controller tells which deposit is outstanding. The invariant is that the record of an
outstanding deposit is the one that the next tick would wait for, wherever it is kept, and that a
tick which reads the balance or asks the bridge has found nothing outstanding. It holds however the
operations on the state file fail, and it is stated for a journal that goes on after the journals of
earlier lives.
-/

namespace Paymaster.Reserve

variable {ω σ : Type}

/-! ## Journals -/

/-- Some entries tell of a wait on a record that ended well. -/
def Confirmed (r : BridgeRecord) (entries : List JournalEntry) : Prop :=
  ∃ e ∈ entries, ∃ result, e.act = .waited r result ∧ result.status = .confirmed

/-- The record of the outstanding deposit after an act. -/
def Act.outstanding (a : Act) (before : Option BridgeRecord) : Option BridgeRecord :=
  match a with
  | .deposited d => some d.record
  | .waited r result => if result.status = .confirmed ∧ before = some r then none else before
  | _ => before

/-- The record of the outstanding deposit, as a journal tells it; `first` is the record that was
kept before its first entry. -/
def outstanding (first : Option BridgeRecord) : List JournalEntry → Option BridgeRecord
  | [] => first
  | e :: earlier => e.act.outstanding (outstanding first earlier)

/-- The act is allowed while a deposit is outstanding. -/
def Act.Allowed (before : Option BridgeRecord) : Act → Prop
  | .asked _ => before = none
  | .deposited _ => before = none
  | _ => True

/-- The bridge was asked for deposits, and took them, only while nothing was outstanding. -/
def Orderly (first : Option BridgeRecord) : List JournalEntry → Prop
  | [] => True
  | e :: earlier => e.act.Allowed (outstanding first earlier) ∧ Orderly first earlier

variable {first : Option BridgeRecord} {r : BridgeRecord}

theorem Orderly.of_append {later earlier : List JournalEntry} (h : Orderly first (later ++ earlier)) :
    Orderly first earlier := by
  induction later with
  | nil => exact h
  | cons e later ih => exact ih h.2

/-- What is outstanding stays so until a wait on it ends well. -/
theorem outstanding_append {later earlier : List JournalEntry}
    (h : Orderly first (later ++ earlier)) (hr : outstanding first earlier = some r)
    (hc : ¬Confirmed r later) : outstanding first (later ++ earlier) = some r := by
  induction later with
  | nil => exact hr
  | cons e later ih =>
    have hlater : outstanding first (later ++ earlier) = some r := by
      refine ih h.2 ?_
      rintro ⟨e', he', hwait⟩
      exact hc ⟨e', List.mem_cons_of_mem e he', hwait⟩
    have hallowed : e.act.Allowed (outstanding first (later ++ earlier)) := h.1
    rw [List.cons_append, outstanding]
    rw [hlater] at hallowed ⊢
    cases hact : e.act with
    | deposited d =>
      rw [hact] at hallowed
      cases hallowed
    | waited r' result =>
      rw [Act.outstanding, if_neg]
      rintro ⟨hstatus, heq⟩
      cases heq
      exact hc ⟨e, by simp, result, hact, hstatus⟩
    | looked reading => rfl
    | asked request => rfl
    | refused why => rfl
    | saved record outcome => rfl

theorem confirmed_of_outstanding_none {later earlier : List JournalEntry}
    (h : Orderly first (later ++ earlier)) (hr : outstanding first earlier = some r)
    (hnone : outstanding first (later ++ earlier) = none) : Confirmed r later := by
  apply Classical.byContradiction
  intro hc
  rw [outstanding_append h hr hc] at hnone
  cases hnone

/-- Before the bridge is asked, every record and every earlier deposit has been seen to arrive. -/
theorem Orderly.confirmed_before_asked {request : Bridge.DepositRequest} {time : Nat}
    {later earlier : List JournalEntry}
    (h : Orderly first (later ++ ⟨time, .asked request⟩ :: earlier)) :
    (∀ r, first = some r → Confirmed r earlier) ∧
      ∀ middle time d before, earlier = middle ++ ⟨time, .deposited d⟩ :: before →
        Confirmed d.record middle := by
  obtain ⟨hnone, horderly⟩ := h.of_append
  have hnone : outstanding first earlier = none := hnone
  constructor
  · intro r hr
    rw [← List.append_nil earlier] at hnone horderly
    exact confirmed_of_outstanding_none horderly hr hnone
  · rintro middle time d before rfl
    exact confirmed_of_outstanding_none horderly rfl hnone

/-! ## The record that is waited for next -/

/-- The record that the next tick would wait for: the one that could not be written, or else the one
in the file. -/
def Controller.next? (path : String) (disk : σ → Disk) (c : Controller ω σ) : Option BridgeRecord :=
  match c.unpersisted with
  | some r => some r
  | none =>
    match StateFile.load path (disk c.store) with
    | .ok kept => kept
    | .error _ => none

variable {k : Charter ω σ} {t : Moment} {path : String} {disk : σ → Disk} {c c' : Controller ω σ}

namespace Controller

theorem next?_of_unpersisted (h : c.unpersisted = some r) : c.next? path disk = some r := by
  rw [next?, h]

theorem next?_of_load {kept : Option BridgeRecord} (h : c.unpersisted = none)
    (hload : StateFile.load path (disk c.store) = .ok kept) : c.next? path disk = kept := by
  rw [next?, h]
  simp only [hload]

theorem next?_congr (h : c'.unpersisted = c.unpersisted)
    (hload : StateFile.load path (disk c'.store) = StateFile.load path (disk c.store)) :
    c'.next? path disk = c.next? path disk := by
  rw [next?, next?, h, hload]

/-- A record that is kept is the next one, whether it could be written or not. -/
theorem next?_persist {s : RecordStore σ} (hs : s.Durable path disk) (now : Nat) (r : BridgeRecord)
    (c : Controller ω σ) : (c.persist s now r).next? path disk = some r := by
  rw [persist_eq]
  cases hsave : (s.save r c.store).1 with
  | ok done => exact next?_of_load rfl (hs.load_save hsave)
  | error why => rfl

end Controller

/-! ## The invariant -/

/-- A controller with an outstanding deposit, or with none: its journal, with the entries of earlier
lives behind it, is orderly, and the outstanding deposit is the one that is waited for next. -/
structure OneDeposit (path : String) (disk : σ → Disk) (first : Option BridgeRecord)
    (past : List JournalEntry) (o : Option BridgeRecord) (c : Controller ω σ) : Prop where
  orderly : Orderly first (c.journal ++ past)
  told : outstanding first (c.journal ++ past) = o
  next : ∀ r, o = some r → c.next? path disk = some r

/-- What is outstanding, if anything, is the given record. -/
def AtMost (r : BridgeRecord) (o : Option BridgeRecord) : Prop := ∀ r', o = some r' → r' = r

theorem atMost_none : AtMost r none := by simp [AtMost]

/-- What a tick that is under way has found to be outstanding. -/
def Tick.Fits (o : Option BridgeRecord) : Tick → Prop
  | .reading _ | .depositing _ _ _ => o = none
  | .bridging r _ | .resuming r _ => AtMost r o

/-- What is outstanding at a stage. Before the first tick every record is in the file. -/
def Stage.Fits (o : Option BridgeRecord) (c : Controller ω σ) : Stage → Prop
  | .idle => c.unpersisted = none
  | .recovering x => c.unpersisted = none ∧ AtMost x.record o
  | .ticking ticks => ∀ x ∈ ticks, x.Fits o

namespace OneDeposit

variable {past : List JournalEntry} {o : Option BridgeRecord} {now : Nat}

theorem of_same (h : OneDeposit path disk first past o c) (hjournal : c'.journal = c.journal)
    (hnext : c'.next? path disk = c.next? path disk) : OneDeposit path disk first past o c' := by
  refine ⟨?_, ?_, ?_⟩
  · rw [hjournal]
    exact h.orderly
  · rw [hjournal]
    exact h.told
  · rw [hnext]
    exact h.next

theorem looked (h : OneDeposit path disk first past o c) (t : Moment) (outside : ω)
    (reading : Except ReadError Reading) :
    OneDeposit path disk first past o (c.afterReading t outside reading) :=
  ⟨⟨trivial, h.orderly⟩, h.told, h.next⟩

theorem refused (h : OneDeposit path disk first past o c) (now : Nat) (why : BridgeError) :
    OneDeposit path disk first past o (c.note now (.refused why)) :=
  ⟨⟨trivial, h.orderly⟩, h.told, h.next⟩

theorem asked (h : OneDeposit path disk first past none c) (now : Nat)
    (request : Bridge.DepositRequest) :
    OneDeposit path disk first past none (c.note now (.asked request)) :=
  ⟨⟨h.told, h.orderly⟩, h.told, by simp⟩

/-- A record that is kept is the next one, so it may be the outstanding one. -/
theorem persisted {s : RecordStore σ} (hs : s.Durable path disk)
    (horderly : Orderly first (c.journal ++ past)) (htold : outstanding first (c.journal ++ past) = o)
    (ho : AtMost r o) : OneDeposit path disk first past o (c.persist s now r) := by
  refine ⟨?_, ?_, ?_⟩
  · rw [Controller.journal_persist]
    exact ⟨trivial, horderly⟩
  · rw [Controller.journal_persist]
    exact htold
  · intro r' hr'
    rw [ho r' hr']
    exact Controller.next?_persist hs now r c

/-- A deposit that is taken while nothing is outstanding is outstanding from then on. -/
theorem accepted (hs : k.store.Durable path disk) (h : OneDeposit path disk first past none c)
    (d : Deposit) (s : Bridge.Submission) :
    OneDeposit path disk first past (some d.record) (Tick.accept k t d s d.record c) := by
  rw [Tick.accept]
  exact persisted hs ⟨h.told, h.orderly⟩ rfl fun r' hr' => (Option.some.inj hr').symm

/-- A wait on the record of the outstanding deposit settles it if it ends well, and else changes
nothing. -/
theorem settled (h : OneDeposit path disk first past o c) (ho : AtMost r o) (s : RecordStore σ)
    (cooldown : Nat) (result : WaitResult) : ∃ o', AtMost r o' ∧
      OneDeposit path disk first past o' (c.settle s cooldown now r result) := by
  have htold : outstanding first ((c.settle s cooldown now r result).journal ++ past)
      = (Act.waited r result).outstanding o := by
    rw [Controller.journal_settle, List.cons_append, outstanding, h.told]
  have horderly : Orderly first ((c.settle s cooldown now r result).journal ++ past) := by
    rw [Controller.journal_settle]
    exact ⟨trivial, h.orderly⟩
  by_cases hstatus : result.status = .confirmed
  · refine ⟨none, atMost_none, horderly, ?_, by simp⟩
    rw [htold, Act.outstanding]
    split
    · rfl
    · rename_i hne
      cases o with
      | none => rfl
      | some r' => exact absurd ⟨hstatus, congrArg some (ho r' rfl)⟩ hne
  · refine ⟨o, ho, horderly, ?_, ?_⟩
    · rw [htold, Act.outstanding, if_neg fun hsettled => hstatus hsettled.1]
    · rw [Controller.settle_of_ne s cooldown now r hstatus]
      exact h.next

theorem waits {x : Wait} {p : Progress Wait WaitResult} (h : OneDeposit path disk first past o c)
    (ho : AtMost r o) (hmove : WaitMove k t r x c p c') :
    ∃ o', AtMost r o' ∧ OneDeposit path disk first past o' c' := by
  cases hmove with
  | pending hpoll => exact ⟨o, ho, h.of_same rfl rfl⟩
  | @done result outside view hpoll =>
    have hsame : OneDeposit path disk first past o { c with outside, view } := h.of_same rfl rfl
    exact hsame.settled ho _ _ _

end OneDeposit

theorem WaitMove.unpersisted {x : Wait} {p : Progress Wait WaitResult} (h : WaitMove k t r x c p c')
    (hc : c.unpersisted = none) : c'.unpersisted = none := by
  cases h with
  | pending h => exact hc
  | @done result _ _ h =>
    by_cases hstatus : result.status = .confirmed
    · rw [Controller.settle_confirmed _ _ _ _ hstatus]
    · rw [Controller.settle_of_ne _ _ _ _ hstatus]
      exact hc

/-! ## What keeps it -/

/-- The invariant of a session: there is at most one outstanding deposit, and it fits the stage. -/
def Session.Holds (path : String) (disk : σ → Disk) (first : Option BridgeRecord)
    (past : List JournalEntry) (g : Stage) (c : Controller ω σ) : Prop :=
  ∃ o, OneDeposit path disk first past o c ∧ g.Fits o c

variable {past : List JournalEntry} {o : Option BridgeRecord}

theorem Drift.next? (h : Drift path disk c c') : c'.next? path disk = c.next? path disk := by
  cases h with
  | store x hx => exact Controller.next?_congr rfl (StateFile.load_congr hx)
  | outside | refreshed | shutdown => rfl

theorem Drift.journal (h : Drift path disk c c') : c'.journal = c.journal := by
  cases h <;> rfl

theorem Drift.unpersisted (h : Drift path disk c c') : c'.unpersisted = c.unpersisted := by
  cases h <;> rfl

theorem Stage.Fits.of_unpersisted {g : Stage} (h : g.Fits o c) (hc : c'.unpersisted = c.unpersisted) :
    g.Fits o c' := by
  cases g with
  | idle => exact hc.trans h
  | recovering x => exact ⟨hc.trans h.1, h.2⟩
  | ticking ticks => exact h

/-- What is outstanding is the record that was loaded. -/
theorem OneDeposit.atMost_of_load (hs : k.store.Durable path disk)
    (h : OneDeposit path disk first past o c) (hunpersisted : c.unpersisted = none)
    {kept : Option BridgeRecord} {store : σ} (hload : k.store.load c.store = (.ok kept, store))
    {r' : BridgeRecord} (hr' : o = some r') : kept = some r' := by
  have hfile := hs.load_ok c.store kept (by rw [hload])
  rw [← h.next r' hr', Controller.next?_of_load hunpersisted hfile]

theorem OneDeposit.of_load (hs : k.store.Durable path disk)
    (h : OneDeposit path disk first past o c) {answer : Except StoreError (Option BridgeRecord)}
    {store : σ} (hload : k.store.load c.store = (answer, store))
    (hjournal : c'.journal = c.journal) (hunpersisted : c'.unpersisted = c.unpersisted)
    (hstore : c'.store = store) : OneDeposit path disk first past o c' := by
  have hfile := hs.load_load (x := c.store)
  rw [hload] at hfile
  refine h.of_same hjournal (Controller.next?_congr hunpersisted ?_)
  rw [hstore]
  exact hfile

namespace Session

variable {Q : Controller ω σ → Controller ω σ → Prop}

theorem holds_opening (hs : k.store.Durable path disk) {p : Progress Tick TickOutcome}
    (hmove : Tick.Opening k t c p c') (h : Holds path disk first past (.ticking []) c) :
    Holds path disk first past (.ticking (Tick.left p)) c' := by
  obtain ⟨o, h, -⟩ := h
  cases hmove with
  | taken => exact ⟨o, h, by simp [Stage.Fits, Tick.left]⟩
  | @retried r _ hr =>
    have ho : AtMost r o := by
      intro r' hr'
      have hnext := h.next r' hr'
      rw [Controller.next?_of_unpersisted hr] at hnext
      exact (Option.some.inj hnext).symm
    refine ⟨o, OneDeposit.persisted hs h.orderly h.told ho, ?_⟩
    simpa [Stage.Fits, Tick.left, Tick.Fits] using ho
  | unloaded _ _ hload =>
    exact ⟨o, h.of_load hs hload rfl rfl rfl, by simp [Stage.Fits, Tick.left]⟩
  | @resumed r _ _ hr hload =>
    have ho : AtMost r o := fun r' hr' =>
      (Option.some.inj (h.atMost_of_load hs hr hload hr')).symm
    refine ⟨o, h.of_load hs hload rfl rfl rfl, ?_⟩
    simpa [Stage.Fits, Tick.left, Tick.Fits] using ho
  | reads _ hr hload =>
    have ho : o = none := by
      cases o with
      | none => rfl
      | some r' => cases h.atMost_of_load hs hr hload rfl
    refine ⟨o, h.of_load hs hload rfl rfl rfl, ?_⟩
    simpa [Stage.Fits, Tick.left, Tick.Fits] using ho

theorem holds_move (hs : k.store.Durable path disk) {x : Tick} {p : Progress Tick TickOutcome}
    (hmove : Tick.Move k t c x p c') (h : Holds path disk first past (.ticking [x]) c) :
    Holds path disk first past (.ticking (Tick.left p)) c' := by
  obtain ⟨o, h, hfits⟩ := h
  have hx : x.Fits o := hfits x (by simp)
  cases hmove with
  | reads => exact ⟨o, h.of_same rfl rfl, by simpa [Stage.Fits, Tick.left, Tick.Fits] using hx⟩
  | unread => exact ⟨o, (h.looked t _ _).of_same rfl rfl, by simp [Stage.Fits, Tick.left]⟩
  | cools => exact ⟨o, (h.looked t _ _).of_same rfl rfl, by simp [Stage.Fits, Tick.left]⟩
  | enough => exact ⟨o, (h.looked t _ _).of_same rfl rfl, by simp [Stage.Fits, Tick.left]⟩
  | asks =>
    obtain rfl : o = none := hx
    exact ⟨none, (h.looked t _ _).asked _ _, by simp [Stage.Fits, Tick.left, Tick.Fits]⟩
  | deposits => exact ⟨o, h.of_same rfl rfl, by simpa [Stage.Fits, Tick.left, Tick.Fits] using hx⟩
  | @refused _ _ _ why outside =>
    have hsame : OneDeposit path disk first past o { c with outside } := h.of_same rfl rfl
    exact ⟨o, (hsame.refused t.now why).of_same rfl rfl, by simp [Stage.Fits, Tick.left]⟩
  | @accepted _ _ _ _ outside =>
    obtain rfl : o = none := hx
    have hsame : OneDeposit path disk first past none { c with outside } := h.of_same rfl rfl
    exact ⟨_, hsame.accepted hs _ _, by simp [Stage.Fits, Tick.left, Tick.Fits, AtMost]⟩
  | bridges hwait =>
    obtain ⟨o', ho', h'⟩ := h.waits hx hwait
    exact ⟨o', h', by simpa [Stage.Fits, Tick.left, Tick.Fits] using ho'⟩
  | bridged hwait =>
    obtain ⟨o', -, h'⟩ := h.waits hx hwait
    exact ⟨o', h'.of_same rfl rfl, by simp [Stage.Fits, Tick.left]⟩
  | resumes hwait =>
    obtain ⟨o', ho', h'⟩ := h.waits hx hwait
    exact ⟨o', h', by simpa [Stage.Fits, Tick.left, Tick.Fits] using ho'⟩
  | resumed hwait =>
    obtain ⟨o', -, h'⟩ := h.waits hx hwait
    exact ⟨o', h'.of_same rfl rfl, by simp [Stage.Fits, Tick.left]⟩

theorem holds_recoveryOpening (hs : k.store.Durable path disk)
    {p : Progress Recovery (Except StoreError (Option WaitResult))}
    (hmove : Recovery.Opening k t c p c') (h : Holds path disk first past .idle c) :
    Holds path disk first past (.ofRecovery p) c' := by
  obtain ⟨o, h, hunpersisted⟩ := h
  cases hmove with
  | unloaded hload => exact ⟨o, h.of_load hs hload rfl rfl rfl, hunpersisted⟩
  | nothing hload => exact ⟨o, h.of_load hs hload rfl rfl rfl, hunpersisted⟩
  | found hload =>
    exact ⟨o, h.of_load hs hload rfl rfl rfl, hunpersisted, fun r' hr' =>
      (Option.some.inj (h.atMost_of_load hs hunpersisted hload hr')).symm⟩
  | foundTaken hload =>
    exact ⟨o, h.of_load hs hload rfl rfl rfl, hunpersisted, fun r' hr' =>
      (Option.some.inj (h.atMost_of_load hs hunpersisted hload hr')).symm⟩

theorem holds_recoveryMove {x : Recovery}
    {p : Progress Recovery (Except StoreError (Option WaitResult))} (hholds : x.holdsFlag = true)
    (hmove : Recovery.Move k t c x p c') (h : Holds path disk first past (.recovering x) c) :
    Holds path disk first past (.ofRecovery p) c' := by
  obtain ⟨o, h, hunpersisted, hx⟩ := h
  cases hmove with
  | waits hwait =>
    obtain ⟨o', ho', h'⟩ := h.waits hx hwait
    exact ⟨o', h', hwait.unpersisted hunpersisted, ho'⟩
  | ends hwait =>
    obtain ⟨o', -, h'⟩ := h.waits hx hwait
    rw [if_pos hholds]
    exact ⟨o', h'.of_same rfl rfl, hwait.unpersisted hunpersisted⟩

/-- Whatever happens in a session keeps the invariant, even if the file is lost when a record cannot
be written or forgotten. -/
theorem kept_holds_of_durable (hs : k.store.Durable path disk) (first : Option BridgeRecord)
    (past : List JournalEntry) : Kept Q k path disk (Holds path disk first past) where
  drift hdrift _ h := by
    obtain ⟨o, h, hfits⟩ := h
    exact ⟨o, h.of_same hdrift.journal hdrift.next?, hfits.of_unpersisted hdrift.unpersisted⟩
  ready h := by
    obtain ⟨o, h, -⟩ := h
    exact ⟨o, h, by simp [Stage.Fits]⟩
  opening _ := holds_opening hs
  move := holds_move hs
  recoveryOpening _ := holds_recoveryOpening hs
  recoveryMove := holds_recoveryMove

theorem kept_holds (hs : k.store.OnFile path disk) (first : Option BridgeRecord)
    (past : List JournalEntry) : Kept Q k path disk (Holds path disk first past) :=
  kept_holds_of_durable hs.durable first past

/-- A session that begins with some records in its past holds the invariant, if the file keeps what
is outstanding. -/
theorem holds_start (staleAfter : Nat) (outside : ω) (store : σ) (horderly : Orderly first past)
    (hload : ∀ r, outstanding first past = some r →
      StateFile.load path (disk store) = .ok (some r)) :
    Holds path disk first past .idle (Controller.initial staleAfter outside store) :=
  ⟨outstanding first past,
    ⟨horderly, rfl, fun r hr => Controller.next?_of_load rfl (hload r hr)⟩, rfl⟩

theorem lone_start (staleAfter : Nat) (outside : ω) (store : σ) :
    Stage.idle.Lone (Controller.initial staleAfter outside store) := rfl

/-- In every run of a session, whatever the node and the bridge answer and whichever operations on
the state file fail: when the bridge is asked for a deposit, a wait on the record that was in the
file at the start and on the record of every deposit that it took before has ended well; and while a
deposit has not been seen to arrive, the next tick would wait for it. -/
theorem run_one_deposit (hs : k.store.OnFile path disk) {staleAfter : Nat} {outside : ω} {store : σ}
    {s : Session ω σ} (h : Run k path disk (start staleAfter outside store) s) :
    (∀ later time request earlier,
      s.controller.journal = later ++ ⟨time, .asked request⟩ :: earlier →
        (∀ r, StateFile.load path (disk store) = .ok (some r) → Confirmed r earlier) ∧
        ∀ middle time d before, earlier = middle ++ ⟨time, .deposited d⟩ :: before →
          Confirmed d.record middle) ∧
    ∀ later time d earlier, s.controller.journal = later ++ ⟨time, .deposited d⟩ :: earlier →
      ¬Confirmed d.record later →
        s.controller.next? path disk = some ⟨d.baseline, d.request.amount, d.request.secretHash,
          d.receipt.messageHash, d.receipt.leafIndex, d.wall⟩ := by
  have hstart : Holds path disk ((Controller.initial staleAfter outside store).next? path disk) []
      .idle (Controller.initial staleAfter outside store) :=
    ⟨_, ⟨trivial, rfl, fun _ hr => hr⟩, rfl⟩
  obtain ⟨-, o, hone, -⟩ := (kept_holds hs _ []).run h (lone_start staleAfter outside store) hstart
  have horderly := hone.orderly
  have htold := hone.told
  rw [List.append_nil] at horderly htold
  constructor
  · intro later time request earlier hjournal
    rw [hjournal] at horderly
    obtain ⟨hfirst, hdeposits⟩ := horderly.confirmed_before_asked
    exact ⟨fun r hr => hfirst r (Controller.next?_of_load rfl hr), hdeposits⟩
  · intro later time d earlier hjournal hc
    rw [hjournal] at horderly htold
    rw [outstanding_append (r := d.record) horderly rfl hc] at htold
    exact hone.next d.record htold.symm

/-- The state file of a controller without a network. -/
def offlinePath : String := "bridge.json"

/-- A controller without a network, on a disk that fails when it is told to. -/
def offlineCharter : Charter Offline ShakyDisk where
  node := Offline.nodeLink
  bridge := Offline.bridgeLink
  store := ShakyDisk.store offlinePath
  monitor := ⟨⟨1⟩, ⟨2⟩, 3, true⟩
  policy := ⟨100, 50, 1000, 0, ⟨10, 100, 1000⟩⟩

/-- Nothing is on the node, and the bridge does not tell it of deposits. -/
def offlineStart (works : List Bool) : Session Offline ShakyDisk :=
  start 3000 ⟨.simulated { balance := 0, feeJuice := ⟨1⟩ }, .simulated {}⟩ ⟨.empty, works⟩

/-- The record of a deposit could not be written, so it is waited for from memory. -/
theorem run_one_deposit_unwritten : ∃ (s : Session Offline ShakyDisk) (d : Deposit),
    Run offlineCharter offlinePath ShakyDisk.disk (offlineStart [true, false]) s ∧
      s.controller.unpersisted = some d.record ∧
      s.controller.next? offlinePath ShakyDisk.disk = some d.record := by
  have hrun : Run offlineCharter offlinePath ShakyDisk.disk (offlineStart [true, false]) _ :=
    .tail (.single .ready) (.ticks ⟨0, 0, false, 0⟩ trivial)
  exact ⟨_, _, hrun, rfl,
    (run_one_deposit (ShakyDisk.onFile_store offlinePath) hrun).2 [_] _ _ _ rfl
      (by simp [Confirmed])⟩

end Session
end Paymaster.Reserve

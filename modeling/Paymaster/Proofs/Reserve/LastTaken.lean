import Paymaster.Proofs.Reserve.OneDeposit
/-!
# Whose deposit is waited for

A wait is always for the deposit that the bridge took last or, before the first one, for the record
that the file held at the start. An older record does not come back: a deposit is made only when
none is kept, in memory or in the file, and an operation on the file that fails leaves it as it was.
So whatever is kept from then on is the record of that deposit, even if it could not be removed
after a wait that ended well.
-/

namespace Paymaster.Reserve

variable {ω σ : Type} {k : Charter ω σ} {t : Moment} {path : String} {disk : σ → Disk}
  {c c' : Controller ω σ} {g : Stage} {first : Option BridgeRecord} {r : BridgeRecord}

/-- The record of the deposit that the bridge took last, as a journal tells it; `first` is the
record that was kept before its first entry. -/
def lastTaken (first : Option BridgeRecord) : List JournalEntry → Option BridgeRecord
  | [] => first
  | e :: earlier =>
    match e.act with
    | .deposited d => some d.record
    | _ => lastTaken first earlier

/-- Each wait that a journal tells of was for the deposit that was taken last before. -/
def OnLast (first : Option BridgeRecord) : List JournalEntry → Prop
  | [] => True
  | e :: earlier => (∀ r result, e.act = .waited r result → lastTaken first earlier = some r) ∧
      OnLast first earlier

theorem OnLast.of_append {later earlier : List JournalEntry} (h : OnLast first (later ++ earlier)) :
    OnLast first earlier := by
  induction later with
  | nil => exact h
  | cons e later ih => exact ih h.2

/-- What is kept, and what was waited for, is the record of the deposit that was taken last. -/
structure KeepsLast (path : String) (disk : σ → Disk) (first : Option BridgeRecord)
    (c : Controller ω σ) : Prop where
  memory : ∀ r, c.unpersisted = some r → lastTaken first c.journal = some r
  file : ∀ r, StateFile.load path (disk c.store) = .ok (some r) → lastTaken first c.journal = some r
  waits : OnLast first c.journal

/-- A wait is for the deposit that was taken last; else no record is kept. -/
def Tick.ForLast (path : String) (disk : σ → Disk) (first : Option BridgeRecord)
    (c : Controller ω σ) : Tick → Prop
  | .reading _ | .depositing _ _ _ => c.next? path disk = none
  | .bridging r _ | .resuming r _ => lastTaken first c.journal = some r

def Stage.ForLast (path : String) (disk : σ → Disk) (first : Option BridgeRecord)
    (c : Controller ω σ) : Stage → Prop
  | .idle => True
  | .recovering x => lastTaken first c.journal = some x.record
  | .ticking ticks => ∀ x ∈ ticks, x.ForLast path disk first c

theorem Controller.next?_eq_none : c.next? path disk = none ↔ c.unpersisted = none ∧
    ∀ r, StateFile.load path (disk c.store) ≠ .ok (some r) := by
  rw [next?]
  cases c.unpersisted with
  | some r => simp
  | none =>
    rcases StateFile.load path (disk c.store) with why | _ | r
    · simp
    · simp
    · simp

theorem Stage.forLast_single {x : Tick} : (Stage.ticking [x]).ForLast path disk first c ↔
    x.ForLast path disk first c := List.forall_mem_singleton

theorem Stage.forLast_none : (Stage.ticking []).ForLast path disk first c := by
  simp [Stage.ForLast]

namespace KeepsLast

theorem of_journal (h : KeepsLast path disk first c) (hjournal : c'.journal = c.journal)
    (hunpersisted : c'.unpersisted = c.unpersisted)
    (hfile : StateFile.load path (disk c'.store) = StateFile.load path (disk c.store)) :
    KeepsLast path disk first c' := by
  refine ⟨?_, ?_, ?_⟩
  · rw [hunpersisted, hjournal]
    exact h.memory
  · rw [hfile, hjournal]
    exact h.file
  · rw [hjournal]
    exact h.waits

theorem of_load (hs : k.store.OnFile path disk) (h : KeepsLast path disk first c)
    {answer : Except StoreError (Option BridgeRecord)} {store : σ}
    (hload : k.store.load c.store = (answer, store)) (hjournal : c'.journal = c.journal)
    (hunpersisted : c'.unpersisted = c.unpersisted) (hstore : c'.store = store) :
    KeepsLast path disk first c' := by
  have hfile := hs.durable.load_load (x := c.store)
  rw [hload] at hfile
  refine h.of_journal hjournal hunpersisted ?_
  rw [hstore]
  exact hfile

theorem loaded (hs : k.store.OnFile path disk) (h : KeepsLast path disk first c) {store : σ}
    (hload : k.store.load c.store = (.ok (some r), store)) :
    lastTaken first c.journal = some r :=
  h.file r (hs.load_ok c.store (some r) (by rw [hload]))

/-- A record that is kept again is still that of the last deposit. -/
theorem persist {s : RecordStore σ} (hs : s.OnFile path disk) (h : KeepsLast path disk first c)
    (hr : lastTaken first c.journal = some r) (now : Nat) :
    KeepsLast path disk first (c.persist s now r) := by
  rw [Controller.persist_eq]
  cases hsave : (s.save r c.store).1 with
  | ok done =>
    refine ⟨fun r' hr' => (by cases hr'), fun r' hr' => ?_, ⟨fun _ _ h => (by cases h), h.waits⟩⟩
    cases (hs.durable.load_save hsave).symm.trans hr'
    exact hr
  | error why =>
    refine ⟨fun r' hr' => ?_, fun r' hr' => ?_, ⟨fun _ _ h => (by cases h), h.waits⟩⟩
    · cases hr'
      exact hr
    · rw [StateFile.load_congr (hs.save_error r c.store why hsave)] at hr'
      exact h.file r' hr'

/-- A deposit that is taken while no record is kept is the last one. -/
theorem accept (hs : k.store.OnFile path disk) (h : KeepsLast path disk first c)
    (hnone : c.next? path disk = none) (d : Deposit) (s : Bridge.Submission) :
    KeepsLast path disk first (Tick.accept k t d s d.record c) := by
  obtain ⟨hmemory, hfile⟩ := Controller.next?_eq_none.mp hnone
  have hwaits : OnLast first (⟨t.now, .deposited d⟩ :: c.journal) :=
    ⟨fun _ _ hact => (by cases hact), h.waits⟩
  have hnoted : KeepsLast path disk first
      { (c.note t.now (.deposited d)).record .submitted with lastSubmission := some s } :=
    ⟨fun r hr => (by cases hmemory.symm.trans hr), fun r hr => absurd hr (hfile r), hwaits⟩
  exact hnoted.persist hs rfl t.now

/-- A wait for the last deposit that ends forgets its record, or leaves it where it was. -/
theorem settle (hs : k.store.OnFile path disk) (h : KeepsLast path disk first c)
    (hr : lastTaken first c.journal = some r) (now : Nat) (result : WaitResult) :
    KeepsLast path disk first (c.settle k.store k.policy.cooldown now r result) := by
  have hwaits : OnLast first (⟨now, .waited r result⟩ :: c.journal) :=
    ⟨fun r' result' hact => (by cases hact; exact hr), h.waits⟩
  by_cases hstatus : result.status = .confirmed
  · rw [Controller.settle_confirmed _ _ _ _ hstatus]
    refine ⟨fun r' hr' => (by cases hr'), fun r' hr' => ?_, hwaits⟩
    cases hclear : (k.store.clear c.store).1 with
    | ok done =>
      rw [StateFile.load_of_clear (hs.clear_ok c.store hclear)] at hr'
      cases hr'
    | error why =>
      rw [StateFile.load_congr (hs.clear_error c.store why hclear)] at hr'
      exact h.file r' hr'
  · rw [Controller.settle_of_ne _ _ _ _ hstatus]
    exact ⟨h.memory, h.file, hwaits⟩

theorem wait {x : Wait} {p : Progress Wait WaitResult} (hs : k.store.OnFile path disk)
    (h : KeepsLast path disk first c) (hr : lastTaken first c.journal = some r)
    (hmove : WaitMove k t r x c p c') :
    KeepsLast path disk first c' ∧ lastTaken first c'.journal = some r := by
  cases hmove with
  | pending => exact ⟨h.of_journal rfl rfl rfl, hr⟩
  | @done result outside view =>
    have hsame : KeepsLast path disk first { c with outside, view } := h.of_journal rfl rfl rfl
    refine ⟨hsame.settle hs hr t.now result, ?_⟩
    rw [Controller.journal_settle]
    exact hr

theorem of_drift (h : KeepsLast path disk first c) (hdrift : Drift path disk c c') :
    KeepsLast path disk first c' := by
  refine h.of_journal hdrift.journal hdrift.unpersisted ?_
  cases hdrift with
  | store x hx => exact StateFile.load_congr hx
  | outside | refreshed | shutdown => rfl

end KeepsLast

theorem Stage.ForLast.of_drift (h : g.ForLast path disk first c) (hdrift : Drift path disk c c') :
    g.ForLast path disk first c' := by
  cases g with
  | idle => trivial
  | recovering x =>
    rw [ForLast, hdrift.journal]
    exact h
  | ticking ticks =>
    intro x hx
    have hfor := h x hx
    cases x with
    | reading | depositing => exact hdrift.next?.trans hfor
    | bridging | resuming =>
      rw [Tick.ForLast, hdrift.journal]
      exact hfor

namespace Session

theorem keepsLast_opening (hs : k.store.OnFile path disk) {p : Progress Tick TickOutcome}
    (hmove : Tick.Opening k t c p c') (h : KeepsLast path disk first c) :
    KeepsLast path disk first c' ∧
      (Stage.ticking (Tick.left p)).ForLast path disk first c' := by
  cases hmove with
  | taken => exact ⟨h, Stage.forLast_none⟩
  | @retried r hflag hr =>
    have hkept : KeepsLast path disk first c.takeFlight := h.of_journal rfl rfl rfl
    refine ⟨hkept.persist hs (h.memory r hr) t.now, Stage.forLast_single.mpr ?_⟩
    rw [Tick.ForLast, Controller.journal_persist]
    exact h.memory r hr
  | unloaded hflag hr hload => exact ⟨h.of_load hs hload rfl rfl rfl, Stage.forLast_none⟩
  | @resumed r store hflag hr hload =>
    have hlast : lastTaken first c.journal = some r := h.loaded hs hload
    exact ⟨h.of_load hs hload rfl rfl rfl, Stage.forLast_single.mpr hlast⟩
  | @reads store hflag hr hload =>
    refine ⟨h.of_load hs hload rfl rfl rfl, Stage.forLast_single.mpr ?_⟩
    have hfile := hs.durable.load_load (x := c.store)
    rw [hload] at hfile
    exact Controller.next?_of_load hr (hfile.trans (hs.load_ok c.store none (by rw [hload])))

theorem keepsLast_move (hs : k.store.OnFile path disk) {x : Tick} {p : Progress Tick TickOutcome}
    (hmove : Tick.Move k t c x p c') (h : KeepsLast path disk first c)
    (hx : x.ForLast path disk first c) :
    KeepsLast path disk first c' ∧
      (Stage.ticking (Tick.left p)).ForLast path disk first c' := by
  cases hmove with
  | reads => exact ⟨h.of_journal rfl rfl rfl, Stage.forLast_single.mpr hx⟩
  | unread | cools | enough =>
    exact ⟨⟨h.memory, h.file, fun _ _ hact => (by cases hact), h.waits⟩, Stage.forLast_none⟩
  | asks =>
    exact ⟨⟨h.memory, h.file, fun _ _ hact => (by cases hact), fun _ _ hact => (by cases hact),
      h.waits⟩, Stage.forLast_single.mpr hx⟩
  | deposits => exact ⟨h.of_journal rfl rfl rfl, Stage.forLast_single.mpr hx⟩
  | refused =>
    exact ⟨⟨h.memory, h.file, fun _ _ hact => (by cases hact), h.waits⟩, Stage.forLast_none⟩
  | @accepted _ _ _ _ outside =>
    have hsame : KeepsLast path disk first { c with outside } := h.of_journal rfl rfl rfl
    refine ⟨hsame.accept hs hx _ _, Stage.forLast_single.mpr ?_⟩
    rw [Tick.ForLast, Tick.accept, Controller.journal_persist]
    rfl
  | bridges hwait =>
    obtain ⟨h', hlast⟩ := h.wait hs hx hwait
    exact ⟨h', Stage.forLast_single.mpr hlast⟩
  | bridged hwait =>
    exact ⟨(h.wait hs hx hwait).1.of_journal rfl rfl rfl, Stage.forLast_none⟩
  | resumes hwait =>
    obtain ⟨h', hlast⟩ := h.wait hs hx hwait
    exact ⟨h', Stage.forLast_single.mpr hlast⟩
  | resumed hwait =>
    exact ⟨(h.wait hs hx hwait).1.of_journal rfl rfl rfl, Stage.forLast_none⟩

theorem keepsLast_recoveryOpening (hs : k.store.OnFile path disk)
    {p : Progress Recovery (Except StoreError (Option WaitResult))}
    (hmove : Recovery.Opening k t c p c') (h : KeepsLast path disk first c) :
    KeepsLast path disk first c' ∧ (Stage.ofRecovery p).ForLast path disk first c' := by
  cases hmove with
  | unloaded hload => exact ⟨h.of_load hs hload rfl rfl rfl, trivial⟩
  | nothing hload => exact ⟨h.of_load hs hload rfl rfl rfl, trivial⟩
  | @found r store hload | @foundTaken r store hload =>
    have hlast : lastTaken first c.journal = some r := h.loaded hs hload
    exact ⟨h.of_load hs hload rfl rfl rfl, hlast⟩

theorem keepsLast_recoveryMove (hs : k.store.OnFile path disk) {x : Recovery}
    {p : Progress Recovery (Except StoreError (Option WaitResult))}
    (hmove : Recovery.Move k t c x p c') (h : KeepsLast path disk first c)
    (hx : lastTaken first c.journal = some x.record) :
    KeepsLast path disk first c' ∧ (Stage.ofRecovery p).ForLast path disk first c' := by
  cases hmove with
  | waits hwait => exact h.wait hs hx hwait
  | ends hwait =>
    have hended := (h.wait hs hx hwait).1
    cases x.holdsFlag with
    | true => exact ⟨hended.of_journal rfl rfl rfl, trivial⟩
    | false => exact ⟨hended, trivial⟩

/-- Whatever happens in a session, and whichever operations on the file fail, it is the deposit
taken last that is kept and waited for. -/
theorem kept_last (hs : k.store.OnFile path disk) (first : Option BridgeRecord)
    {Q : Controller ω σ → Controller ω σ → Prop} :
    Kept Q k path disk fun g c => KeepsLast path disk first c ∧ g.ForLast path disk first c where
  drift hdrift _ h := ⟨h.1.of_drift hdrift, h.2.of_drift hdrift⟩
  ready h := ⟨h.1, Stage.forLast_none⟩
  opening _ hmove h := keepsLast_opening hs hmove h.1
  move hmove h := keepsLast_move hs hmove h.1 (Stage.forLast_single.mp h.2)
  recoveryOpening _ hmove h := keepsLast_recoveryOpening hs hmove h.1
  recoveryMove _ hmove h := keepsLast_recoveryMove hs hmove h.1 h.2

/-- In every run each wait that ends was for the deposit that the bridge took last before, or for
the record that the file held at the start. -/
theorem Run.onLast (hs : k.store.OnFile path disk) {staleAfter : Nat} {outside : ω} {store : σ}
    {s : Session ω σ} (h : Run k path disk (start staleAfter outside store) s) :
    OnLast ((start staleAfter outside store).controller.next? path disk) s.controller.journal := by
  have hstart : KeepsLast path disk ((start staleAfter outside store).controller.next? path disk)
      (Controller.initial staleAfter outside store) :=
    ⟨fun _ hr => (by cases hr), fun _ hr => Controller.next?_of_load rfl hr, trivial⟩
  exact ((kept_last hs _).run h (lone_start staleAfter outside store) ⟨hstart, trivial⟩).2.1.waits

end Session
end Paymaster.Reserve

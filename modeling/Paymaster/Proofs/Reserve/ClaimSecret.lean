import Paymaster.Proofs.Reserve.Cooldown
/-!
# The claim secret

A deposit can be claimed on the rollup only with its secret. The bridge and the record know no more
than the hash; the secret itself is in the memory of the controller, which has room for one, so the
next deposit overwrites it. It is still there as long as it can be needed: a record that is kept
bars the next deposit, and what is kept is the record of the deposit that was taken last.
-/

namespace Paymaster

open Bridge (ClaimSecret)

/-! ## Field elements -/

theorem head?_bigEndian {width n : Nat} (h : n < 1 <<< (8 * width)) :
    (bigEndian (width + 1) n).head? = some 0 := by
  induction width generalizing n with
  | zero =>
    obtain rfl : n = 0 := by simpa using h
    rfl
  | succ width ih =>
    have hdiv : n / 256 < 1 <<< (8 * width) := by
      apply Nat.div_lt_of_lt_mul
      rw [Nat.mul_succ, Nat.one_shiftLeft, Nat.pow_add, Nat.mul_comm] at h
      rwa [Nat.one_shiftLeft]
    rw [bigEndian, List.head?_append, ih hdiv]
    rfl

/-- A word without its most significant byte begins with a zero byte. -/
theorem Bridge.head?_clearTop (w : Word) : (clearTop w).toBytes.head? = some 0 := by
  have hlt : (clearTop w).toNat < 1 <<< (8 * 31) := by
    rw [clearTop, BitVec.toNat_setWidth, Nat.one_shiftLeft]
    exact Nat.lt_of_le_of_lt (Nat.mod_le _ _) (BitVec.isLt _)
  exact head?_bigEndian hlt

namespace Reserve

variable {ω σ : Type}

/-! ## Journals -/

/-- The deposit that an act tells of. -/
def Act.deposit? : Act → Option Deposit
  | .deposited d => some d
  | _ => none

/-- The last deposit that the bridge took. -/
def lastDeposit (journal : List JournalEntry) : Option Deposit := journal.findSome? (·.act.deposit?)

/-- The act is about the secret at hand: a request is locked with a fresh one, and a record that is
written is that of the last deposit. -/
def Act.Faithful (k : Charter ω σ) (earlier : List JournalEntry) : Act → Prop
  | .asked request => ∃ random, request = k.requestAt (.ofRandom random)
  | .saved r _ => ∃ d, lastDeposit earlier = some d ∧ r = d.record
  | _ => True

def Faithful (k : Charter ω σ) : List JournalEntry → Prop
  | [] => True
  | e :: earlier => e.act.Faithful k earlier ∧ Faithful k earlier

/-- A deposit is directly followed by the writing of its record. -/
def Recorded (journal : List JournalEntry) : Prop :=
  ∀ later time d earlier, journal = later ++ ⟨time, .deposited d⟩ :: earlier →
    ∃ newer outcome, later = newer ++ [⟨time, .saved d.record outcome⟩]

variable {k : Charter ω σ} {journal : List JournalEntry} {e : JournalEntry} {d : Deposit}

theorem lastDeposit_cons_of_none (he : e.act.deposit? = none) :
    lastDeposit (e :: journal) = lastDeposit journal := by
  rw [lastDeposit, List.findSome?_cons, he]
  rfl

theorem exists_lastDeposit (he : e ∈ journal) (hd : e.act = .deposited d) :
    ∃ d', lastDeposit journal = some d' := by
  apply Option.isSome_iff_exists.mp
  rw [lastDeposit, List.findSome?_isSome_iff]
  refine ⟨e, he, ?_⟩
  rw [hd]
  rfl

theorem Faithful.of_mem_asked (h : Faithful k journal) {request : Bridge.DepositRequest}
    (he : e ∈ journal) (hact : e.act = .asked request) :
    ∃ random, request = k.requestAt (.ofRandom random) := by
  induction journal with
  | nil => cases he
  | cons first earlier ih =>
    rcases List.mem_cons.mp he with rfl | he
    · have hfirst := h.1
      rw [hact] at hfirst
      exact hfirst
    · exact ih h.2 he

theorem Recorded.cons (h : Recorded journal) (he : e.act.deposit? = none) :
    Recorded (e :: journal) := by
  intro later time d earlier hjournal
  cases later with
  | nil =>
    cases hjournal
    cases he
  | cons first later =>
    obtain ⟨rfl, hrest⟩ := List.cons.inj hjournal
    obtain ⟨newer, outcome, rfl⟩ := h later time d earlier hrest
    exact ⟨e :: newer, outcome, rfl⟩

theorem Recorded.deposited (h : Recorded journal) (time : Nat) (d : Deposit)
    (outcome : Except StoreError Unit) :
    Recorded (⟨time, .saved d.record outcome⟩ :: ⟨time, .deposited d⟩ :: journal) := by
  intro later time' d' earlier hjournal
  rcases later with _ | ⟨first, _ | ⟨second, later⟩⟩
  · cases hjournal
  · cases hjournal
    exact ⟨[], outcome, rfl⟩
  · simp only [List.cons_append, List.cons.injEq] at hjournal
    obtain ⟨rfl, rfl, hrest⟩ := hjournal
    obtain ⟨newer, outcome', rfl⟩ := h later time' d' earlier hrest
    exact ⟨_ :: _ :: newer, outcome', rfl⟩

/-! ## What is kept -/

namespace RecordStore

variable {s : RecordStore σ} {path : String} {disk : σ → Disk} {x : σ} {r r' : BridgeRecord}

/-- What the file holds after a record was to be written is that record or what it held before. -/
theorem OnFile.load_save_cases (h : s.OnFile path disk)
    (hload : StateFile.load path (disk (s.save r x).2) = .ok (some r')) :
    r' = r ∨ StateFile.load path (disk x) = .ok (some r') := by
  cases hsave : (s.save r x).1 with
  | ok done =>
    rw [h.durable.load_save hsave] at hload
    cases hload
    exact .inl rfl
  | error why =>
    rw [StateFile.load_congr (h.save_error r x why hsave)] at hload
    exact .inr hload

theorem OnFile.load_eq (h : s.OnFile path disk) {answer : Except StoreError (Option BridgeRecord)}
    {y : σ} (hload : s.load x = (answer, y)) :
    StateFile.load path (disk y) = StateFile.load path (disk x) := by
  have hfile := h.durable.load_load (x := x)
  rwa [hload] at hfile

theorem OnFile.load_loaded (h : s.OnFile path disk) {kept : Option BridgeRecord} {y : σ}
    (hload : s.load x = (.ok kept, y)) : StateFile.load path (disk y) = .ok kept :=
  (h.load_eq hload).trans (h.load_ok x kept (by rw [hload]))

theorem OnFile.load_of_clear (h : s.OnFile path disk)
    (hload : StateFile.load path (disk (s.clear x).2) = .ok (some r)) :
    StateFile.load path (disk x) = .ok (some r) := by
  cases hclear : (s.clear x).1 with
  | ok done =>
    rw [StateFile.load_of_clear (h.clear_ok x hclear)] at hload
    cases hload
  | error why => rwa [StateFile.load_congr (h.clear_error x why hclear)] at hload

end RecordStore

/-- A record is kept, in memory or in the file. -/
def Controller.Keeps (path : String) (disk : σ → Disk) (c : Controller ω σ) (r : BridgeRecord) :
    Prop :=
  c.unpersisted = some r ∨ StateFile.load path (disk c.store) = .ok (some r)

theorem Controller.not_keeps {path : String} {disk : σ → Disk} {c : Controller ω σ}
    (hmemory : c.unpersisted = none) (hfile : StateFile.load path (disk c.store) = .ok none) :
    ∀ r, ¬c.Keeps path disk r := by
  rintro r (hr | hr)
  · cases hmemory.symm.trans hr
  · cases hfile.symm.trans hr

/-- The controller has the secret of a deposit. -/
def Controller.HasSecret (k : Charter ω σ) (c : Controller ω σ) (d : Deposit) : Prop :=
  ∃ random, d.request = k.requestAt (.ofRandom random) ∧
    c.lastSubmission = some (k.submissionOf (.ofRandom random) d.receipt)

/-! ## The invariant -/

/-- The controller has the secret of the last deposit, and no record but that of the last deposit is
kept. In the file there may also be the record of an earlier life, until a deposit is taken. -/
structure Custody (k : Charter ω σ) (path : String) (disk : σ → Disk) (c : Controller ω σ) :
    Prop where
  faithful : Faithful k c.journal
  recorded : Recorded c.journal
  held : ∀ d, lastDeposit c.journal = some d → c.HasSecret k d
  memory : ∀ r, c.unpersisted = some r → ∃ d, lastDeposit c.journal = some d ∧ r = d.record
  file : ∀ r d, StateFile.load path (disk c.store) = .ok (some r) →
    lastDeposit c.journal = some d → r = d.record

/-- A tick that reads the balance or asks the bridge has found no record, and the bridge is asked
with a fresh secret. -/
def Tick.Unbarred (path : String) (disk : σ → Disk) (c : Controller ω σ) : Tick → Prop
  | .reading _ => ∀ r, ¬c.Keeps path disk r
  | .depositing _ secret _ => (∃ random, secret = .ofRandom random) ∧ ∀ r, ¬c.Keeps path disk r
  | _ => True

def Stage.Unbarred (path : String) (disk : σ → Disk) (c : Controller ω σ) : Stage → Prop
  | .ticking ticks => ∀ x ∈ ticks, x.Unbarred path disk c
  | _ => True

variable {t : Moment} {path : String} {disk : σ → Disk} {c c' : Controller ω σ} {r : BridgeRecord}

namespace Custody

/-- What is kept may become less. -/
theorem mono (h : Custody k path disk c) (hjournal : c'.journal = c.journal)
    (hlast : c'.lastSubmission = c.lastSubmission)
    (hmemory : ∀ r, c'.unpersisted = some r → c.unpersisted = some r)
    (hfile : ∀ r, StateFile.load path (disk c'.store) = .ok (some r) →
      StateFile.load path (disk c.store) = .ok (some r)) : Custody k path disk c' where
  faithful := by
    rw [hjournal]
    exact h.faithful
  recorded := by
    rw [hjournal]
    exact h.recorded
  held d hd := by
    rw [hjournal] at hd
    rw [Controller.HasSecret, hlast]
    exact h.held d hd
  memory r hr := by
    rw [hjournal]
    exact h.memory r (hmemory r hr)
  file r d hr hd := by
    rw [hjournal] at hd
    exact h.file r d (hfile r hr) hd

theorem of_same (h : Custody k path disk c) (hjournal : c'.journal = c.journal)
    (hlast : c'.lastSubmission = c.lastSubmission) (hmemory : c'.unpersisted = c.unpersisted)
    (hfile : StateFile.load path (disk c'.store) = StateFile.load path (disk c.store)) :
    Custody k path disk c' :=
  h.mono hjournal hlast (fun _ hr => hmemory ▸ hr) (fun _ hr => hfile ▸ hr)

/-- An act that is no deposit leaves what is kept as it is. -/
theorem noted (h : Custody k path disk c) (now : Nat) {a : Act} (ha : a.Faithful k c.journal)
    (hd : a.deposit? = none) : Custody k path disk (c.note now a) where
  faithful := ⟨ha, h.faithful⟩
  recorded := h.recorded.cons hd
  held d hlast := by
    rw [Controller.journal_note, lastDeposit_cons_of_none hd] at hlast
    exact h.held d hlast
  memory r hr := by
    rw [Controller.journal_note, lastDeposit_cons_of_none hd]
    exact h.memory r hr
  file r d hr hlast := by
    rw [Controller.journal_note, lastDeposit_cons_of_none hd] at hlast
    exact h.file r d hr hlast

/-- The record of the last deposit may be written, if nothing else is in the file. -/
theorem of_persist (hs : k.store.OnFile path disk) {now : Nat}
    (hfaithful : Faithful k c.journal) (hlast : lastDeposit c.journal = some d)
    (hheld : c.HasSecret k d)
    (hfile : ∀ r, StateFile.load path (disk c.store) = .ok (some r) → r = d.record)
    (hrecorded : ∀ outcome, Recorded (⟨now, .saved d.record outcome⟩ :: c.journal)) :
    Custody k path disk (c.persist k.store now d.record) := by
  have hlast' : lastDeposit (c.persist k.store now d.record).journal = some d := by
    rw [Controller.journal_persist, lastDeposit_cons_of_none rfl, hlast]
  refine ⟨?_, ?_, ?_, ?_, ?_⟩
  · rw [Controller.journal_persist]
    exact ⟨⟨d, hlast, rfl⟩, hfaithful⟩
  · rw [Controller.journal_persist]
    exact hrecorded _
  · intro d' hd'
    obtain rfl : d = d' := Option.some.inj (hlast'.symm.trans hd')
    rw [Controller.HasSecret, Controller.persist_eq]
    exact hheld
  · intro r hr
    refine ⟨d, hlast', ?_⟩
    rw [Controller.persist_eq] at hr
    cases hsave : (k.store.save d.record c.store).1 with
    | ok done =>
      simp only [hsave] at hr
      cases hr
    | error why =>
      simp only [hsave] at hr
      exact (Option.some.inj hr).symm
  · intro r d' hr hd'
    obtain rfl : d = d' := Option.some.inj (hlast'.symm.trans hd')
    rw [Controller.persist_eq] at hr
    rcases hs.load_save_cases hr with heq | hbefore
    · exact heq
    · exact hfile r hbefore

/-- A record that could not be written is written again. -/
theorem persisted (hs : k.store.OnFile path disk) (h : Custody k path disk c) {now : Nat}
    (hr : c.unpersisted = some r) : Custody k path disk (c.persist k.store now r) := by
  obtain ⟨d, hlast, rfl⟩ := h.memory r hr
  refine of_persist hs h.faithful hlast (h.held d hlast) ?_ ?_
  · intro r' hr'
    exact h.file r' d hr' hlast
  · intro outcome
    exact h.recorded.cons rfl

/-- The secret of an earlier deposit makes room for the one of the next, since no record is kept. -/
theorem accepted (hs : k.store.OnFile path disk) (h : Custody k path disk c)
    (hkept : ∀ r, ¬c.Keeps path disk r) {balance : Amount} {random : Word}
    {receipt : Bridge.DepositReceipt} :
    Custody k path disk (Tick.accept k t (k.depositOf t balance (.ofRandom random) receipt)
      (k.submissionOf (.ofRandom random) receipt)
      (k.depositOf t balance (.ofRandom random) receipt).record c) := by
  rw [Tick.accept]
  refine of_persist hs ⟨trivial, h.faithful⟩ rfl ⟨random, rfl, rfl⟩ ?_ ?_
  · intro r hr
    exact absurd (.inr hr) (hkept r)
  · intro outcome
    exact h.recorded.deposited _ _ _

theorem settled (hs : k.store.OnFile path disk) (h : Custody k path disk c) (now : Nat)
    (r : BridgeRecord) (result : WaitResult) :
    Custody k path disk (c.settle k.store k.policy.cooldown now r result) := by
  have hnoted := h.noted now (a := .waited r result) trivial rfl
  by_cases hstatus : result.status = .confirmed
  · rw [Controller.settle_confirmed _ _ _ _ hstatus]
    exact hnoted.mono rfl rfl (fun _ hr => by cases hr) fun _ hr => hs.load_of_clear hr
  · rw [Controller.settle_of_ne _ _ _ _ hstatus]
    exact hnoted.of_same rfl rfl rfl rfl

theorem waits (hs : k.store.OnFile path disk) (h : Custody k path disk c) {x : Wait}
    {q : Progress Wait WaitResult} (hmove : WaitMove k t r x c q c') : Custody k path disk c' := by
  cases hmove with
  | pending hpoll => exact h.of_same rfl rfl rfl rfl
  | @done result outside view hpoll =>
    have hsame : Custody k path disk { c with outside, view } := h.of_same rfl rfl rfl rfl
    exact hsame.settled hs _ _ _

theorem looked (h : Custody k path disk c) (t : Moment) (outside : ω)
    (reading : Except ReadError Reading) :
    Custody k path disk (c.afterReading t outside reading) :=
  (h.noted t.now (a := .looked reading) trivial rfl).of_same rfl rfl rfl rfl

theorem loaded (hs : k.store.OnFile path disk) (h : Custody k path disk c)
    {answer : Except StoreError (Option BridgeRecord)} {store : σ}
    (hload : k.store.load c.store = (answer, store)) (hjournal : c'.journal = c.journal)
    (hlast : c'.lastSubmission = c.lastSubmission) (hmemory : c'.unpersisted = c.unpersisted)
    (hstore : c'.store = store) : Custody k path disk c' := by
  refine h.of_same hjournal hlast hmemory ?_
  rw [hstore]
  exact hs.load_eq hload

end Custody

theorem Drift.load (h : Drift path disk c c') :
    StateFile.load path (disk c'.store) = StateFile.load path (disk c.store) := by
  cases h with
  | store x hx => exact StateFile.load_congr hx
  | outside | refreshed | shutdown => rfl

theorem Drift.lastSubmission (h : Drift path disk c c') : c'.lastSubmission = c.lastSubmission := by
  cases h <;> rfl

theorem Drift.keeps (h : Drift path disk c c') : c'.Keeps path disk r ↔ c.Keeps path disk r := by
  rw [Controller.Keeps, Controller.Keeps, h.unpersisted, h.load]

theorem Stage.unbarred_pending {x : Tick} (hx : x.Unbarred path disk c) :
    (Stage.ticking (Tick.left (.pending x))).Unbarred path disk c := by
  intro y hy
  obtain rfl := List.mem_singleton.mp hy
  exact hx

theorem Stage.unbarred_done (o : TickOutcome) :
    (Stage.ticking (Tick.left (.done o))).Unbarred path disk c := by
  intro y hy
  cases hy

theorem Stage.Unbarred.of_keeps {g : Stage} (h : g.Unbarred path disk c)
    (hkeeps : ∀ r, c'.Keeps path disk r → c.Keeps path disk r) : g.Unbarred path disk c' := by
  cases g with
  | idle => trivial
  | recovering x => trivial
  | ticking ticks =>
    intro x hx
    have hx' := h x hx
    cases x with
    | reading phase => exact fun r hr => hx' r (hkeeps r hr)
    | depositing balance secret since => exact ⟨hx'.1, fun r hr => hx'.2 r (hkeeps r hr)⟩
    | bridging r x => trivial
    | resuming r x => trivial

namespace Session

/-- The invariant of a session: the secret of every record that is kept is at hand, and a tick that
will make a deposit has found no record. -/
def Guards (k : Charter ω σ) (path : String) (disk : σ → Disk) (g : Stage) (c : Controller ω σ) :
    Prop :=
  Custody k path disk c ∧ g.Unbarred path disk c

theorem guards_opening (hs : k.store.OnFile path disk) {q : Progress Tick TickOutcome}
    (hmove : Tick.Opening k t c q c') (h : Guards k path disk (.ticking []) c) :
    Guards k path disk (.ticking (Tick.left q)) c' := by
  obtain ⟨h, -⟩ := h
  cases hmove with
  | taken => exact ⟨h, Stage.unbarred_done _⟩
  | retried _ hr =>
    have hsame : Custody k path disk c.takeFlight := h.of_same rfl rfl rfl rfl
    exact ⟨hsame.persisted hs hr, Stage.unbarred_pending trivial⟩
  | unloaded _ _ hload => exact ⟨h.loaded hs hload rfl rfl rfl rfl, Stage.unbarred_done _⟩
  | resumed _ _ hload => exact ⟨h.loaded hs hload rfl rfl rfl rfl, Stage.unbarred_pending trivial⟩
  | reads _ hr hload =>
    exact ⟨h.loaded hs hload rfl rfl rfl rfl,
      Stage.unbarred_pending (Controller.not_keeps hr (hs.load_loaded hload))⟩

theorem guards_move (hs : k.store.OnFile path disk) {x : Tick} {q : Progress Tick TickOutcome}
    (hmove : Tick.Move k t c x q c') (h : Guards k path disk (.ticking [x]) c) :
    Guards k path disk (.ticking (Tick.left q)) c' := by
  obtain ⟨h, hunbarred⟩ := h
  have hx : x.Unbarred path disk c := hunbarred x (by simp)
  cases hmove with
  | reads => exact ⟨h.of_same rfl rfl rfl rfl, Stage.unbarred_pending hx⟩
  | unread => exact ⟨(h.looked t _ _).of_same rfl rfl rfl rfl, Stage.unbarred_done _⟩
  | cools => exact ⟨(h.looked t _ _).of_same rfl rfl rfl rfl, Stage.unbarred_done _⟩
  | enough => exact ⟨(h.looked t _ _).of_same rfl rfl rfl rfl, Stage.unbarred_done _⟩
  | asks =>
    exact ⟨(h.looked t _ _).noted t.now ⟨t.random, rfl⟩ rfl,
      Stage.unbarred_pending ⟨⟨t.random, rfl⟩, hx⟩⟩
  | deposits => exact ⟨h.of_same rfl rfl rfl rfl, Stage.unbarred_pending hx⟩
  | @refused balance secret since why outside =>
    have hsame : Custody k path disk { c with outside } := h.of_same rfl rfl rfl rfl
    have hnoted := hsame.noted t.now (a := .refused why) trivial rfl
    exact ⟨hnoted.of_same rfl rfl rfl rfl, Stage.unbarred_done _⟩
  | @accepted balance secret since receipt outside =>
    -- The secret of the deposit before is overwritten here; nothing that needs it is kept any more.
    obtain ⟨⟨random, rfl⟩, hkept⟩ := hx
    have hsame : Custody k path disk { c with outside } := h.of_same rfl rfl rfl rfl
    exact ⟨hsame.accepted hs hkept, Stage.unbarred_pending trivial⟩
  | bridges hwait => exact ⟨h.waits hs hwait, Stage.unbarred_pending trivial⟩
  | bridged hwait => exact ⟨(h.waits hs hwait).of_same rfl rfl rfl rfl, Stage.unbarred_done _⟩
  | resumes hwait => exact ⟨h.waits hs hwait, Stage.unbarred_pending trivial⟩
  | resumed hwait => exact ⟨(h.waits hs hwait).of_same rfl rfl rfl rfl, Stage.unbarred_done _⟩

theorem guards_recoveryOpening (hs : k.store.OnFile path disk)
    {q : Progress Recovery (Except StoreError (Option WaitResult))}
    (hmove : Recovery.Opening k t c q c') (h : Guards k path disk .idle c) :
    Guards k path disk (.ofRecovery q) c' := by
  obtain ⟨h, -⟩ := h
  cases hmove with
  | unloaded hload => exact ⟨h.loaded hs hload rfl rfl rfl rfl, trivial⟩
  | nothing hload => exact ⟨h.loaded hs hload rfl rfl rfl rfl, trivial⟩
  | found hload => exact ⟨h.loaded hs hload rfl rfl rfl rfl, trivial⟩
  | foundTaken hload => exact ⟨h.loaded hs hload rfl rfl rfl rfl, trivial⟩

theorem guards_recoveryMove (hs : k.store.OnFile path disk) {x : Recovery}
    {q : Progress Recovery (Except StoreError (Option WaitResult))} (hholds : x.holdsFlag = true)
    (hmove : Recovery.Move k t c x q c') (h : Guards k path disk (.recovering x) c) :
    Guards k path disk (.ofRecovery q) c' := by
  obtain ⟨h, -⟩ := h
  cases hmove with
  | waits hwait => exact ⟨h.waits hs hwait, trivial⟩
  | ends hwait =>
    rw [if_pos hholds]
    exact ⟨(h.waits hs hwait).of_same rfl rfl rfl rfl, trivial⟩

/-- Whatever happens in a session keeps the secret at hand. -/
theorem kept_guards {Q : Controller ω σ → Controller ω σ → Prop} (hs : k.store.OnFile path disk) :
    Kept Q k path disk (Guards k path disk) where
  drift hdrift _ h :=
    ⟨h.1.of_same hdrift.journal hdrift.lastSubmission hdrift.unpersisted hdrift.load,
      h.2.of_keeps fun _ => hdrift.keeps.mp⟩
  ready h := ⟨h.1, by simp [Stage.Unbarred]⟩
  opening _ := guards_opening hs
  move := guards_move hs
  recoveryOpening _ := guards_recoveryOpening hs
  recoveryMove := guards_recoveryMove hs

theorem guards_start (staleAfter : Nat) (outside : ω) (store : σ) :
    Guards k path disk .idle (Controller.initial staleAfter outside store) := by
  refine ⟨⟨trivial, ?_, ?_, ?_, ?_⟩, trivial⟩
  · intro later time d earlier hjournal
    cases later <;> cases hjournal
  · intro d hd
    cases hd
  · intro r hr
    cases hr
  · intro r d _ hd
    cases hd

/-- In every run of a session, whatever the node and the bridge answer, whichever operations on the
state file fail and whatever the random bytes are: the bridge is asked with the hash of a fresh
secret, which is a field element; the record of a deposit is written, or is to be written, with the
hash that the bridge was asked with; the controller has the secret of the last deposit; and as long
as the record of a deposit of this session is kept, in memory or in the file, the controller has the
secret whose hash is in that record. -/
theorem run_keeps_secret (hs : k.store.OnFile path disk) {staleAfter : Nat} {outside : ω}
    {store : σ} {s : Session ω σ} (h : Run k path disk (start staleAfter outside store) s) :
    (∀ e ∈ s.controller.journal, ∀ request, e.act = .asked request →
      request.secretHash.toBytes.head? = some 0 ∧
        ∃ random, request.secretHash = (ClaimSecret.ofRandom random).hash) ∧
    (∀ later time d earlier, s.controller.journal = later ++ ⟨time, .deposited d⟩ :: earlier →
      (∃ since rest, earlier = ⟨since, .asked d.request⟩ :: rest) ∧
        ∃ newer r outcome, later = newer ++ [⟨time, .saved r outcome⟩] ∧
          r.secretHash = d.request.secretHash) ∧
    (∀ d, lastDeposit s.controller.journal = some d →
      ∃ held, s.controller.lastSubmission = some held ∧ held.receipt = d.receipt ∧
        held.secretHash = d.request.secretHash ∧ held.secret.hash = d.request.secretHash) ∧
    ∀ r, s.controller.Keeps path disk r →
      ∀ e ∈ s.controller.journal, ∀ d, e.act = .deposited d → d.record = r →
        ∃ held, s.controller.lastSubmission = some held ∧
          held.receipt.messageHash = r.messageHash ∧ held.receipt.leafIndex = r.leafIndex ∧
          held.secretHash = r.secretHash ∧ held.secret.hash = r.secretHash := by
  have hlone := lone_start staleAfter outside store
  obtain ⟨-, hcustody, -⟩ := (kept_guards hs).run h hlone (guards_start staleAfter outside store)
  obtain ⟨-, hpaced, -⟩ := (kept_paces k path disk).run h hlone ⟨⟨rfl, trivial⟩, trivial⟩
  have hheld : ∀ d, lastDeposit s.controller.journal = some d →
      ∃ held, s.controller.lastSubmission = some held ∧ held.receipt = d.receipt ∧
        held.secretHash = d.request.secretHash ∧ held.secret.hash = d.request.secretHash := by
    intro d hd
    obtain ⟨random, hrequest, hlast⟩ := hcustody.held d hd
    refine ⟨_, hlast, rfl, ?_, ?_⟩
    · rw [hrequest]
      rfl
    · rw [hrequest]
      rfl
  refine ⟨?_, ?_, hheld, ?_⟩
  · intro e he request hact
    obtain ⟨random, rfl⟩ := hcustody.faithful.of_mem_asked he hact
    exact ⟨Bridge.head?_clearTop _, random, rfl⟩
  · intro later time d earlier hjournal
    obtain ⟨newer, outcome, hlater⟩ := hcustody.recorded later time d earlier hjournal
    have hspaced := hpaced.spaced
    rw [hjournal] at hspaced
    exact ⟨hspaced.of_append.1, newer, d.record, outcome, hlater, rfl⟩
  · intro r hkept e he d hact hr
    -- Whatever is kept is the record of the last deposit, so `d` may stand for that one.
    obtain ⟨last, hlast, rfl⟩ : ∃ last, lastDeposit s.controller.journal = some last ∧
        r = last.record := by
      rcases hkept with hmemory | hfile
      · exact hcustody.memory r hmemory
      · obtain ⟨last, hlast⟩ := exists_lastDeposit he hact
        exact ⟨last, hlast, hcustody.file r last hfile hlast⟩
    obtain ⟨held, hsubmission, hreceipt, hhash, hsecret⟩ := hheld last hlast
    refine ⟨held, hsubmission, ?_, ?_, hhash, hsecret⟩
    · rw [hreceipt]
      rfl
    · rw [hreceipt]
      rfl

/-- The bridge takes two deposits. The first one arrives; the record of the second one cannot be
written. -/
def forgetfulStart : Session Offline ShakyDisk :=
  start 3000 ⟨.scripted ⟨.ok ⟨1⟩, [.ok 0, .ok 1, .ok 2, .ok 2], [], [.ok false]⟩,
    .scripted { replies := [.ok ⟨7, 0, none⟩, .ok ⟨8, 1, none⟩] }⟩
    ⟨.empty, [true, true, true, true, false]⟩

/-- The record of the second deposit is in memory alone, and the secret is the second one. -/
theorem run_keeps_secret_unwritten : ∃ (s : Session Offline ShakyDisk) (r : BridgeRecord),
    Run offlineCharter offlinePath ShakyDisk.disk forgetfulStart s ∧
      (s.controller.journal.countP (·.act matches .deposited _)) = 2 ∧
      s.controller.unpersisted = some r ∧
      ∃ held, s.controller.lastSubmission = some held ∧ held.secret = ClaimSecret.ofRandom 6 ∧
        held.secret.hash = r.secretHash := by
  have hrun : Run offlineCharter offlinePath ShakyDisk.disk forgetfulStart _ :=
    .tail (.tail (.single .ready) (.ticks ⟨0, 0, false, 5⟩ trivial))
      (.ticks ⟨60000, 60000, false, 6⟩ trivial)
  have hkept := (run_keeps_secret (ShakyDisk.onFile_store offlinePath) hrun).2.2.2
  obtain ⟨held, hheld, -, -, -, hsecret⟩ := hkept _ (.inl rfl) _ (.tail _ (.head _)) _ rfl rfl
  refine ⟨_, _, hrun, rfl, rfl, held, hheld, ?_, hsecret⟩
  cases hheld
  rfl

end Session
end Reserve
end Paymaster

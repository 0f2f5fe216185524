import Paymaster.Proofs.Reserve.WaitRun
import Paymaster.Proofs.Rollup.BalanceValues
import Paymaster.Reserve.Exercise
/-!
# Calls that read the reserve

A call asks the node for the balance, and if it is refused reads the storage; both answers may come
late, and what lies outside may change between two looks at the call. To say what has been asked, a
link is wrapped so that it writes down each question with its answer. `Transcript` lists what the
log and the state of a call can be: unanswered questions, an answer, and the same once more for the
storage. Each look keeps it, so it holds along every call, and what a call returns is read off the
log.
-/

namespace Paymaster.Rollup

variable {ω : Type}

/-- A question to a node, with the answer if it is there. -/
inductive Exchange where
  | balance (token owner : Address) (answer : Option (Except RollupError Amount))
  | storage (contract : Address) (slot : Word) (answer : Option (Except RollupError Word))
  | ready (message : Word) (answer : Option (Except RollupError Bool))

/-- The answer is not there yet. -/
def Exchange.Unanswered : Exchange → Prop
  | .balance _ _ answer => answer = none
  | .storage _ _ answer => answer = none
  | .ready _ answer => answer = none

/-- The same link, writing down what it is asked. -/
def NodeLink.recorded (link : NodeLink ω) : NodeLink (ω × List Exchange) where
  publicBalance token owner x :=
    let answer := link.publicBalance token owner x.1
    (answer.1, answer.2, x.2 ++ [.balance token owner answer.1])
  storageAt contract slot x :=
    let answer := link.storageAt contract slot x.1
    (answer.1, answer.2, x.2 ++ [.storage contract slot answer.1])
  messageReady message x :=
    let answer := link.messageReady message x.1
    (answer.1, answer.2, x.2 ++ [.ready message answer.1])

end Paymaster.Rollup

namespace Paymaster.Reserve

open Rollup (Exchange NodeInfo NodeLink)

variable {ω : Type}

/-! ## Causes -/

/-- A cause tells why the node did not give the balance. -/
inductive PrimaryCause.Tells : PrimaryCause → RollupError → Prop where
  | unsupported (what : String) : Tells (.unsupported what) (.unsupported what)
  | failed {why : RollupError} (h : ∀ what, why ≠ .unsupported what) : Tells (.failed why) why

theorem PrimaryCause.tells_iff {p : PrimaryCause} {why : RollupError} :
    p.Tells why ↔ p = .ofError why := by
  constructor
  · intro h
    cases h with
    | unsupported => rfl
    | failed h =>
      cases why with
      | unsupported what => exact absurd rfl (h what)
      | config | network | rpc | malformed => rfl
  · rintro rfl
    cases why with
    | unsupported what => exact .unsupported what
    | config | network | rpc | malformed => exact .failed (by simp)

/-- A cause tells why an answer about the storage gives no balance. -/
inductive FallbackCause.Tells : FallbackCause → Except RollupError Word → Prop where
  | said (what : String) : Tells (.malformed what) (.error (.malformed what))
  | tooLarge {w : Word} (h : 2 ^ 128 ≤ w.toNat) :
      Tells (.malformed s!"storage word {w.toHex} exceeds u128") (.ok w)
  | unavailable {why : RollupError} (h : ∀ what, why ≠ .malformed what) :
      Tells (.unavailable why) (.error why)

theorem FallbackCause.tells_error_iff {f : FallbackCause} {why : RollupError} :
    f.Tells (.error why) ↔ f = .ofError why := by
  constructor
  · intro h
    cases h with
    | said => rfl
    | unavailable h =>
      cases why with
      | malformed what => exact absurd rfl (h what)
      | unsupported | config | network | rpc => rfl
  · rintro rfl
    cases why with
    | malformed what => exact .said what
    | unsupported | config | network | rpc => exact .unavailable (by simp)

namespace Monitor

variable {m : Monitor} {link : NodeLink ω} {cause : PrimaryCause}
  {answer : Except RollupError Word}

theorem readingOfStorage_eq_ok {r : Reading} : readingOfStorage cause answer = .ok r ↔
    r.path = .fallback ∧ answer = .ok (.ofAmount r.balance) := by
  obtain ⟨a, path⟩ := r
  cases answer with
  | error why => simp [readingOfStorage]
  | ok w =>
    simp only [readingOfStorage, amountInStorage, Except.ok.injEq,
      ← Word.toAmount?_eq_some_iff_ofAmount]
    cases w.toAmount? with
    | none => simp
    | some b => simp [and_comm, eq_comm]

theorem readingOfStorage_eq_error {err : ReadError} : readingOfStorage cause answer = .error err ↔
    ∃ f : FallbackCause, f.Tells answer ∧ err = .both cause f := by
  cases answer with
  | error why =>
    simp only [readingOfStorage, FallbackCause.tells_error_iff, exists_eq_left, Except.error.injEq]
    exact eq_comm
  | ok w =>
    rw [readingOfStorage, amountInStorage]
    cases hw : w.toAmount? with
    | none =>
      have hlarge : 2 ^ 128 ≤ w.toNat := Word.toAmount?_eq_none.mp hw
      constructor
      · intro h
        cases h
        exact ⟨_, .tooLarge hlarge, rfl⟩
      · rintro ⟨f, hf, rfl⟩
        cases hf
        rfl
    | some a =>
      constructor
      · intro h
        cases h
      · rintro ⟨f, hf, -⟩
        cases hf with
        | tooLarge hlarge =>
          rw [Word.toAmount?_eq_none.mpr hlarge] at hw
          cases hw

/-! ## One look -/

/-- The question for the balance. -/
def balanceAsked (m : Monitor) (answer : Option (Except RollupError Amount)) : Exchange :=
  .balance m.feeJuice m.facility answer

/-- The question for the storage. -/
def storageAsked (m : Monitor) (answer : Option (Except RollupError Word)) : Exchange :=
  .storage m.feeJuice m.slot answer

/-- What has been asked and answered, and how far a call has come with it. -/
inductive Transcript (m : Monitor) :
    List Exchange → Progress ReadPhase (Except ReadError Reading) → Prop where
  | asking (k : Nat) : Transcript m (.replicate k (m.balanceAsked none)) (.pending .primary)
  | given (k : Nat) (a : Amount) :
      Transcript m (.replicate k (m.balanceAsked none) ++ [m.balanceAsked (some (.ok a))])
        (.done (.ok ⟨a, .primary⟩))
  | refused (k : Nat) (why : RollupError) (hf : m.fallback = false) :
      Transcript m (.replicate k (m.balanceAsked none) ++ [m.balanceAsked (some (.error why))])
        (.done (.error (.primary (.ofError why))))
  | reading (k : Nat) (why : RollupError) (j : Nat) (hf : m.fallback = true) :
      Transcript m (.replicate k (m.balanceAsked none) ++ [m.balanceAsked (some (.error why))] ++
        .replicate (j + 1) (m.storageAsked none)) (.pending (.storage (.ofError why)))
  | stored (k : Nat) (why : RollupError) (j : Nat) (s : Except RollupError Word)
      (hf : m.fallback = true) :
      Transcript m (.replicate k (m.balanceAsked none) ++ [m.balanceAsked (some (.error why))] ++
        .replicate j (m.storageAsked none) ++ [m.storageAsked (some s)])
        (.done (readingOfStorage (.ofError why) s))

variable {φ ψ : ReadPhase} {w : ω} {log : List Exchange}
  {p : Progress ReadPhase (Except ReadError Reading)}

theorem publicBalance_recorded : link.recorded.publicBalance m.feeJuice m.facility (w, log) =
    ((link.publicBalance m.feeJuice m.facility w).1, (link.publicBalance m.feeJuice m.facility w).2,
      log ++ [m.balanceAsked (link.publicBalance m.feeJuice m.facility w).1]) := rfl

theorem storageAt_recorded : link.recorded.storageAt m.feeJuice m.slot (w, log) =
    ((link.storageAt m.feeJuice m.slot w).1, (link.storageAt m.feeJuice m.slot w).2,
      log ++ [m.storageAsked (link.storageAt m.feeJuice m.slot w).1]) := rfl

theorem pollStorage_recorded : m.pollStorage link.recorded cause (w, log) =
    ((m.pollStorage link cause w).1, (m.pollStorage link cause w).2,
      log ++ [m.storageAsked (link.storageAt m.feeJuice m.slot w).1]) := by
  simp only [pollStorage, storageAt_recorded]
  rcases link.storageAt m.feeJuice m.slot w with ⟨_ | s, w'⟩
  · rfl
  · rfl

/-- Writing down what is asked changes nothing else. -/
theorem pollRead_recorded : m.pollRead link.recorded φ (w, log) =
    ((m.pollRead link φ w).1, (m.pollRead link φ w).2,
      log ++ (m.pollRead link.recorded φ (w, [])).2.2) := by
  cases φ with
  | storage cause => simp only [pollRead, pollStorage_recorded, List.nil_append]
  | primary =>
    simp only [pollRead, publicBalance_recorded]
    rcases link.publicBalance m.feeJuice m.facility w with ⟨_ | why | a, w'⟩
    · rfl
    · by_cases hf : m.fallback = true
      · simp [hf, pollStorage_recorded]
      · simp [hf]
    · rfl

theorem Transcript.pollStorage (link : NodeLink ω) (w : ω) (k : Nat) (why : RollupError) (j : Nat)
    (hf : m.fallback = true) :
    Transcript m (.replicate k (m.balanceAsked none) ++ [m.balanceAsked (some (.error why))] ++
        .replicate j (m.storageAsked none) ++
          [m.storageAsked (link.storageAt m.feeJuice m.slot w).1])
      (m.pollStorage link (.ofError why) w).1 := by
  rw [Monitor.pollStorage]
  rcases link.storageAt m.feeJuice m.slot w with ⟨_ | s, w'⟩
  · have h := Transcript.reading k why j hf
    rwa [List.replicate_succ', ← List.append_assoc] at h
  · exact .stored k why j s hf

/-- What one look adds to the transcript of a call that goes on. -/
theorem Transcript.pollRead (link : NodeLink ω) (w : ω) (h : Transcript m log (.pending φ)) :
    Transcript m (log ++ (m.pollRead link.recorded φ (w, [])).2.2) (m.pollRead link φ w).1 := by
  cases h with
  | asking k =>
    simp only [Monitor.pollRead, publicBalance_recorded, List.nil_append]
    rcases link.publicBalance m.feeJuice m.facility w with ⟨_ | why | a, w'⟩
    · have h : Transcript m _ _ := .asking (k + 1)
      rwa [List.replicate_succ'] at h
    · by_cases hf : m.fallback = true
      · have h := Transcript.pollStorage link w' k why 0 hf
        simpa [hf, pollStorage_recorded] using h
      · have h := Transcript.refused k why (Bool.eq_false_iff.mpr hf)
        simpa [hf] using h
    · exact .given k a
  | reading k why j hf =>
    simp only [Monitor.pollRead, pollStorage_recorded, List.nil_append]
    exact .pollStorage link w k why (j + 1) hf

theorem storageAt_of_pollStorage (h : (m.pollStorage link cause w).1 = .pending ψ) :
    (link.storageAt m.feeJuice m.slot w).1 = none := by
  rw [pollStorage] at h
  rcases hs : link.storageAt m.feeJuice m.slot w with ⟨_ | s, w'⟩
  · rfl
  · rw [hs] at h
    cases h

/-- A look leaves a call to go on only if the last question is unanswered. -/
theorem pollRead_unanswered (h : (m.pollRead link φ w).1 = .pending ψ) :
    ∃ x, (m.pollRead link.recorded φ (w, [])).2.2.getLast? = some x ∧ x.Unanswered := by
  cases φ with
  | storage cause =>
    rw [pollRead] at h
    simp only [pollRead, pollStorage_recorded]
    exact ⟨_, rfl, storageAt_of_pollStorage h⟩
  | primary =>
    simp only [pollRead, publicBalance_recorded] at h ⊢
    rcases hb : link.publicBalance m.feeJuice m.facility w with ⟨_ | why | a, w'⟩
    · exact ⟨_, rfl, rfl⟩
    · simp only [hb] at h
      by_cases hf : m.fallback = true
      · simp only [hf, if_true, pollStorage_recorded] at h ⊢
        exact ⟨_, rfl, storageAt_of_pollStorage h⟩
      · simp [hf] at h
    · rw [hb] at h
      cases h

/-- What a call has asked and what it returns, read off the answers. -/
structure ReadsExactly (feeJuice facility : Address) (slot : Word) (fallback : Bool)
    (asked : List Exchange) (p : Progress ReadPhase (Except ReadError Reading)) : Prop where
  /-- Nothing else is asked. -/
  questions : ∀ x ∈ asked, (∃ answer, x = .balance feeJuice facility answer) ∨
    ∃ answer, x = .storage feeJuice slot answer
  storage_iff : (∃ answer, .storage feeJuice slot answer ∈ asked) ↔
    fallback = true ∧ ∃ why, .balance feeJuice facility (some (.error why)) ∈ asked
  storage_unread : ∀ a, .balance feeJuice facility (some (.ok a)) ∈ asked →
    ∀ answer, .storage feeJuice slot answer ∉ asked
  /-- A call returns once the answers are there that it needs. -/
  returns_iff : (∃ r, p = .done r) ↔
    (∃ a, .balance feeJuice facility (some (.ok a)) ∈ asked) ∨
      (∃ why, .balance feeJuice facility (some (.error why)) ∈ asked) ∧
        (fallback = true → ∃ s, .storage feeJuice slot (some s) ∈ asked)
  primary_iff : ∀ a, p = .done (.ok ⟨a, .primary⟩) ↔
    .balance feeJuice facility (some (.ok a)) ∈ asked
  fallback_iff : ∀ a, p = .done (.ok ⟨a, .fallback⟩) ↔
    .storage feeJuice slot (some (.ok (.ofAmount a))) ∈ asked
  error_iff : ∀ err, p = .done (.error err) ↔ ∃ (why : RollupError) (cause : PrimaryCause),
    .balance feeJuice facility (some (.error why)) ∈ asked ∧ cause.Tells why ∧
      (fallback = false ∧ err = .primary cause ∨
        fallback = true ∧ ∃ (s : Except RollupError Word) (f : FallbackCause),
          .storage feeJuice slot (some s) ∈ asked ∧ f.Tells s ∧ err = .both cause f)

theorem Transcript.questions (h : Transcript m log p) : ∀ x ∈ log,
    (∃ answer, x = m.balanceAsked answer) ∨ ∃ answer, x = m.storageAsked answer := by
  -- A name for the property, so that it goes through the lists as a whole.
  let Asks (x : Exchange) : Prop :=
    (∃ answer, x = m.balanceAsked answer) ∨ ∃ answer, x = m.storageAsked answer
  have hbalance (answer) : Asks (m.balanceAsked answer) := .inl ⟨answer, rfl⟩
  have hstorage (answer) : Asks (m.storageAsked answer) := .inr ⟨answer, rfl⟩
  show ∀ x ∈ log, Asks x
  cases h with
  | asking | given | refused | reading | stored => simp [or_imp, forall_and, hbalance, hstorage]

/-- What a call returns is read off its transcript. -/
theorem Transcript.readsExactly (h : Transcript m log p) :
    ReadsExactly m.feeJuice m.facility m.slot m.fallback log p := by
  have hquestions := h.questions
  cases h with
  | asking k =>
    refine ⟨hquestions, ?_, ?_, ?_, ?_, ?_, ?_⟩
    all_goals simp [balanceAsked]
  | given k a =>
    have hprimary (b : Amount) : a = b ↔ b = a := eq_comm
    refine ⟨hquestions, ?_, ?_, ?_, fun b => ?primary, ?_, ?_⟩
    case primary => simpa [balanceAsked] using hprimary b
    all_goals simp [balanceAsked]
  | refused k why hf =>
    have herror (err) : ReadError.primary (.ofError why) = err ↔ err = .primary (.ofError why) :=
      eq_comm
    refine ⟨hquestions, ?_, ?_, ?_, ?_, ?_, fun err => ?error⟩
    case error => simpa [balanceAsked, hf, PrimaryCause.tells_iff] using herror err
    all_goals simp [balanceAsked, hf]
  | reading k why j hf =>
    refine ⟨hquestions, ?_, ?_, ?_, ?_, ?_, ?_⟩
    all_goals simp [balanceAsked, storageAsked, hf]
  | stored k why j s hf =>
    have hword (a : Amount) : s = .ok (.ofAmount a) ↔ .ok (.ofAmount a) = s := eq_comm
    refine ⟨hquestions, ?_, ?_, ?_, ?_, fun a => ?fallback, fun err => ?error⟩
    case fallback => simpa [balanceAsked, storageAsked, readingOfStorage_eq_ok] using hword a
    case error =>
      simp [balanceAsked, storageAsked, hf, PrimaryCause.tells_iff, readingOfStorage_eq_error]
    all_goals simp [balanceAsked, storageAsked, hf, readingOfStorage_eq_ok]

end Monitor

/-! ## What is recorded -/

/-- The outcome that a result counts as. -/
def checkOutcome : Except ReadError Reading → CheckOutcome
  | .ok ⟨_, .primary⟩ => .ok
  | .ok ⟨_, .fallback⟩ => .fallbackOk
  | .error _ => .error

/-- The view `v'` is `v` with one result more, that came at a time. -/
structure OpsView.Records (v : OpsView) (now : Nat) (r : Except ReadError Reading) (v' : OpsView) :
    Prop where
  checksOk : v'.readiness.checksOk = v.readiness.checksOk + if r.isOk then 1 else 0
  checksFailed : v'.readiness.checksFailed = v.readiness.checksFailed + if r.isOk then 0 else 1
  outcomes : ∀ o, v'.metrics.checks.count o =
    v.metrics.checks.count o + if o = checkOutcome r then 1 else 0
  lastCheck : v'.readiness.lastCheck = now
  lastCheckOk : v'.readiness.lastCheckOk = r.isOk
  balance_of_ok : ∀ x, r = .ok x → v'.metrics.balance = x.balance
  balance_of_error : ∀ err, r = .error err → v'.metrics.balance = v.metrics.balance
  /-- Nothing else changes. -/
  rest : v'.readiness.staleAfter = v.readiness.staleAfter ∧
    v'.readiness.events = v.readiness.events ∧ v'.readiness.inFlight = v.readiness.inFlight ∧
    v'.readiness.shuttingDown = v.readiness.shuttingDown ∧
    v'.metrics.events = v.metrics.events ∧ v'.metrics.ready = v.metrics.ready

theorem OpsView.records_recordReading (v : OpsView) (now : Nat) (r : Except ReadError Reading) :
    v.Records now r (v.recordReading now r) := by
  have hbump := Metrics.Tally.count_bump v.metrics.checks
  cases r with
  | error err =>
    exact ⟨rfl, rfl, hbump .error, rfl, rfl, nofun, fun _ _ => rfl, rfl, rfl, rfl, rfl, rfl, rfl⟩
  | ok x =>
    have houtcome : checkOutcome (.ok x) = x.path.outcome := by
      obtain ⟨a, path⟩ := x
      cases path with
      | primary => rfl
      | fallback => rfl
    refine ⟨rfl, rfl, ?_, rfl, rfl, ?_, nofun, rfl, rfl, rfl, rfl, rfl, rfl⟩
    · rw [houtcome]
      exact hbump x.path.outcome
    · rintro y hy
      cases hy
      rfl

namespace Monitor

variable {m : Monitor} {link : NodeLink ω} {t : Moment} {φ : ReadPhase} {w : ω} {v : OpsView}

/-! ## Calls -/

/-- One look at a call; the look that ends the call is recorded. -/
def look (m : Monitor) (link : NodeLink ω) (t : Moment) (φ : ReadPhase) (w : ω) (v : OpsView) :
    Progress ReadPhase (Except ReadError Reading) × ω × OpsView :=
  match m.pollRead link φ w with
  | (.pending φ, w) => (.pending φ, w, v)
  | (.done r, w) => (.done r, w, v.recordReading t.wall.toNat r)

theorem look_fst : (m.look link t φ w v).1 = (m.pollRead link φ w).1 := by
  rw [look]
  rcases m.pollRead link φ w with ⟨ψ | r, w'⟩
  · rfl
  · rfl

theorem look_outside : (m.look link t φ w v).2.1 = (m.pollRead link φ w).2 := by
  rw [look]
  rcases m.pollRead link φ w with ⟨ψ | r, w'⟩
  · rfl
  · rfl

theorem view_look : (m.look link t φ w v).2.2 = match (m.look link t φ w v).1 with
    | .pending _ => v
    | .done r => v.recordReading t.wall.toNat r := by
  rw [look]
  rcases m.pollRead link φ w with ⟨ψ | r, w'⟩
  · rfl
  · rfl

/-- How far a call has come after so many looks. -/
def run (m : Monitor) (link : NodeLink ω) (e : Watch ω) :
    Nat → Progress ReadPhase (Except ReadError Reading)
  | 0 => .pending .primary
  | n + 1 =>
    match run m link e n with
    | .pending φ => (m.look link (e.moment n) φ (e.outside n) (e.view n)).1
    | .done r => .done r

/-- What so many looks have asked. -/
def asked (m : Monitor) (link : NodeLink ω) (e : Watch ω) : Nat → List Exchange
  | 0 => []
  | n + 1 => asked m link e n ++
      (match run m link e n with
        | .pending φ => (m.look link.recorded (e.moment n) φ (e.outside n, []) (e.view n)).2.1.2
        | .done _ => [])

/-- What operators can see after a look. -/
def viewAfter (m : Monitor) (link : NodeLink ω) (e : Watch ω) (n : Nat) : OpsView :=
  match run m link e n with
  | .pending φ => (m.look link (e.moment n) φ (e.outside n) (e.view n)).2.2
  | .done _ => e.view n

variable {e : Watch ω} {n : Nat} {r : Except ReadError Reading}

theorem run_transcript (m : Monitor) (link : NodeLink ω) (e : Watch ω) (n : Nat) :
    Transcript m (m.asked link e n) (m.run link e n) := by
  induction n with
  | zero => exact .asking 0
  | succ n ih =>
    rw [run, asked]
    cases hrun : m.run link e n with
    | pending φ =>
      rw [hrun] at ih
      simp only
      rw [look_fst, look_outside]
      exact ih.pollRead link (e.outside n)
    | done r =>
      rw [hrun] at ih
      simpa using ih

theorem run_staysDone (m : Monitor) (link : NodeLink ω) (e : Watch ω) :
    Progress.StaysDone (m.run link e) := by
  intro n r h
  rw [run, h]

/-- A call goes on only while its last question is unanswered. -/
theorem asked_unanswered (h : m.run link e (n + 1) = .pending φ) :
    ∃ x, (m.asked link e (n + 1)).getLast? = some x ∧ x.Unanswered := by
  obtain ⟨ψ, hrun⟩ := (run_staysDone m link e).exists_pending_of_le h (Nat.le_succ n)
  rw [run, hrun] at h
  simp only at h
  rw [look_fst] at h
  obtain ⟨x, hx, hunanswered⟩ := pollRead_unanswered h
  refine ⟨x, ?_, hunanswered⟩
  rw [asked, hrun]
  simp only
  rw [look_outside, List.getLast?_append, hx, Option.some_or]

theorem viewAfter_of_pending (h : m.run link e (n + 1) = .pending φ) :
    m.viewAfter link e n = e.view n := by
  rw [viewAfter]
  cases hrun : m.run link e n with
  | done r => rfl
  | pending ψ =>
    rw [run, hrun] at h
    simp only at h ⊢
    rw [view_look, h]

theorem viewAfter_of_done (h : m.run link e n = .done r) : m.viewAfter link e n = e.view n := by
  rw [viewAfter, h]

theorem viewAfter_of_returning (h : m.run link e n = .pending φ)
    (hdone : m.run link e (n + 1) = .done r) :
    m.viewAfter link e n = (e.view n).recordReading (e.moment n).wall.toNat r := by
  rw [run, h] at hdone
  simp only at hdone
  rw [viewAfter, h]
  simp only
  rw [view_look, hdone]

/-- Only the look at which a call returns changes the view, by the one result. -/
theorem exists_records (h : m.run link e n = .done r) : ∃ k < n,
    (e.view k).Records (e.moment k).wall.toNat r (m.viewAfter link e k) ∧
      ∀ j, j ≠ k → m.viewAfter link e j = e.view j := by
  have hstays := run_staysDone m link e
  obtain ⟨k, hk, φ, hpending, hdone⟩ := hstays.exists_last_pending rfl h
  refine ⟨k, hk, ?_, fun j hj => ?_⟩
  · rw [viewAfter_of_returning hpending hdone]
    exact (e.view k).records_recordReading _ r
  · rcases Nat.lt_or_gt_of_ne hj with hlt | hgt
    · obtain ⟨ψ, hψ⟩ := hstays.exists_pending_of_le hpending (Nat.succ_le_of_lt hlt)
      exact viewAfter_of_pending hψ
    · exact viewAfter_of_done (hstays.done_of_le hdone hgt)

end Monitor

/-! ## Callers -/

section Callers

variable {σ : Type} (k : Charter ω σ) (t : Moment) (φ : ReadPhase)

/-- A tick looks at a call and goes on with what it returns. -/
theorem Tick.pollReading_eq_look (c : Controller ω σ) : Tick.pollReading k t φ c =
    match k.monitor.look k.node t φ c.outside c.view with
    | (.pending φ, outside, view) => (.pending (.reading φ), { c with outside, view })
    | (.done r, outside, view) =>
      let c := { c with outside, view }.note t.now (.looked r)
      match r with
      | .error _ => Tick.leave .balanceReadFailed c
      | .ok r => Tick.weigh k t r.balance c := by
  rw [Tick.pollReading, Monitor.look]
  rcases k.monitor.pollRead k.node φ c.outside with ⟨ψ | r, outside⟩
  · rfl
  · rfl

/-- A wait whose look at the balance is due looks at a call. -/
theorem Wait.pollBalance_eq_look {x : Wait} {i : Nat} (m : Monitor) (link : NodeLink ω) (w : ω)
    (v : OpsView) (hdue : x.balance.rouse .primary t.now = .asking φ i) :
    x.pollBalance m link t w v =
      match m.look link t φ w v with
      | (.pending φ, w, v) => (false, { x with balance := .asking φ i }, w, v)
      | (.done r, w, v) => (x.rose r, x.afterReading t.now i r, w, v) := by
  rw [Wait.pollBalance, hdue, Monitor.look]
  simp only
  rcases m.pollRead link φ w with ⟨ψ | r, w'⟩
  · rfl
  · rfl

/-- A rehearsed reading is a call. -/
theorem Exercise.poll_read_eq_look (k : RehearsalCharter) (c : Rehearsed) :
    Exercise.poll k t c (.read φ) =
      match k.monitor.look k.node t φ c.outside c.view with
      | (.pending φ, outside, view) => (.pending (.read φ), { c with outside, view })
      | (.done r, outside, view) => (.done (.read r), { c with outside, view }) := by
  rw [Exercise.poll, Monitor.look]
  rcases k.monitor.pollRead k.node φ c.outside with ⟨ψ | r, outside⟩
  · rfl
  · rfl

end Callers

namespace Monitor

variable {facility : Address} {base : Word} {fallback : Bool} {node : NodeInfo} {m : Monitor}

theorem of_eq_ok (hm : Monitor.of facility base fallback (.ok node) = .ok m) :
    m = ⟨node.feeJuice, facility, Rollup.mapSlot base facility, fallback⟩ := by
  rw [Monitor.of] at hm
  split_ifs at hm
  cases hm
  rfl

/-- Whatever the node answers, and however late, a call of a monitor that has been set up asks for
the balance of its facility and, if that is refused and the fallback is on, for the slot of the
facility in the storage of the fee juice. It returns exactly the balance that is given, or the one
amount whose word the storage holds, or an error that tells why the node refused and, with the
fallback, why the storage gives no amount. The look at which it returns records the one result;
the others change nothing that operators see. -/
theorem reads_exactly_and_records
    (hm : Monitor.of facility base fallback (.ok node) = .ok m) (link : NodeLink ω) (e : Watch ω)
    (n : Nat) :
    ReadsExactly node.feeJuice facility (Rollup.mapSlot base facility) fallback
      (m.asked link e n) (m.run link e n) ∧
    (∀ φ k, m.run link e (k + 1) = .pending φ →
      ∃ x, (m.asked link e (k + 1)).getLast? = some x ∧ x.Unanswered) ∧
    (∀ r, m.run link e n = .done r → ∃ k < n,
      (e.view k).Records (e.moment k).wall.toNat r (m.viewAfter link e k) ∧
        ∀ j, j ≠ k → m.viewAfter link e j = e.view j) ∧
    ((∀ r, m.run link e n ≠ .done r) → ∀ k < n, m.viewAfter link e k = e.view k) := by
  have hreads := (run_transcript m link e n).readsExactly
  obtain rfl := of_eq_ok hm
  refine ⟨hreads, fun φ k hrun => asked_unanswered hrun, fun r hrun => exists_records hrun,
    fun hrun k hk => ?_⟩
  cases hnext : Monitor.run _ link e (k + 1) with
  | pending φ => exact viewAfter_of_pending hnext
  | done r => exact absurd ((run_staysDone _ link e).done_of_le hnext hk) (hrun r)

/-- A node that is silent at first, does not know the question for the balance, and is late with the
storage. -/
def lateNode : NodeLink Nat where
  publicBalance _ _ n := (if n = 0 then none else some (.error (.unsupported "balances")), n)
  storageAt _ _ n := (if n < 2 then none else some (.ok (.ofAmount 7)), n)
  messageReady _ n := (none, n)

/-- Looks at a late node, one after the other. -/
def lateWatch : Watch Nat where
  moment n := ⟨n, 1000, false, 0⟩
  outside n := n
  view _ := ⟨.initial 5000, .initial⟩

/-- The third look finds the balance in the storage, and records it. -/
theorem reads_exactly_and_records_late :
    let m : Monitor := ⟨⟨5⟩, ⟨250⟩, Rollup.mapSlot 1 ⟨250⟩, true⟩
    Monitor.of ⟨250⟩ 1 true (.ok ⟨⟨5⟩, 31337, "1.0"⟩) = .ok m ∧
      m.run lateNode lateWatch 3 = .done (.ok ⟨7, .fallback⟩) ∧
      ∃ k < 3, (m.viewAfter lateNode lateWatch k).metrics.balance = 7 := by
  intro m
  have hm : Monitor.of ⟨250⟩ 1 true (.ok ⟨⟨5⟩, 31337, "1.0"⟩) = .ok m := rfl
  obtain ⟨hreads, -, hrecords, -⟩ := reads_exactly_and_records hm lateNode lateWatch 3
  have hrun : m.run lateNode lateWatch 3 = .done (.ok ⟨7, .fallback⟩) := by
    have hasked : m.asked lateNode lateWatch 3 =
        [m.balanceAsked none, m.balanceAsked (some (.error (.unsupported "balances"))),
          m.storageAsked none, m.storageAsked (some (.ok (.ofAmount 7)))] := rfl
    refine (hreads.fallback_iff 7).mpr ?_
    rw [hasked]
    exact List.mem_cons_of_mem _ (List.mem_cons_of_mem _ (List.mem_cons_of_mem _ List.mem_cons_self))
  obtain ⟨k, hk, hview, -⟩ := hrecords _ hrun
  exact ⟨hm, hrun, k, hk, hview.balance_of_ok _ rfl⟩

end Monitor
end Paymaster.Reserve

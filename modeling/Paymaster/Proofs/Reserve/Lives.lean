import Paymaster.Proofs.Reserve.OneDeposit
/-!
# Lives over one state file

A process may be killed at any point at which it waits for something. The next one begins with
nothing but the state file, recovers what the file keeps, and makes ticks of its own. A history is
such a sequence of lives; it remembers what the earlier ones have done. As long as every record can
be written, the outstanding deposit is always in the file, so each life begins where the last one
ended.
-/

namespace Paymaster.Reserve

open Relation (ReflTransGen)

variable {ω σ : Type} {k : Charter ω σ} {t : Moment} {path : String} {disk : σ → Disk}
  {c c' : Controller ω σ}

/-! ## Records that are written -/

/-- Every record that was to be kept could be written. -/
def AllSaved (entries : List JournalEntry) : Prop :=
  ∀ e ∈ entries, ∀ r why, e.act ≠ .saved r (.error why)

theorem AllSaved.of_append {later earlier : List JournalEntry} (h : AllSaved (later ++ earlier)) :
    AllSaved earlier :=
  fun e he => h e (List.mem_append_right later he)

/-- No record is in memory alone, if every record could be written. -/
def Controller.Written (c : Controller ω σ) : Prop := AllSaved c.journal → c.unpersisted = none

namespace Controller

theorem Written.congr (h : c.Written) (later : List JournalEntry)
    (hjournal : c'.journal = later ++ c.journal) (hunpersisted : c'.unpersisted = c.unpersisted) :
    c'.Written := by
  intro hsaved
  rw [hjournal] at hsaved
  rw [hunpersisted]
  exact h hsaved.of_append

theorem written_persist (s : RecordStore σ) (now : Nat) (r : BridgeRecord) (c : Controller ω σ) :
    (c.persist s now r).Written := by
  intro hsaved
  rw [persist_eq] at hsaved ⊢
  cases hsave : (s.save r c.store).1 with
  | ok done => rfl
  | error why =>
    refine absurd ?_ (hsaved ⟨now, .saved r (.error why)⟩ ?_ r why)
    · rfl
    · simp [hsave]

theorem Written.settle (h : c.Written) (s : RecordStore σ) (cooldown now : Nat) (r : BridgeRecord)
    (result : WaitResult) : (c.settle s cooldown now r result).Written := by
  by_cases hstatus : result.status = .confirmed
  · rw [settle_confirmed s cooldown now r hstatus]
    exact fun _ => rfl
  · rw [settle_of_ne s cooldown now r hstatus]
    exact h.congr [_] rfl rfl

end Controller

theorem WaitMove.written {r : BridgeRecord} {x : Wait} {p : Progress Wait WaitResult}
    (hmove : WaitMove k t r x c p c') (h : c.Written) : c'.Written := by
  cases hmove with
  | pending => exact h.congr [] rfl rfl
  | @done result outside view _ =>
    have hsame : ({ c with outside, view } : Controller ω σ).Written := h.congr [] rfl rfl
    exact hsame.settle _ _ _ _ _

theorem Tick.Opening.written {p : Progress Tick TickOutcome} (hmove : Opening k t c p c')
    (h : c.Written) : c'.Written := by
  cases hmove with
  | taken => exact h
  | retried => exact Controller.written_persist _ _ _ _
  | unloaded => exact h.congr [] rfl rfl
  | resumed => exact h.congr [] rfl rfl
  | reads => exact h.congr [] rfl rfl

theorem Tick.Move.written {x : Tick} {p : Progress Tick TickOutcome} (hmove : Move k t c x p c')
    (h : c.Written) : c'.Written := by
  cases hmove with
  | reads => exact h.congr [] rfl rfl
  | unread => exact h.congr [_] rfl rfl
  | cools => exact h.congr [_] rfl rfl
  | enough => exact h.congr [_] rfl rfl
  | asks => exact h.congr [_, _] rfl rfl
  | deposits => exact h.congr [] rfl rfl
  | refused => exact h.congr [_] rfl rfl
  | accepted => exact Controller.written_persist _ _ _ _
  | bridges hwait => exact hwait.written h
  | bridged hwait => exact (hwait.written h).congr [] rfl rfl
  | resumes hwait => exact hwait.written h
  | resumed hwait => exact (hwait.written h).congr [] rfl rfl

namespace Session

variable {Q : Controller ω σ → Controller ω σ → Prop}

theorem kept_written (k : Charter ω σ) (path : String) (disk : σ → Disk) :
    Kept Q k path disk fun _ c => c.Written where
  drift hdrift _ h := h.congr [] hdrift.journal hdrift.unpersisted
  ready h := h
  opening _ hmove h := hmove.written h
  move hmove h := hmove.written h
  recoveryOpening _ hmove h := by
    cases hmove with
    | unloaded => exact h.congr [] rfl rfl
    | nothing => exact h.congr [] rfl rfl
    | found => exact h.congr [] rfl rfl
    | foundTaken => exact h.congr [] rfl rfl
  recoveryMove hholds hmove h := by
    cases hmove with
    | waits hwait => exact hwait.written h
    | ends hwait =>
      rw [if_pos hholds]
      exact (hwait.written h).congr [] rfl rfl

/-! ## Files that cannot be decoded -/

end Session

/-! ## Histories -/

/-- A life and what the lives before it have done. -/
structure History (ω σ : Type) where
  /-- What the controller of this life is given. -/
  charter : Charter ω σ
  /-- What the earlier lives have done, the latest first. -/
  past : List JournalEntry
  /-- This life. -/
  session : Session ω σ

namespace History

/-- All that was done, the latest first. -/
def journal (h : History ω σ) : List JournalEntry := h.session.controller.journal ++ h.past

/-- A history that begins. -/
def begin (k : Charter ω σ) (staleAfter : Nat) (outside : ω) (store : σ) : History ω σ :=
  ⟨k, [], .start staleAfter outside store⟩

/-- A step of a history, in which every record can be written. -/
inductive Step (path : String) (disk : σ → Disk) : History ω σ → History ω σ → Prop where
  /-- The life goes on. -/
  | lives {k : Charter ω σ} {past : List JournalEntry} {s s' : Session ω σ}
      (h : Session.Step k path disk s s') (hsaved : AllSaved s'.controller.journal) :
      Step path disk ⟨k, past, s⟩ ⟨k, past, s'⟩
  /-- The process is killed, and another one begins with the file. It may be given something
  else. -/
  | restarts {k : Charter ω σ} {past : List JournalEntry} {s : Session ω σ} (k' : Charter ω σ)
      (hs : k'.store.OnFile path disk) (staleAfter : Nat) (outside : ω) (store : σ)
      (hfile : (disk store).readBytes path = (disk s.controller.store).readBytes path) :
      Step path disk ⟨k, past, s⟩
        ⟨k', s.controller.journal ++ past, .start staleAfter outside store⟩

/-- A run of a history. -/
abbrev Run (path : String) (disk : σ → Disk) : History ω σ → History ω σ → Prop :=
  ReflTransGen (Step path disk)

/-- The invariant of a history. -/
structure Good (path : String) (disk : σ → Disk) (first : Option BridgeRecord) (h : History ω σ) :
    Prop where
  store : h.charter.store.OnFile path disk
  lone : h.session.stage.Lone h.session.controller
  holds : Session.Holds path disk first h.past h.session.stage h.session.controller
  saved : AllSaved h.session.controller.journal
  written : h.session.controller.Written

variable {first : Option BridgeRecord} {h h' : History ω σ}

/-- The outstanding deposit is in the file. -/
theorem Good.load (hg : Good path disk first h) {r : BridgeRecord}
    (hr : outstanding first h.journal = some r) :
    StateFile.load path (disk h.session.controller.store) = .ok (some r) := by
  obtain ⟨o, hone, -⟩ := hg.holds
  have hnext := hone.next r (hone.told.symm.trans hr)
  rw [Controller.next?, hg.written hg.saved] at hnext
  simp only at hnext
  split at hnext
  · rename_i kept hload
    rw [hload, hnext]
  · contradiction

theorem Good.step (hg : Good path disk first h) (hstep : Step path disk h h') :
    Good path disk first h' := by
  cases hstep with
  | lives hstep hsaved =>
    obtain ⟨hlone, hholds⟩ := (Session.kept_holds hg.store _ _).step hstep hg.lone hg.holds
    obtain ⟨-, hwritten⟩ := (Session.kept_written _ path disk).step hstep hg.lone hg.written
    exact ⟨hg.store, hlone, hholds, hsaved, hwritten⟩
  | restarts k' hs staleAfter outside store hfile =>
    obtain ⟨o, hone, -⟩ := hg.holds
    refine ⟨hs, Session.lone_start staleAfter outside store,
      Session.holds_start staleAfter outside store hone.orderly fun r hr => ?_, ?_, fun _ => rfl⟩
    · rw [StateFile.load_congr hfile]
      exact hg.load hr
    · simp [AllSaved, Session.start, Controller.initial]

theorem Good.run (hg : Good path disk first h) (hrun : Run path disk h h') :
    Good path disk first h' := by
  induction hrun with
  | refl => exact hg
  | tail _ hstep ih => exact ih.step hstep

end History

/-- A recovery that loads a record while the flag is free is the wait on this record. -/
theorem Recovery.start_of_load {r : BridgeRecord} (hflag : c.inFlight = false)
    (hload : (k.store.load c.store).1 = .ok (some r)) :
    ∃ c', Recovery.start k t c = Recovery.poll k t ⟨r, k.resume r t, true⟩ c' := by
  rw [Recovery.start]
  rcases h : k.store.load c.store with ⟨answer, store⟩
  rw [h] at hload
  obtain rfl : answer = .ok (some r) := hload
  simp only [Controller.beginFlight?_eq]
  have hfree : ({ c with store } : Controller ω σ).inFlight = false := hflag
  rw [if_neg (by simp [hfree])]
  exact ⟨_, rfl⟩

theorem Recovery.start_of_load_error {why : StoreError}
    (hload : (k.store.load c.store).1 = .error why) :
    (Recovery.start k t c).1 = .done (.error why) := by
  rw [Recovery.start]
  rcases h : k.store.load c.store with ⟨answer, store⟩
  rw [h] at hload
  obtain rfl : answer = .error why := hload
  rfl

/-- A recovery at the beginning of a life waits for the outstanding deposit, unless the file cannot
be read. -/
theorem History.Good.recovery {first : Option BridgeRecord} {h : History ω σ}
    (hg : Good path disk first h) {r : BridgeRecord} (hr : outstanding first h.journal = some r)
    (hidle : h.session.stage = .idle) :
    (∃ why, (h.charter.store.load h.session.controller.store).1 = .error why ∧
      (Recovery.start h.charter t h.session.controller).1 = .done (.error why)) ∨
    ∃ c', Recovery.start h.charter t h.session.controller
      = Recovery.poll h.charter t ⟨r, h.charter.resume r t, true⟩ c' := by
  have hflag : h.session.controller.inFlight = false := by
    have hlone := hg.lone
    rwa [hidle] at hlone
  cases hload : (h.charter.store.load h.session.controller.store).1 with
  | error why => exact .inl ⟨why, rfl, Recovery.start_of_load_error hload⟩
  | ok kept =>
    have hkept : kept = some r := by
      have hfile := hg.store.load_ok _ _ hload
      rw [hg.load hr] at hfile
      exact (Except.ok.inj hfile).symm
    rw [hkept] at hload
    exact .inr (Recovery.start_of_load hflag hload)

namespace History

end History
end Paymaster.Reserve

import Mathlib.Logic.Relation
import Paymaster.Proofs.Reserve.TickMoves
/-!
# Sessions

A session is the life of one controller: it may recover what an earlier process has left, and then
it makes ticks. The ticks may overlap, each of them may go on at any moment, and what lies outside
may change at any time; only the state file is the controller's own. A recovery has ended before the
first tick begins.

The flag lets only one tick past its opening, so a session is never in the middle of two things. A
property that all moves keep is therefore kept by all steps of a session, and holds along every run.
-/

namespace Paymaster.Reserve

open Relation (ReflTransGen)

variable {ω σ : Type}

/-- What a session is in the middle of. -/
inductive Stage where
  /-- Nothing; no tick has been made yet. -/
  | idle
  /-- A recovery. -/
  | recovering (x : Recovery)
  /-- Some ticks. -/
  | ticking (ticks : List Tick)

/-- A controller and what it is in the middle of. -/
structure Session (ω σ : Type) where
  /-- The controller. -/
  controller : Controller ω σ
  /-- What it is in the middle of. -/
  stage : Stage

/-- The tick that is left, unless it is done. -/
def Tick.left : Progress Tick TickOutcome → List Tick
  | .pending tick => [tick]
  | .done _ => []

/-- The stage with the recovery that is left, unless it is done. -/
def Stage.ofRecovery : Progress Recovery (Except StoreError (Option WaitResult)) → Stage
  | .pending x => .recovering x
  | .done _ => .idle

/-- What happens around a controller between its steps. The state file, which is found at a path of
a disk, is left alone. -/
inductive Drift (path : String) (disk : σ → Disk) (c : Controller ω σ) : Controller ω σ → Prop where
  /-- The node or the bridge changes. -/
  | outside (w : ω) : Drift path disk c { c with outside := w }
  /-- The store changes, but for the file. -/
  | store (x : σ) (h : (disk x).readBytes path = (disk c.store).readBytes path) :
      Drift path disk c { c with store := x }
  /-- An operator looks. -/
  | refreshed (now : Nat) : Drift path disk c { c with view := c.view.refresh now }
  /-- The shutdown begins. -/
  | shutdown : Drift path disk c
      { c with view := { c.view with readiness := c.view.readiness.beginShutdown } }

namespace Session

/-- A session that begins. -/
def start (staleAfter : Nat) (outside : ω) (store : σ) : Session ω σ :=
  ⟨.initial staleAfter outside store, .idle⟩

/-- A step of a session that goes on at moments of some kind, such as those after the shutdown,
while the changes around the controller are of some kind too. -/
inductive StepWhen (P : Moment → Prop) (Q : Controller ω σ → Controller ω σ → Prop)
    (k : Charter ω σ) (path : String) (disk : σ → Disk) : Session ω σ → Session ω σ → Prop where
  /-- Something changes around the controller. -/
  | drifts {c c' : Controller ω σ} {g : Stage} (h : Drift path disk c c') (hc : Q c c') :
      StepWhen P Q k path disk ⟨c, g⟩ ⟨c', g⟩
  /-- A recovery begins. -/
  | recovers {c : Controller ω σ} (t : Moment) (ht : P t) : StepWhen P Q k path disk ⟨c, .idle⟩
      ⟨(Recovery.start k t c).2, .ofRecovery (Recovery.start k t c).1⟩
  /-- The recovery goes on. -/
  | recovery {c : Controller ω σ} {x : Recovery} (t : Moment) (ht : P t) :
      StepWhen P Q k path disk ⟨c, .recovering x⟩
        ⟨(x.poll k t c).2, .ofRecovery (x.poll k t c).1⟩
  /-- The time for ticks has come. -/
  | ready {c : Controller ω σ} : StepWhen P Q k path disk ⟨c, .idle⟩ ⟨c, .ticking []⟩
  /-- A tick begins. -/
  | ticks {c : Controller ω σ} {others : List Tick} (t : Moment) (ht : P t) :
      StepWhen P Q k path disk ⟨c, .ticking others⟩
        ⟨(Tick.start k t c).2, .ticking (others ++ Tick.left (Tick.start k t c).1)⟩
  /-- One of the ticks goes on. -/
  | tick {c : Controller ω σ} {before after : List Tick} {x : Tick} (t : Moment) (ht : P t) :
      StepWhen P Q k path disk ⟨c, .ticking (before ++ x :: after)⟩
        ⟨(x.poll k t c).2, .ticking (before ++ Tick.left (x.poll k t c).1 ++ after)⟩

/-- A step of a session, at any moment and with any change. -/
abbrev Step (k : Charter ω σ) (path : String) (disk : σ → Disk) :
    Session ω σ → Session ω σ → Prop := StepWhen (fun _ => True) (fun _ _ => True) k path disk

/-- A run of a session. -/
abbrev Run (k : Charter ω σ) (path : String) (disk : σ → Disk) :
    Session ω σ → Session ω σ → Prop := ReflTransGen (Step k path disk)

/-- A run of a session at moments of some kind. -/
abbrev RunWhen (P : Moment → Prop) (k : Charter ω σ) (path : String) (disk : σ → Disk) :
    Session ω σ → Session ω σ → Prop := ReflTransGen (StepWhen P (fun _ _ => True) k path disk)

theorem StepWhen.step {P : Moment → Prop} {Q : Controller ω σ → Controller ω σ → Prop}
    {k : Charter ω σ} {path : String} {disk : σ → Disk} {s s' : Session ω σ}
    (h : StepWhen P Q k path disk s s') : Step k path disk s s' := by
  cases h with
  | drifts h _ => exact .drifts h trivial
  | recovers t _ => exact .recovers t trivial
  | recovery t _ => exact .recovery t trivial
  | ready => exact .ready
  | ticks t _ => exact .ticks t trivial
  | tick t _ => exact .tick t trivial

end Session

/-! ## The flag -/

/-- The flag is taken by the only work that is under way, or free if there is none. -/
def Stage.Lone (c : Controller ω σ) : Stage → Prop
  | .idle => c.inFlight = false
  | .recovering x => x.holdsFlag = true ∧ c.inFlight = true
  | .ticking [] => c.inFlight = false
  | .ticking [_] => c.inFlight = true
  | .ticking (_ :: _ :: _) => False

variable {k : Charter ω σ} {t : Moment} {path : String} {disk : σ → Disk}
  {c c' : Controller ω σ}

theorem Drift.inFlight (h : Drift path disk c c') : c'.inFlight = c.inFlight := by
  cases h <;> rfl

theorem Drift.lone {g : Stage} (h : Drift path disk c c') (hl : g.Lone c) : g.Lone c' := by
  cases g with
  | idle => exact h.inFlight.trans hl
  | recovering x => exact ⟨hl.1, h.inFlight.trans hl.2⟩
  | ticking ticks =>
    rcases ticks with _ | ⟨x, _ | ⟨y, rest⟩⟩
    · exact h.inFlight.trans hl
    · exact h.inFlight.trans hl
    · exact hl.elim

theorem pollBalance_inFlight (m : Monitor) (link : Rollup.NodeLink ω) (t : Moment) (x : Wait) (w : ω)
    (v : OpsView) : (x.pollBalance m link t w v).2.2.2.readiness.inFlight = v.readiness.inFlight := by
  rw [Wait.pollBalance]
  split
  · split
    · rfl
    · rename_i r _ _
      cases r <;> rfl
  · rfl

theorem pollWait_inFlight {m : Monitor} {link : Rollup.NodeLink ω} {x : Wait} {w w' : ω}
    {v v' : OpsView} {p : Progress Wait WaitResult} (h : x.poll m link t w v = (p, w', v')) :
    v'.readiness.inFlight = v.readiness.inFlight := by
  have hb := pollBalance_inFlight m link t x w v
  rw [Wait.poll] at h
  split at h
  · cases h
    rfl
  split at h
  · cases h
    rfl
  split at h
  · rename_i hbalance
    rw [hbalance] at hb
    cases h
    exact hb
  · rename_i hbalance
    rw [hbalance] at hb
    split at h
    · cases h
      exact hb
    · cases h
      exact hb

theorem WaitMove.inFlight {r : BridgeRecord} {x : Wait} {p : Progress Wait WaitResult}
    (h : WaitMove k t r x c p c') : c'.inFlight = c.inFlight := by
  cases h with
  | pending h => exact pollWait_inFlight h
  | done h =>
    rw [Controller.inFlight_settle]
    exact pollWait_inFlight h

theorem Tick.Opening.lone {p : Progress Tick TickOutcome} (h : Opening k t c p c')
    (hflag : c.inFlight = false) : (Stage.ticking (left p)).Lone c' := by
  cases h with
  | taken htaken => exact absurd hflag (by simp [htaken])
  | retried => exact Controller.inFlight_persist _ _ _ _
  | unloaded => rfl
  | resumed => rfl
  | reads => rfl

theorem Tick.Move.lone {x : Tick} {p : Progress Tick TickOutcome} (h : Move k t c x p c')
    (hflag : c.inFlight = true) : (Stage.ticking (left p)).Lone c' := by
  cases h with
  | reads => exact hflag
  | unread => rfl
  | cools => rfl
  | enough => rfl
  | asks => exact (Controller.inFlight_note.trans Controller.inFlight_afterReading).trans hflag
  | deposits => exact hflag
  | refused => rfl
  | accepted => exact (Controller.inFlight_persist _ _ _ _).trans hflag
  | bridges h => exact h.inFlight.trans hflag
  | bridged => rfl
  | resumes h => exact h.inFlight.trans hflag
  | resumed => rfl

theorem Recovery.Opening.lone {p : Progress Recovery (Except StoreError (Option WaitResult))}
    (h : Opening k t c p c') (hflag : c.inFlight = false) : (Stage.ofRecovery p).Lone c' := by
  cases h with
  | unloaded => exact hflag
  | nothing => exact hflag
  | found => exact ⟨rfl, rfl⟩
  | foundTaken _ htaken => exact absurd hflag (by simp [htaken])

theorem Recovery.Move.lone {x : Recovery}
    {p : Progress Recovery (Except StoreError (Option WaitResult))} (h : Move k t c x p c')
    (hholds : x.holdsFlag = true) (hflag : c.inFlight = true) : (Stage.ofRecovery p).Lone c' := by
  cases h with
  | waits h => exact ⟨hholds, h.inFlight.trans hflag⟩
  | ends h =>
    rw [if_pos hholds]
    rfl

/-! ## Properties that all moves keep -/

/-- A property of the stage and the controller that is kept whatever happens in a session, while the
changes around the controller are of some kind. -/
structure Session.Kept (Q : Controller ω σ → Controller ω σ → Prop) (k : Charter ω σ)
    (path : String) (disk : σ → Disk) (I : Stage → Controller ω σ → Prop) : Prop where
  drift : ∀ {c c' g}, Drift path disk c c' → Q c c' → I g c → I g c'
  ready : ∀ {c}, I .idle c → I (.ticking []) c
  opening : ∀ {t c p c'}, c.inFlight = false → Tick.Opening k t c p c' → I (.ticking []) c →
    I (.ticking (Tick.left p)) c'
  move : ∀ {t c x p c'}, Tick.Move k t c x p c' → I (.ticking [x]) c → I (.ticking (Tick.left p)) c'
  recoveryOpening : ∀ {t c p c'}, c.inFlight = false → Recovery.Opening k t c p c' → I .idle c →
    I (.ofRecovery p) c'
  recoveryMove : ∀ {t c x p c'}, x.holdsFlag = true → Recovery.Move k t c x p c' →
    I (.recovering x) c → I (.ofRecovery p) c'

/-- A property of the stage and the controller that is kept by all steps at moments of some kind. -/
structure Session.KeptWhen (P : Moment → Prop) (Q : Controller ω σ → Controller ω σ → Prop)
    (k : Charter ω σ) (path : String) (disk : σ → Disk) (I : Stage → Controller ω σ → Prop) :
    Prop where
  drift : ∀ {c c' g}, Drift path disk c c' → Q c c' → I g c → I g c'
  ready : ∀ {c}, I .idle c → I (.ticking []) c
  start : ∀ {t c}, P t → c.inFlight = false → I (.ticking []) c →
    I (.ticking (Tick.left (Tick.start k t c).1)) (Tick.start k t c).2
  poll : ∀ {t c x}, P t → I (.ticking [x]) c →
    I (.ticking (Tick.left (x.poll k t c).1)) (x.poll k t c).2
  recoveryStart : ∀ {t c}, P t → c.inFlight = false → I .idle c →
    I (.ofRecovery (Recovery.start k t c).1) (Recovery.start k t c).2
  recoveryPoll : ∀ {t c x}, P t → x.holdsFlag = true → I (.recovering x) c →
    I (.ofRecovery (x.poll k t c).1) (x.poll k t c).2

namespace Session

variable {I : Stage → Controller ω σ → Prop} {P : Moment → Prop}
  {Q : Controller ω σ → Controller ω σ → Prop} {s s' : Session ω σ}

theorem Kept.moves (hI : Kept Q k path disk I) {p q : Progress Tick TickOutcome}
    (h : Tick.Moves k t p c q c') (hi : I (.ticking (Tick.left p)) c) :
    I (.ticking (Tick.left q)) c' := by
  induction h with
  | none => exact hi
  | more h _ ih => exact ih (hI.move h hi)

/-- What all moves keep is kept by all steps, whatever the moment is. -/
theorem Kept.when (hI : Kept Q k path disk I) : KeptWhen P Q k path disk I where
  drift := hI.drift
  ready := hI.ready
  start {t c} _ hflag hi := by
    obtain ⟨p, c₁, hopen, hmoves⟩ := Tick.start_moves (k := k) (t := t) c
    exact hI.moves hmoves (hI.opening hflag hopen hi)
  poll {t c x} _ hi := hI.moves (Tick.poll_moves x c) hi
  recoveryStart {t c} _ hflag hi := by
    obtain ⟨p, c₁, hopen, hrest⟩ := Recovery.start_moves (k := k) (t := t) c
    have hi₁ := hI.recoveryOpening hflag hopen hi
    have hl₁ := hopen.lone hflag
    cases p with
    | pending x => exact hI.recoveryMove hl₁.1 hrest hi₁
    | done a =>
      simp only [hrest]
      exact hi₁
  recoveryPoll {t c x} _ hholds hi := hI.recoveryMove hholds (Recovery.poll_move x c) hi

/-- The flag is in order after every move of a tick and of a recovery. -/
theorem kept_lone (k : Charter ω σ) (path : String) (disk : σ → Disk) :
    Kept Q k path disk fun g c => g.Lone c where
  drift hdrift _ hl := hdrift.lone hl
  ready hl := hl
  opening hflag hopen _ := hopen.lone hflag
  move hmove hl := hmove.lone hl
  recoveryOpening hflag hopen _ := hopen.lone hflag
  recoveryMove hholds hmove hl := hmove.lone hholds hl.2

/-- A step keeps the property, if the flag is in order. -/
theorem KeptWhen.step (hI : KeptWhen P Q k path disk I) (h : StepWhen P Q k path disk s s')
    (hl : s.stage.Lone s.controller) (hi : I s.stage s.controller) : I s'.stage s'.controller := by
  cases h with
  | drifts h hc => exact hI.drift h hc hi
  | recovers t ht => exact hI.recoveryStart ht hl hi
  | recovery t ht => exact hI.recoveryPoll ht hl.1 hi
  | ready => exact hI.ready hi
  | @ticks c others t ht =>
    rcases others with _ | ⟨x, _ | ⟨y, rest⟩⟩
    · exact hI.start ht hl hi
    · -- The flag is taken, so the new tick ends at once.
      have hflag : c.inFlight = true := hl
      have hstart : Tick.start k t c = (.done .skippedInFlight, c) := by
        rw [Tick.start, Controller.beginFlight?_eq, if_pos hflag]
      simp only [hstart, Tick.left, List.append_nil]
      exact hi
    · exact hl.elim
  | @tick c before after x t ht =>
    rcases before with _ | ⟨y, _ | ⟨z, rest⟩⟩
    · rcases after with _ | ⟨y, rest⟩
      · simp only [List.nil_append, List.append_nil] at hi ⊢
        exact hI.poll ht hi
      · exact hl.elim
    · exact hl.elim
    · exact hl.elim

theorem StepWhen.lone (h : StepWhen P Q k path disk s s') (hl : s.stage.Lone s.controller) :
    s'.stage.Lone s'.controller :=
  (kept_lone k path disk).when.step h hl hl

/-- A run keeps the flag in order and the property. -/
theorem KeptWhen.run (hI : KeptWhen P Q k path disk I)
    (h : ReflTransGen (StepWhen P Q k path disk) s s') (hl : s.stage.Lone s.controller)
    (hi : I s.stage s.controller) : s'.stage.Lone s'.controller ∧ I s'.stage s'.controller := by
  induction h with
  | refl => exact ⟨hl, hi⟩
  | tail _ hstep ih => exact ⟨hstep.lone ih.1, hI.step hstep ih.1 ih.2⟩

/-- A step keeps the flag in order and the property. -/
theorem Kept.step (hI : Kept Q k path disk I) (h : StepWhen P Q k path disk s s')
    (hl : s.stage.Lone s.controller) (hi : I s.stage s.controller) :
    s'.stage.Lone s'.controller ∧ I s'.stage s'.controller :=
  ⟨h.lone hl, hI.when.step h hl hi⟩

/-- Every run keeps the flag in order and the property. -/
theorem Kept.run (hI : Kept Q k path disk I) (h : ReflTransGen (StepWhen P Q k path disk) s s')
    (hl : s.stage.Lone s.controller) (hi : I s.stage s.controller) :
    s'.stage.Lone s'.controller ∧ I s'.stage s'.controller :=
  hI.when.run h hl hi

end Session
end Paymaster.Reserve

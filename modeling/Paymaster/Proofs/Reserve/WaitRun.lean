import Paymaster.Reserve.Wait
/-!
# Runs of a wait

A wait is looked at at moments that it does not choose, and finds the node in states that it does
not control: answers may come late, the surroundings may change between two looks, and the deadline
or the cancelling may come between a question and its answer. Here a run is any such sequence of
looks, together with the answers that it brought. One lemma says all that a single look can do;
everything about runs is derived from it.
-/

namespace Paymaster.Reserve

open Rollup (NodeLink)

/-- What a wait meets, look after look. -/
structure Watch (ω : Type) where
  /-- The moment of each look. -/
  moment : Nat → Moment
  /-- What lies outside when the look begins. -/
  outside : Nat → ω
  /-- What operators can see when the look begins. -/
  view : Nat → OpsView

namespace Wait

variable {ω : Type}

/-! ## One look -/

/-- The reading that a look brings, if the looks at the balance are reached, one is due and it is
answered. -/
def reading? (m : Monitor) (link : NodeLink ω) (t : Moment) (x : Wait) (w : ω) :
    Option (Except ReadError Reading) :=
  if t.cancelled ∨ x.deadline ≤ t.now then none
  else match x.balance.rouse .primary t.now with
    | .asking phase _ => (m.pollRead link phase w).1.result?
    | _ => none

/-- The message check that a look brings, if the looks at the message are reached, one is due and it
is answered. -/
def check? (m : Monitor) (link : NodeLink ω) (t : Moment) (x : Wait) (w : ω) (v : OpsView) :
    Option (Except RollupError Bool) :=
  if t.cancelled ∨ x.deadline ≤ t.now then none
  else match x.pollBalance m link t w v with
    | (true, _) => none
    | (false, y, w, _) =>
      match y.target.message, y.message.rouse () t.now with
      | some message, .asking () _ => (link.messageReady message w).1
      | _, _ => none

/-- What the look at the balance does to a wait, and the reading that it brings. -/
inductive BalanceLook (m : Monitor) (link : NodeLink ω) (t : Moment) (x : Wait) (w : ω) :
    Option (Except ReadError Reading) → Wait → Prop where
  /-- No look is due. -/
  | idle {p : Poller ReadPhase} (hp : x.balance.rouse .primary t.now = p)
      (hidle : ∀ φ i, p ≠ .asking φ i) : BalanceLook m link t x w none { x with balance := p }
  /-- The node has not answered yet. -/
  | unanswered {φ ψ : ReadPhase} {i : Nat} (hp : x.balance.rouse .primary t.now = .asking φ i)
      (hw : (m.pollRead link φ w).1 = .pending ψ) :
      BalanceLook m link t x w none { x with balance := .asking ψ i }
  /-- There is a reading. -/
  | answered {φ : ReadPhase} {i : Nat} {r : Except ReadError Reading}
      (hp : x.balance.rouse .primary t.now = .asking φ i)
      (hw : (m.pollRead link φ w).1 = .done r) :
      BalanceLook m link t x w (some r) (x.afterReading t.now i r)

/-- What the look at the message does to a wait, and the check that it brings. -/
inductive MessageLook (link : NodeLink ω) (t : Moment) (x : Wait) (w : ω) :
    Option (Except RollupError Bool) → Wait → Prop where
  /-- There is no message. -/
  | unknown (hm : x.target.message = none) :
      MessageLook link t x w none { x with message := x.message.rouse () t.now }
  /-- No look is due. -/
  | idle {message : Word} {p : Poller Unit} (hm : x.target.message = some message)
      (hp : x.message.rouse () t.now = p) (hidle : ∀ i, p ≠ .asking () i) :
      MessageLook link t x w none { x with message := p }
  /-- The node has not answered yet. -/
  | unanswered {message : Word} {i : Nat} (hm : x.target.message = some message)
      (hp : x.message.rouse () t.now = .asking () i) (hw : (link.messageReady message w).1 = none) :
      MessageLook link t x w none { x with message := .asking () i }
  /-- There is an answer. -/
  | answered {message : Word} {i : Nat} {r : Except RollupError Bool}
      (hm : x.target.message = some message) (hp : x.message.rouse () t.now = .asking () i)
      (hw : (link.messageReady message w).1 = some r) :
      MessageLook link t x w (some r) (x.afterCheck t.now i r)

/-- What one look can come to: how it leaves the wait, and what it has read and checked. -/
inductive Look (m : Monitor) (link : NodeLink ω) (t : Moment) (x : Wait) (w : ω) :
    Option (Except ReadError Reading) → Option (Except RollupError Bool) →
      Progress Wait WaitResult → Prop where
  /-- The wait is cancelled. -/
  | aborted (hc : t.cancelled = true) :
      Look m link t x w none none (.done (x.finish t.now .aborted none))
  /-- The deadline has come. -/
  | timeout (hc : t.cancelled = false) (hd : x.deadline ≤ t.now) :
      Look m link t x w none none (.done (x.finish t.now .timeout none))
  /-- The balance has risen; the message is not looked at any more. -/
  | rose {r : Except ReadError Reading} {y : Wait} (hc : t.cancelled = false)
      (hd : t.now < x.deadline) (hb : BalanceLook m link t x w (some r) y) (hr : x.rose r = true) :
      Look m link t x w (some r) none (.done (y.finish t.now .confirmed (some .balanceDelta)))
  /-- The message is ready. -/
  | ready {a : Option (Except ReadError Reading)} {y z : Wait} {w' : ω} (hc : t.cancelled = false)
      (hd : t.now < x.deadline) (hb : BalanceLook m link t x w a y)
      (hr : ∀ r, a = some r → x.rose r = false) (hm : MessageLook link t y w' (some (.ok true)) z) :
      Look m link t x w a (some (.ok true))
        (.done (z.finish t.now .confirmed (some .messageReady)))
  /-- Nothing is decided. -/
  | pending {a : Option (Except ReadError Reading)} {b : Option (Except RollupError Bool)}
      {y z : Wait} {w' : ω} (hc : t.cancelled = false) (hd : t.now < x.deadline)
      (hb : BalanceLook m link t x w a y) (hr : ∀ r, a = some r → x.rose r = false)
      (hm : MessageLook link t y w' b z) (hn : b ≠ some (.ok true)) :
      Look m link t x w a b (.pending z)

variable {m : Monitor} {link : NodeLink ω} {t : Moment} {x : Wait} {w : ω} {v : OpsView}

theorem pollBalance_look (hc : t.cancelled = false) (hd : t.now < x.deadline) :
    BalanceLook m link t x w (x.reading? m link t w) (x.pollBalance m link t w v).2.1 ∧
      (x.pollBalance m link t w v).1 = (x.reading? m link t w).any x.rose := by
  have hgo : ¬(t.cancelled = true ∨ x.deadline ≤ t.now) := by simp [hc]; omega
  rw [reading?, if_neg hgo, pollBalance]
  cases hp : x.balance.rouse .primary t.now with
  | asking φ i =>
    cases hw : m.pollRead link φ w with
    | mk p w' =>
      cases p with
      | pending ψ =>
        simp only [hw]
        exact ⟨.unanswered hp (by rw [hw]), rfl⟩
      | done r =>
        simp only [hw]
        exact ⟨.answered hp (by rw [hw]), rfl⟩
  | sleeping wake i => exact ⟨.idle hp (by simp), rfl⟩
  | off => exact ⟨.idle hp (by simp), rfl⟩

theorem pollMessage_look :
    ∃ a, MessageLook link t x w a (x.pollMessage link t w).2.1 ∧
      ((x.pollMessage link t w).1 = true ↔ a = some (.ok true)) ∧
      a = (match x.target.message, x.message.rouse () t.now with
        | some message, .asking () _ => (link.messageReady message w).1
        | _, _ => none) := by
  rw [pollMessage]
  cases hm : x.target.message with
  | none => exact ⟨none, .unknown hm, by simp, rfl⟩
  | some message =>
    cases hp : x.message.rouse () t.now with
    | asking φ i =>
      cases hw : link.messageReady message w with
      | mk a w' =>
        simp only [hw]
        cases a with
        | none => exact ⟨none, .unanswered hm hp (by rw [hw]), by simp, rfl⟩
        | some r =>
          refine ⟨some r, .answered hm hp (by rw [hw]), ?_, rfl⟩
          cases r with
          | error why => simp
          | ok ready => cases ready <;> simp
    | sleeping wake i => exact ⟨none, .idle hm hp (by simp), by simp, rfl⟩
    | off => exact ⟨none, .idle hm hp (by simp), by simp, rfl⟩

/-- All that one look can do. -/
theorem poll_look : Look m link t x w (x.reading? m link t w) (x.check? m link t w v)
    (x.poll m link t w v).1 := by
  rw [poll, check?]
  by_cases hc : t.cancelled = true
  · have hr : x.reading? m link t w = none := by simp [reading?, hc]
    rw [if_pos hc, if_pos (Or.inl hc), hr]
    exact .aborted hc
  · have hc' : t.cancelled = false := by simpa using hc
    by_cases hd : x.deadline ≤ t.now
    · have hr : x.reading? m link t w = none := by simp [reading?, hd]
      rw [if_neg hc, if_pos hd, if_pos (Or.inr hd), hr]
      exact .timeout hc' hd
    · have hd' : t.now < x.deadline := by omega
      rw [if_neg hc, if_neg hd, if_neg (by simp [hc', hd])]
      obtain ⟨hb, hrose⟩ := @pollBalance_look _ m link _ _ w v hc' hd'
      revert hb hrose
      generalize x.reading? m link t w = a
      rcases hp : x.pollBalance m link t w v with ⟨up, y, w', v'⟩
      intro hb hrose
      simp only at hb hrose
      cases up with
      | true =>
        cases a with
        | none => simp at hrose
        | some r => exact .rose hc' hd' hb (by simpa using hrose.symm)
      | false =>
        have hr : ∀ r, a = some r → x.rose r = false := by
          rintro r rfl
          simpa using hrose.symm
        obtain ⟨b, hm, hready, hb'⟩ := @pollMessage_look _ link t y w'
        simp only
        rw [← hb']
        rcases hq : y.pollMessage link t w' with ⟨ready, z, w''⟩
        rw [hq] at hm hready
        simp only at hm hready
        cases ready with
        | true =>
          have hb1 : b = some (.ok true) := hready.mp rfl
          subst hb1
          exact .ready hc' hd' hb hr hm
        | false => exact .pending hc' hd' hb hr hm (fun h => absurd (hready.mpr h) (by simp))

/-! ## Runs -/

/-- Where a wait stands after so many looks. -/
def run (m : Monitor) (link : NodeLink ω) (e : Watch ω) (x : Wait) : Nat → Progress Wait WaitResult
  | 0 => .pending x
  | n + 1 =>
    match run m link e x n with
    | .pending y => (y.poll m link (e.moment n) (e.outside n) (e.view n)).1
    | .done r => .done r

/-- The readings that so many looks have brought. -/
def readings (m : Monitor) (link : NodeLink ω) (e : Watch ω) (x : Wait) :
    Nat → List (Except ReadError Reading)
  | 0 => []
  | n + 1 => readings m link e x n ++
      (match run m link e x n with
        | .pending y => (y.reading? m link (e.moment n) (e.outside n)).toList
        | .done _ => [])

/-- The message checks that so many looks have brought. -/
def checks (m : Monitor) (link : NodeLink ω) (e : Watch ω) (x : Wait) :
    Nat → List (Except RollupError Bool)
  | 0 => []
  | n + 1 => checks m link e x n ++
      (match run m link e x n with
        | .pending y => (y.check? m link (e.moment n) (e.outside n) (e.view n)).toList
        | .done _ => [])

/-- One more look of a run that goes on, with the answers it brings. -/
theorem run_succ_look {e : Watch ω} {n : Nat} {y : Wait} (h : run m link e x n = .pending y) :
    ∃ a b, Look m link (e.moment n) y (e.outside n) a b (run m link e x (n + 1)) ∧
      readings m link e x (n + 1) = readings m link e x n ++ a.toList ∧
      checks m link e x (n + 1) = checks m link e x n ++ b.toList := by
  refine ⟨_, _, ?_, by rw [readings, h], by rw [checks, h]⟩
  rw [run, h]
  exact poll_look

/-- A run that has ended brings nothing more. -/
theorem run_succ_done {e : Watch ω} {n : Nat} {r : WaitResult} (h : run m link e x n = .done r) :
    run m link e x (n + 1) = .done r ∧ readings m link e x (n + 1) = readings m link e x n ∧
      checks m link e x (n + 1) = checks m link e x n := by
  rw [run, readings, checks, h]
  simp

theorem run_staysDone (m : Monitor) (link : NodeLink ω) (e : Watch ω) (x : Wait) :
    Progress.StaysDone (run m link e x) := fun _ _ h => (run_succ_done h).1

/-- A run that goes on has gone on before. -/
theorem exists_pending_of_le {e : Watch ω} {n k : Nat} {y : Wait}
    (h : run m link e x n = .pending y) (hle : k ≤ n) : ∃ z, run m link e x k = .pending z :=
  (run_staysDone m link e x).exists_pending_of_le h hle

theorem readings_mono {e : Watch ω} {n k : Nat} (h : n ≤ k) :
    readings m link e x n <+: readings m link e x k := by
  induction h with
  | refl => exact List.prefix_rfl
  | step _ ih => exact ih.trans (List.prefix_append ..)

theorem checks_mono {e : Watch ω} {n k : Nat} (h : n ≤ k) :
    checks m link e x n <+: checks m link e x k := by
  induction h with
  | refl => exact List.prefix_rfl
  | step _ ih => exact ih.trans (List.prefix_append ..)

end Wait
end Paymaster.Reserve

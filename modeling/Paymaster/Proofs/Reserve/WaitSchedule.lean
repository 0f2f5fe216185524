import Mathlib.Data.ENat.Lattice
import Mathlib.Data.Set.Card
import Paymaster.Proofs.Reserve.WaitRun
/-!
# The schedule of a wait

When the node answers at once, the two pollers of a wait keep in step: look `q` of both falls on one
moment that depends on the policy alone. A look that is not due changes nothing, and one that is due
either decides the wait or is followed by the next.
-/

namespace Paymaster.Rollup

/-- Every question is answered at once. -/
structure NodeLink.Immediate {ω : Type} (link : NodeLink ω) : Prop where
  publicBalance : ∀ token owner w, (link.publicBalance token owner w).1.isSome
  storageAt : ∀ contract slot w, (link.storageAt contract slot w).1.isSome
  messageReady : ∀ message w, (link.messageReady message w).1.isSome

end Paymaster.Rollup

namespace Paymaster.Reserve

open Rollup (NodeLink)

/-! ## The moments of the looks -/

namespace WaitPolicy

/-- The time between look `q` and the next one. -/
def interval (p : WaitPolicy) (q : Nat) : Nat := min (p.first * 2 ^ q) p.last

/-- The time of look `q`, counted from the first one. -/
def lookAt (p : WaitPolicy) : Nat → Nat
  | 0 => 0
  | q + 1 => p.lookAt q + p.interval q

variable (p : WaitPolicy)

theorem first_pos : 0 < p.first := by
  unfold first
  omega

theorem first_le_last : p.first ≤ p.last := by
  unfold last
  omega

theorem interval_pos (q : Nat) : 0 < p.interval q := by
  have h1 := p.first_pos
  have h2 := p.first_le_last
  have h3 : 0 < p.first * 2 ^ q := Nat.mul_pos h1 (Nat.two_pow_pos q)
  unfold interval
  omega

theorem interval_zero : p.interval 0 = p.first := by
  have := p.first_le_last
  simp only [interval, Nat.pow_zero, Nat.mul_one]
  omega

theorem interval_succ (q : Nat) : min (2 * p.interval q) p.last = p.interval (q + 1) := by
  have h : p.first * 2 ^ (q + 1) = 2 * (p.first * 2 ^ q) := by
    rw [Nat.pow_succ, ← Nat.mul_assoc, Nat.mul_comm]
  simp only [interval, h]
  omega

theorem lookAt_strictMono : StrictMono p.lookAt :=
  strictMono_nat_of_lt_succ fun q => Nat.lt_add_of_pos_right (p.interval_pos q)

theorem lookAt_le {q r : Nat} (h : q ≤ r) : p.lookAt q ≤ p.lookAt r :=
  p.lookAt_strictMono.monotone h

/-- The looks before some time are those up to the first that is not. -/
theorem ncard_looks {q T : Nat} (hbefore : ∀ r < q, p.lookAt r < T) (hafter : T ≤ p.lookAt q) :
    {r | p.lookAt r < T}.ncard = q := by
  have h : {r | p.lookAt r < T} = ↑(Finset.range q) := by
    ext r
    simp only [Set.mem_ofPred_eq, Finset.coe_range, Set.mem_Iio]
    constructor
    · intro hr
      by_contra hq
      have := p.lookAt_le (Nat.le_of_not_lt hq)
      omega
    · exact hbefore r
  rw [h, Set.ncard_coe_finset, Finset.card_range]

end WaitPolicy

/-! ## The first signals -/

/-- The first index at which something holds; it is infinite if it never does. -/
noncomputable def firstIndex (P : Nat → Prop) : ℕ∞ := ⨅ q : { q // P q }, (q : ℕ∞)

theorem firstIndex_le {P : Nat → Prop} {q : Nat} (h : P q) : firstIndex P ≤ q :=
  iInf_le (fun q : { q // P q } => ((q : Nat) : ℕ∞)) ⟨q, h⟩

theorem le_firstIndex {P : Nat → Prop} {q : Nat} (h : ∀ r < q, ¬P r) : (q : ℕ∞) ≤ firstIndex P :=
  le_iInf fun r => Nat.cast_le.mpr (Nat.le_of_not_lt fun hlt => h r hlt r.2)

theorem firstIndex_eq {P : Nat → Prop} {q : Nat} (h : P q) (hbefore : ∀ r < q, ¬P r) :
    firstIndex P = q :=
  le_antisymm (firstIndex_le h) (le_firstIndex hbefore)

/-- Reading `q` shows a balance above the baseline. -/
def WaitTarget.Rises (target : WaitTarget) (b : Nat → Except ReadError Reading) (q : Nat) : Prop :=
  ∃ a, b q = .ok a ∧ target.baseline < a.balance

/-- Check `q` is made, and the first to find the message ready. -/
def WaitTarget.Ready (target : WaitTarget) (c : Nat → Except RollupError Bool) (q : Nat) : Prop :=
  target.message.isSome ∧ c q = .ok true ∧ ∀ r < q, c r = .ok false

/-- The result that the schedule of a policy gives, if the balance rises at reading `i` and the
message is ready at check `j`. -/
structure WaitResult.OnSchedule (p : WaitPolicy) (i j : ℕ∞) (r : WaitResult) : Prop where
  /-- A signal before the deadline ends the wait. -/
  confirmed : ∀ k : ℕ, min i j = k → p.lookAt k < p.timeout →
    r.status = .confirmed ∧ r.elapsed = p.lookAt k ∧ r.attempts = min (k + 1) maxCount ∧
      (i ≤ j → r.confirmedBy = some .balanceDelta) ∧ (j < i → r.confirmedBy = some .messageReady)
  /-- Without such a signal it ends at the deadline. -/
  timeout : (∀ k : ℕ, min i j = k → p.timeout ≤ p.lookAt k) →
    r.status = .timeout ∧ r.elapsed = p.timeout ∧
      r.attempts = min {q | p.lookAt q < p.timeout}.ncard maxCount ∧ r.confirmedBy = none

theorem WaitResult.onSchedule_of_confirmed {p : WaitPolicy} {i j : ℕ∞} {q : Nat} {r : WaitResult}
    (hmin : min i j = q) (ht : p.lookAt q < p.timeout)
    (hr : r.status = .confirmed ∧ r.elapsed = p.lookAt q ∧ r.attempts = min (q + 1) maxCount)
    (hi : i ≤ j → r.confirmedBy = some .balanceDelta)
    (hj : j < i → r.confirmedBy = some .messageReady) : r.OnSchedule p i j := by
  constructor
  · intro k hk _
    have hkq : k = q := Nat.cast_injective (hk.symm.trans hmin)
    subst hkq
    exact ⟨hr.1, hr.2.1, hr.2.2, hi, hj⟩
  · intro h
    exact absurd (h q hmin) (Nat.not_le_of_lt ht)

theorem WaitResult.onSchedule_of_rises {p : WaitPolicy} {P Q : Nat → Prop} {q : Nat}
    {r : WaitResult} (hP : P q) (hbefore : ∀ r < q, ¬P r ∧ ¬Q r) (ht : p.lookAt q < p.timeout)
    (hr : r.status = .confirmed ∧ r.elapsed = p.lookAt q ∧ r.attempts = min (q + 1) maxCount)
    (hs : r.confirmedBy = some .balanceDelta) : r.OnSchedule p (firstIndex P) (firstIndex Q) := by
  have hi : firstIndex P = q := firstIndex_eq hP fun r hlt => (hbefore r hlt).1
  have hj : (q : ℕ∞) ≤ firstIndex Q := le_firstIndex fun r hlt => (hbefore r hlt).2
  have hmin : min (firstIndex P) (firstIndex Q) = q := by rw [hi, min_eq_left hj]
  refine WaitResult.onSchedule_of_confirmed hmin ht hr (fun _ => hs) ?_
  intro hlt
  exact absurd (hi ▸ hj) (not_le_of_gt hlt)

theorem WaitResult.onSchedule_of_ready {p : WaitPolicy} {P Q : Nat → Prop} {q : Nat}
    {r : WaitResult} (hQ : Q q) (hP : ¬P q) (hbefore : ∀ r < q, ¬P r ∧ ¬Q r)
    (ht : p.lookAt q < p.timeout)
    (hr : r.status = .confirmed ∧ r.elapsed = p.lookAt q ∧ r.attempts = min (q + 1) maxCount)
    (hs : r.confirmedBy = some .messageReady) : r.OnSchedule p (firstIndex P) (firstIndex Q) := by
  have hj : firstIndex Q = q := firstIndex_eq hQ fun r hlt => (hbefore r hlt).2
  have hi : ((q + 1 : ℕ) : ℕ∞) ≤ firstIndex P := by
    apply le_firstIndex
    intro r hlt
    rcases Nat.lt_succ_iff_lt_or_eq.mp hlt with h | rfl
    · exact (hbefore r h).1
    · exact hP
  have hji : firstIndex Q < firstIndex P :=
    lt_of_lt_of_le (hj ▸ Nat.cast_lt.mpr (Nat.lt_succ_self q)) hi
  have hmin : min (firstIndex P) (firstIndex Q) = q := by rw [min_eq_right hji.le, hj]
  refine WaitResult.onSchedule_of_confirmed hmin ht hr ?_ fun _ => hs
  intro hle
  exact absurd hle (not_le_of_gt hji)

theorem WaitResult.onSchedule_of_timeout {p : WaitPolicy} {P Q : Nat → Prop} {q : Nat}
    {r : WaitResult} (hbefore : ∀ r < q, ¬P r ∧ ¬Q r) (hlooks : ∀ r < q, p.lookAt r < p.timeout)
    (ht : p.timeout ≤ p.lookAt q)
    (hr : r.status = .timeout ∧ r.elapsed = p.timeout ∧ r.attempts = min q maxCount)
    (hs : r.confirmedBy = none) : r.OnSchedule p (firstIndex P) (firstIndex Q) := by
  have hi : (q : ℕ∞) ≤ min (firstIndex P) (firstIndex Q) :=
    le_min (le_firstIndex fun r hlt => (hbefore r hlt).1)
      (le_firstIndex fun r hlt => (hbefore r hlt).2)
  constructor
  · intro k hk hlt
    have hqk : q ≤ k := Nat.cast_le.mp (hk ▸ hi)
    have := p.lookAt_le hqk
    omega
  · intro _
    refine ⟨hr.1, hr.2.1, ?_, hs⟩
    rw [p.ncard_looks hlooks ht]
    exact hr.2.2

/-! ## Pollers whose questions are answered at once -/

variable {ω : Type} {m : Monitor} {link : NodeLink ω}

theorem pollStorage_of_immediate (h : link.Immediate) (cause : PrimaryCause) (w : ω) :
    ∃ r, (m.pollStorage link cause w).1 = .done r := by
  have hs := h.storageAt m.feeJuice m.slot w
  unfold Monitor.pollStorage
  rcases hq : link.storageAt m.feeJuice m.slot w with ⟨_ | answer, w'⟩
  · simp [hq] at hs
  · exact ⟨_, rfl⟩

theorem pollRead_of_immediate (h : link.Immediate) (φ : ReadPhase) (w : ω) :
    ∃ r, (m.pollRead link φ w).1 = .done r := by
  cases φ with
  | storage cause => exact pollStorage_of_immediate h cause w
  | primary =>
    have hp := h.publicBalance m.feeJuice m.facility w
    unfold Monitor.pollRead
    rcases hq : link.publicBalance m.feeJuice m.facility w with ⟨_ | _ | a, w'⟩
    · simp [hq] at hp
    · simp only
      split
      · exact pollStorage_of_immediate h _ w'
      · exact ⟨_, rfl⟩
    · exact ⟨_, rfl⟩

/-- The next look of a poller is due at a time: it sleeps until then, or, at the very start, it has
asked already. -/
def Poller.Due {φ : Type} (first : φ) (started wake interval : Nat) (p : Poller φ) : Prop :=
  p = .sleeping wake interval ∨ p = .asking first interval ∧ wake ≤ started

theorem Poller.Due.rouse {φ : Type} {first : φ} {started wake interval now : Nat} {p : Poller φ}
    (h : p.Due first started wake interval) (hnow : started ≤ now) :
    p.rouse first now = if wake ≤ now then .asking first interval else .sleeping wake interval := by
  rcases h with rfl | ⟨rfl, hwake⟩
  · rfl
  · rw [if_pos (Nat.le_trans hwake hnow)]
    rfl

namespace Wait

variable {t : Moment} {x y : Wait} {w : ω}

theorem BalanceLook.at_once {a : Option (Except ReadError Reading)} {started wake interval : Nat}
    (hb : BalanceLook m link t x w a y) (himm : link.Immediate)
    (hdue : x.balance.Due .primary started wake interval) (hnow : started ≤ t.now) :
    (t.now < wake ∧ a = none ∧ y = { x with balance := .sleeping wake interval }) ∨
      (wake ≤ t.now ∧ ∃ r, a = some r ∧ y = x.afterReading t.now interval r) := by
  have hrouse := hdue.rouse hnow
  by_cases hwake : wake ≤ t.now
  · rw [if_pos hwake] at hrouse
    cases hb with
    | idle hp hidle => exact absurd (hp.symm.trans hrouse) (hidle _ _)
    | unanswered hp hw =>
      obtain ⟨r, hr⟩ := pollRead_of_immediate (m := m) himm _ w
      rw [hr] at hw
      cases hw
    | answered hp hw =>
      cases hrouse.symm.trans hp
      exact Or.inr ⟨hwake, _, rfl, rfl⟩
  · rw [if_neg hwake] at hrouse
    cases hb with
    | idle hp hidle =>
      cases hrouse.symm.trans hp
      exact Or.inl ⟨Nat.lt_of_not_le hwake, rfl, rfl⟩
    | unanswered hp hw => cases hrouse.symm.trans hp
    | answered hp hw => cases hrouse.symm.trans hp

theorem MessageLook.at_once {b : Option (Except RollupError Bool)} {started wake interval : Nat}
    (hm : MessageLook link t x w b y) (himm : link.Immediate) (hsome : x.target.message.isSome)
    (hdue : x.message.Due () started wake interval) (hnow : started ≤ t.now) :
    (t.now < wake ∧ b = none ∧ y = { x with message := .sleeping wake interval }) ∨
      (wake ≤ t.now ∧ ∃ r, b = some r ∧ y = x.afterCheck t.now interval r) := by
  have hrouse := hdue.rouse hnow
  by_cases hwake : wake ≤ t.now
  · rw [if_pos hwake] at hrouse
    cases hm with
    | unknown hnone => simp [hnone] at hsome
    | idle hmsg hp hidle => exact absurd (hp.symm.trans hrouse) (hidle _)
    | @unanswered message i hmsg hp hw =>
      have hsome := himm.messageReady message w
      rw [hw] at hsome
      cases hsome
    | answered hmsg hp hw =>
      cases hrouse.symm.trans hp
      exact Or.inr ⟨hwake, _, rfl, rfl⟩
  · rw [if_neg hwake] at hrouse
    cases hm with
    | unknown hnone => simp [hnone] at hsome
    | idle hmsg hp hidle =>
      cases hrouse.symm.trans hp
      exact Or.inl ⟨Nat.lt_of_not_le hwake, rfl, rfl⟩
    | unanswered hmsg hp hw => cases hrouse.symm.trans hp
    | answered hmsg hp hw => cases hrouse.symm.trans hp

theorem MessageLook.of_off {b : Option (Except RollupError Bool)} (hm : MessageLook link t x w b y)
    (hoff : x.message = .off) : b = none ∧ y = x := by
  have hrouse : x.message.rouse () t.now = .off := by rw [hoff]; rfl
  have hself : { x with message := .off } = x := by rw [← hoff]
  cases hm with
  | unknown hnone => exact ⟨rfl, by rw [hrouse, hself]⟩
  | idle hmsg hp hidle =>
    cases hrouse.symm.trans hp
    exact ⟨rfl, hself⟩
  | unanswered hmsg hp hw => cases hrouse.symm.trans hp
  | answered hmsg hp hw => cases hrouse.symm.trans hp

/-! ## Waits in step -/

/-- A wait that began at `t₀` and has made `q` readings and `s` message checks, none with a
signal. -/
structure Tracks (p : WaitPolicy) (target : WaitTarget) (t₀ : Nat)
    (b : Nat → Except ReadError Reading) (c : Nat → Except RollupError Bool) (x : Wait)
    (q s : Nat) : Prop where
  target_eq : x.target = target
  started_eq : x.started = t₀
  deadline_eq : x.deadline = t₀ + p.timeout
  longest_eq : x.longest = p.last
  attempts_eq : x.seen.attempts = min q maxCount
  not_rises : ∀ r < q, ¬target.Rises b r
  balance_due : x.balance.Due .primary t₀ (t₀ + p.lookAt q) (p.interval q)
  message_due :
    (target.message.isSome ∧ s = q ∧ (∀ r < q, c r = .ok false) ∧
      x.message.Due () t₀ (t₀ + p.lookAt q) (p.interval q)) ∨
    ((∀ r, ¬target.Ready c r) ∧ x.message = .off)

variable {p : WaitPolicy} {target : WaitTarget} {t₀ q s : Nat}
  {b : Nat → Except ReadError Reading} {c : Nat → Except RollupError Bool}
  {a : Option (Except ReadError Reading)} {a' : Option (Except RollupError Bool)}
  {pr : Progress Wait WaitResult}

theorem tracks_start : (start p target t₀).Tracks p target t₀ b c 0 0 := by
  refine ⟨rfl, rfl, rfl, rfl, rfl, fun r hr => absurd hr (Nat.not_lt_zero r), ?_, ?_⟩
  · right
    rw [p.interval_zero]
    exact ⟨rfl, Nat.le_refl _⟩
  · cases hm : target.message with
    | none =>
      right
      constructor
      · intro r hr
        have := hr.1
        simp [hm] at this
      · simp only [start, hm]
    | some message =>
      left
      refine ⟨rfl, rfl, fun r hr => absurd hr (Nat.not_lt_zero r), Or.inr ⟨?_, Nat.le_refl _⟩⟩
      simp only [start, hm]
      rw [p.interval_zero]

theorem Tracks.not_ready (h : x.Tracks p target t₀ b c q s) : ∀ r < q, ¬target.Ready c r := by
  intro r hr hready
  rcases h.message_due with ⟨-, -, hfalse, -⟩ | ⟨hnever, -⟩
  · have := (hfalse r hr).symm.trans hready.2.1
    simp at this
  · exact hnever r hready

theorem Tracks.rose_iff (h : x.Tracks p target t₀ b c q s) {r : Except ReadError Reading}
    (hr : b q = r) : x.rose r = true ↔ target.Rises b q := by
  unfold rose WaitTarget.Rises
  rw [hr, h.target_eq]
  cases r with
  | error why => simp
  | ok a => simp

theorem Tracks.attempts_afterReading (h : x.Tracks p target t₀ b c q s) (now interval : Nat)
    (r : Except ReadError Reading) :
    (x.afterReading now interval r).seen.attempts = min (q + 1) maxCount := by
  have hcount : (x.afterReading now interval r).seen.attempts = countOne x.seen.attempts := by
    cases r <;> rfl
  rw [hcount, h.attempts_eq]
  unfold countOne
  omega

theorem Tracks.rest_eq {φ : Type} (h : x.Tracks p target t₀ b c q s) {now : Nat}
    (hnow : now = t₀ + p.lookAt q) :
    (x.rest now (p.interval q) : Poller φ) =
      .sleeping (t₀ + p.lookAt (q + 1)) (p.interval (q + 1)) := by
  rw [rest, h.longest_eq, p.interval_succ, hnow, WaitPolicy.lookAt, Nat.add_assoc]

/-- A look before the next one is due changes nothing. -/
theorem Tracks.look_early (h : x.Tracks p target t₀ b c q s) (himm : link.Immediate)
    (hlook : Look m link t x w a a' pr) (hc : t.cancelled = false) (hd : t.now < x.deadline)
    (h₀ : t₀ ≤ t.now) (hnow : t.now < t₀ + p.lookAt q) :
    a = none ∧ a' = none ∧ ∃ y, pr = .pending y ∧ y.Tracks p target t₀ b c q s ∧
      y.balance = .sleeping (t₀ + p.lookAt q) (p.interval q) := by
  -- The balance is not looked at, and neither is the message.
  have hbal : ∀ {a y}, BalanceLook m link t x w a y → a = none ∧
      y = { x with balance := .sleeping (t₀ + p.lookAt q) (p.interval q) } := by
    intro a y hb
    rcases hb.at_once himm h.balance_due h₀ with ⟨-, ha, hy⟩ | ⟨hle, -⟩
    · exact ⟨ha, hy⟩
    · omega
  have hmsg : ∀ {w' a' z},
      MessageLook link t { x with balance := .sleeping (t₀ + p.lookAt q) (p.interval q) } w' a' z →
      a' = none ∧ z.Tracks p target t₀ b c q s ∧
        z.balance = .sleeping (t₀ + p.lookAt q) (p.interval q) := by
    intro w' a' z hm
    rcases h.message_due with ⟨hsome, hs, hfalse, hdue⟩ | ⟨hnever, hoff⟩
    · rcases hm.at_once himm (by rw [h.target_eq]; exact hsome) hdue h₀ with ⟨-, ha, hz⟩ | ⟨hle, -⟩
      · subst hz
        exact ⟨ha, ⟨h.target_eq, h.started_eq, h.deadline_eq, h.longest_eq, h.attempts_eq,
          h.not_rises, Or.inl rfl, Or.inl ⟨hsome, hs, hfalse, Or.inl rfl⟩⟩, rfl⟩
      · omega
    · obtain ⟨ha, hz⟩ := hm.of_off hoff
      subst hz
      exact ⟨ha, ⟨h.target_eq, h.started_eq, h.deadline_eq, h.longest_eq, h.attempts_eq,
        h.not_rises, Or.inl rfl, Or.inr ⟨hnever, hoff⟩⟩, rfl⟩
  cases hlook with
  | aborted hc' => simp [hc] at hc'
  | timeout _ hd' => omega
  | rose _ _ hb hr => exact absurd (hbal hb).1 (by simp)
  | ready _ _ hb hr hm =>
    obtain ⟨-, rfl⟩ := hbal hb
    exact absurd (hmsg hm).1 (by simp)
  | pending _ _ hb hr hm hn =>
    obtain ⟨ha, rfl⟩ := hbal hb
    obtain ⟨ha', hz, hzb⟩ := hmsg hm
    exact ⟨ha, ha', _, rfl, hz, hzb⟩

/-- The message check that goes with reading `q`, when the reading brought no signal. -/
theorem Tracks.check (h : x.Tracks p target t₀ b c q s) (himm : link.Immediate)
    {r : Except ReadError Reading} {z : Wait} {w' : ω} (hr : ¬target.Rises b q) (h₀ : t₀ ≤ t.now)
    (hnow : t.now = t₀ + p.lookAt q) (hcheck : ∀ r, a' = some r → c s = r)
    (hm : MessageLook link t (x.afterReading t.now (p.interval q) r) w' a' z) :
    (a' = some (.ok true) ∧ target.Ready c q ∧ z.started = t₀ ∧
      z.seen.attempts = min (q + 1) maxCount) ∨
    (a' ≠ some (.ok true) ∧ z.Tracks p target t₀ b c (q + 1) (s + a'.toList.length) ∧
      z.balance = .sleeping (t₀ + p.lookAt (q + 1)) (p.interval (q + 1))) := by
  have hcount := h.attempts_afterReading t.now (p.interval q) r
  have hbalance := h.rest_eq (φ := ReadPhase) hnow
  have hrises : ∀ r < q + 1, ¬target.Rises b r := by
    intro r hlt
    rcases Nat.lt_succ_iff_lt_or_eq.mp hlt with hlt | rfl
    · exact h.not_rises r hlt
    · exact hr
  rcases h.message_due with ⟨hsome, hs, hfalse, hdue⟩ | ⟨hnever, hoff⟩
  · rcases hm.at_once himm (by rw [← h.target_eq] at hsome; exact hsome) hdue h₀ with
      ⟨hlt, -⟩ | ⟨-, r', rfl, rfl⟩
    · omega
    · have hcq : c q = r' := hs ▸ hcheck r' rfl
      have hlen : s + (some r').toList.length = q + 1 := by rw [hs]; rfl
      rw [hlen]
      rcases r' with why | _ | _
      · -- A check that fails is the last one, so the message is never seen to be ready.
        have hnever : ∀ r, ¬target.Ready c r := by
          rintro r ⟨-, hready, hall⟩
          rcases Nat.lt_trichotomy r q with hlt | rfl | hlt
          · simp [hfalse r hlt] at hready
          · simp [hcq] at hready
          · exact absurd (hall q hlt) (by simp [hcq])
        exact Or.inr ⟨by simp, ⟨h.target_eq, h.started_eq, h.deadline_eq, h.longest_eq, hcount,
          hrises, Or.inl hbalance, Or.inr ⟨hnever, rfl⟩⟩, hbalance⟩
      · have hfalse' : ∀ r < q + 1, c r = .ok false := by
          intro r hlt
          rcases Nat.lt_succ_iff_lt_or_eq.mp hlt with hlt | rfl
          · exact hfalse r hlt
          · exact hcq
        refine Or.inr ⟨by simp, ⟨h.target_eq, h.started_eq, h.deadline_eq, h.longest_eq, hcount, hrises,
          Or.inl hbalance, Or.inl ⟨hsome, rfl, hfalse', Or.inl ?_⟩⟩, hbalance⟩
        exact h.rest_eq hnow
      · exact Or.inl ⟨rfl, ⟨hsome, hcq, hfalse⟩, h.started_eq, hcount⟩
  · obtain ⟨rfl, rfl⟩ := hm.of_off hoff
    exact Or.inr ⟨by simp, ⟨h.target_eq, h.started_eq, h.deadline_eq, h.longest_eq, hcount,
      hrises, Or.inl hbalance, Or.inr ⟨hnever, hoff⟩⟩, hbalance⟩

/-- A look that is due either decides the wait, as the schedule says, or is followed by the next. -/
theorem Tracks.look_due (h : x.Tracks p target t₀ b c q s) (himm : link.Immediate)
    (hlook : Look m link t x w a a' pr) (hc : t.cancelled = false) (hd : t.now < x.deadline)
    (hnow : t.now = t₀ + p.lookAt q) (hread : ∀ r, a = some r → b q = r)
    (hcheck : ∀ r, a' = some r → c s = r) :
    a.toList.length = 1 ∧
    ((∃ r, pr = .done r ∧ r.elapsed = p.lookAt q ∧
        r.OnSchedule p (firstIndex (target.Rises b)) (firstIndex (target.Ready c))) ∨
      ∃ y, pr = .pending y ∧ y.Tracks p target t₀ b c (q + 1) (s + a'.toList.length) ∧
        y.balance = .sleeping (t₀ + p.lookAt (q + 1)) (p.interval (q + 1))) := by
  have h₀ : t₀ ≤ t.now := by omega
  have ht : p.lookAt q < p.timeout := by
    rw [h.deadline_eq] at hd
    omega
  have hbefore : ∀ r < q, ¬target.Rises b r ∧ ¬target.Ready c r :=
    fun r hlt => ⟨h.not_rises r hlt, h.not_ready r hlt⟩
  have hbal : ∀ {a y}, BalanceLook m link t x w a y →
      ∃ r, a = some r ∧ y = x.afterReading t.now (p.interval q) r := by
    intro a y hb
    rcases hb.at_once himm h.balance_due h₀ with ⟨hlt, -⟩ | ⟨-, hr⟩
    · omega
    · exact hr
  have helapsed : ∀ {z : Wait} {status signal}, z.started = t₀ →
      (z.finish t.now status signal).elapsed = p.lookAt q := by
    intro z status signal hz
    show t.now - z.started = _
    omega
  cases hlook with
  | aborted hc' => simp [hc] at hc'
  | timeout _ hd' => omega
  | rose _ _ hb hr =>
    obtain ⟨r, hr', rfl⟩ := hbal hb
    cases hr'
    have hP := (h.rose_iff (hread _ rfl)).mp hr
    refine ⟨rfl, Or.inl ⟨_, rfl, helapsed h.started_eq, ?_⟩⟩
    exact WaitResult.onSchedule_of_rises hP hbefore ht
      ⟨rfl, helapsed h.started_eq, h.attempts_afterReading _ _ _⟩ rfl
  | ready _ _ hb hr hm =>
    obtain ⟨r, rfl, rfl⟩ := hbal hb
    have hP : ¬target.Rises b q := by
      intro hP
      simp [(h.rose_iff (hread _ rfl)).mpr hP] at hr
    rcases h.check himm hP h₀ hnow hcheck hm with ⟨-, hQ, hz, hcount⟩ | ⟨hn, -⟩
    · refine ⟨rfl, Or.inl ⟨_, rfl, helapsed hz, ?_⟩⟩
      exact WaitResult.onSchedule_of_ready hQ hP hbefore ht ⟨rfl, helapsed hz, hcount⟩ rfl
    · exact absurd rfl hn
  | pending _ _ hb hr hm hn =>
    obtain ⟨r, rfl, rfl⟩ := hbal hb
    have hP : ¬target.Rises b q := by
      intro hP
      simp [(h.rose_iff (hread _ rfl)).mpr hP] at hr
    rcases h.check himm hP h₀ hnow hcheck hm with ⟨htrue, -⟩ | ⟨-, hz, hzb⟩
    · exact absurd htrue hn
    · exact ⟨rfl, Or.inr ⟨_, rfl, hz, hzb⟩⟩

end Wait
end Paymaster.Reserve

import Paymaster.Proofs.Reserve.WaitSchedule
/-!
# The outcome of a wait

The outcome of a wait whose questions are answered at once has a closed form in the replies: it is
decided by the first look that brings a signal, or else by the deadline. The runs considered are
those that miss no time the wait sleeps for; what they do between these times does not matter.
-/

namespace Paymaster.Reserve

open Rollup (NodeLink)

variable {ω : Type} {m : Monitor} {link : NodeLink ω}

/-! ## Runs in time -/

/-- A wait is looked at when it begins, never too late for what it sleeps for, and again and
again. -/
structure Watch.Prompt (m : Monitor) (link : NodeLink ω) (x : Wait) (e : Watch ω) : Prop where
  /-- The first look is made at once. -/
  first : (e.moment 0).now = x.started
  /-- The clock never steps back. -/
  mono : ∀ n, (e.moment n).now ≤ (e.moment (n + 1)).now
  /-- No time that the wait sleeps for is missed. -/
  prompt : ∀ n y, Wait.run m link e x n = .pending y → ∀ wake ∈ y.wakes, (e.moment n).now ≤ wake
  /-- Every time comes. -/
  unbounded : ∀ T, ∃ n, T ≤ (e.moment n).now

/-- The readings and the message checks of a run are those of two sequences, as far as they are
made. -/
structure Watch.Answers (m : Monitor) (link : NodeLink ω) (x : Wait)
    (b : Nat → Except ReadError Reading) (c : Nat → Except RollupError Bool) (e : Watch ω) :
    Prop where
  reading : ∀ (n q : Nat) r, (Wait.readings m link e x n)[q]? = some r → b q = r
  check : ∀ (n q : Nat) r, (Wait.checks m link e x n)[q]? = some r → c q = r

theorem nth_mono {α : Type} {l l' : List α} (h : l <+: l') {q : Nat} {r : α}
    (hr : l[q]? = some r) : l'[q]? = some r := by
  obtain ⟨hq, rfl⟩ := List.getElem?_eq_some_iff.mp hr
  exact List.prefix_iff_getElem?.mp h q hq

/-- Lists that only grow are the beginnings of one sequence. -/
theorem exists_nth {α : Type} [Nonempty α] {l : Nat → List α}
    (h : ∀ n k, n ≤ k → l n <+: l k) :
    ∃ f : Nat → α, ∀ (n q : Nat) r, (l n)[q]? = some r → f q = r := by
  have hall : ∀ q : Nat, ∃ r, ∀ n r', (l n)[q]? = some r' → r = r' := by
    intro q
    by_cases hq : ∃ n r, (l n)[q]? = some r
    · obtain ⟨n, r, hr⟩ := hq
      refine ⟨r, ?_⟩
      intro k r' hr'
      rcases Nat.le_total n k with hle | hle
      · exact Option.some_inj.mp ((nth_mono (h n k hle) hr).symm.trans hr')
      · exact Option.some_inj.mp (hr.symm.trans (nth_mono (h k n hle) hr'))
    · exact ⟨Classical.arbitrary α, fun n r hr => absurd ⟨n, r, hr⟩ hq⟩
  choose f hf using hall
  exact ⟨f, fun n q r hr => hf q n r hr⟩

/-- The readings and the checks of every run are those of some sequences. -/
theorem Watch.exists_answers (e : Watch ω) (x : Wait) : ∃ b c, e.Answers m link x b c := by
  have : Nonempty (Except ReadError Reading) := ⟨.error (.primary (.unsupported ""))⟩
  have : Nonempty (Except RollupError Bool) := ⟨.ok false⟩
  obtain ⟨b, hb⟩ := exists_nth fun n k => Wait.readings_mono (m := m) (e := e) (x := x)
  obtain ⟨c, hc⟩ := exists_nth fun n k => Wait.checks_mono (m := m) (e := e) (x := x)
  exact ⟨b, c, hb, hc⟩

/-- The answers of one more look are the next ones of the two sequences. -/
theorem Watch.Answers.next {x : Wait} {b : Nat → Except ReadError Reading}
    {c : Nat → Except RollupError Bool} {e : Watch ω} (h : e.Answers m link x b c) {n : Nat}
    {a : Option (Except ReadError Reading)} {a' : Option (Except RollupError Bool)}
    (hreadings : Wait.readings m link e x (n + 1) = Wait.readings m link e x n ++ a.toList)
    (hchecks : Wait.checks m link e x (n + 1) = Wait.checks m link e x n ++ a'.toList) :
    (∀ r, a = some r → b (Wait.readings m link e x n).length = r) ∧
      ∀ r, a' = some r → c (Wait.checks m link e x n).length = r := by
  constructor
  · rintro r rfl
    refine h.reading (n + 1) _ r ?_
    rw [hreadings]
    simp
  · rintro r rfl
    refine h.check (n + 1) _ r ?_
    rw [hchecks]
    simp

/-- The cancelling comes at a time: there is a look then that finds it, and none before. -/
structure Watch.CancelledAt (e : Watch ω) (T : Nat) : Prop where
  /-- It has not come before. -/
  not_before : ∀ n, (e.moment n).cancelled = true → T ≤ (e.moment n).now
  /-- It wakes the wait. -/
  looked : ∃ n, (e.moment n).now = T ∧ (e.moment n).cancelled = true

/-- The first look that finds the wait cancelled is made at the very time of the cancelling. -/
theorem Watch.CancelledAt.first {e : Watch ω} {T : Nat} (h : e.CancelledAt T)
    (hmono : ∀ n, (e.moment n).now ≤ (e.moment (n + 1)).now) :
    ∃ n, (e.moment n).now = T ∧ (e.moment n).cancelled = true ∧
      ∀ k < n, (e.moment k).cancelled = false := by
  classical
  obtain ⟨N, hN, hc⟩ := h.looked
  have hex : ∃ n, (e.moment n).cancelled = true := ⟨N, hc⟩
  have hfirst := Nat.find_spec hex
  have hnow : Monotone fun n => (e.moment n).now := monotone_nat_of_le_succ hmono
  refine ⟨Nat.find hex, ?_, hfirst, ?_⟩
  · have h1 := h.not_before _ hfirst
    have h2 : (e.moment (Nat.find hex)).now ≤ (e.moment N).now := hnow (Nat.find_min' hex hc)
    omega
  · intro k hk
    simpa using Nat.find_min hex hk

namespace Wait

variable {e : Watch ω} {p : WaitPolicy} {target : WaitTarget} {t₀ : Nat}
  {b : Nat → Except ReadError Reading} {c : Nat → Except RollupError Bool}

/-- A wait after the given readings and message checks, about to be looked at. -/
structure InTime (p : WaitPolicy) (target : WaitTarget) (t₀ : Nat)
    (b : Nat → Except ReadError Reading) (c : Nat → Except RollupError Bool)
    (rs : List (Except ReadError Reading)) (cs : List (Except RollupError Bool)) (now : Nat)
    (x : Wait) : Prop where
  tracks : x.Tracks p target t₀ b c rs.length cs.length
  before_timeout : ∀ q < rs.length, p.lookAt q < p.timeout
  past : ∀ q < rs.length, t₀ + p.lookAt q ≤ now
  started_le : t₀ ≤ now
  le_next : now ≤ t₀ + p.lookAt rs.length
  le_deadline : now ≤ t₀ + p.timeout

/-- The outcome of a wait that has ended: it is that of the schedule. -/
def Timely (p : WaitPolicy) (target : WaitTarget) (t₀ : Nat)
    (b : Nat → Except ReadError Reading) (c : Nat → Except RollupError Bool) (now : Nat)
    (r : WaitResult) : Prop :=
  t₀ + r.elapsed ≤ now ∧
    r.OnSchedule p (firstIndex (target.Rises b)) (firstIndex (target.Ready c))

variable {rs : List (Except ReadError Reading)} {cs : List (Except RollupError Bool)}
  {now : Nat} {t : Moment} {x y : Wait} {w : ω} {a : Option (Except ReadError Reading)}
  {a' : Option (Except RollupError Bool)} {pr : Progress Wait WaitResult}

theorem inTime_start : (start p target t₀).InTime p target t₀ b c [] [] t₀ :=
  ⟨tracks_start, fun q hq => absurd hq (Nat.not_lt_zero q), fun q hq => absurd hq (Nat.not_lt_zero q),
    Nat.le_refl _, Nat.le_refl _, Nat.le_add_right _ _⟩

/-- A look at the deadline. -/
theorem InTime.look_late (h : x.InTime p target t₀ b c rs cs t.now)
    (hlook : Look m link t x w a a' pr) (hc : t.cancelled = false) (hd : x.deadline ≤ t.now) :
    ∃ r, pr = .done r ∧ Timely p target t₀ b c t.now r := by
  have hdeadline := h.tracks.deadline_eq
  have hnow := h.le_deadline
  have hnext := h.le_next
  cases hlook with
  | timeout _ _ =>
    have helapsed : (x.finish t.now .timeout none).elapsed = p.timeout := by
      show t.now - x.started = _
      rw [h.tracks.started_eq]
      omega
    refine ⟨_, rfl, by omega, ?_⟩
    exact WaitResult.onSchedule_of_timeout
      (fun r hr => ⟨h.tracks.not_rises r hr, h.tracks.not_ready r hr⟩) h.before_timeout (by omega)
      ⟨rfl, helapsed, h.tracks.attempts_eq⟩ rfl
  | aborted hc' => simp [hc] at hc'
  | rose _ hd' => omega
  | ready _ hd' => omega
  | pending _ hd' => omega

/-- A look before the deadline: it may be early, or it is due. -/
theorem InTime.look (h : x.InTime p target t₀ b c rs cs t.now) (himm : link.Immediate)
    (hlook : Look m link t x w a a' pr) (hc : t.cancelled = false) (hd : t.now < x.deadline)
    (hread : ∀ r, a = some r → b rs.length = r) (hcheck : ∀ r, a' = some r → c cs.length = r)
    (hmono : t.now ≤ now) (hwake : ∀ y, pr = .pending y → ∀ wake ∈ y.wakes, now ≤ wake) :
    pr.Meets (fun y => y.InTime p target t₀ b c (rs ++ a.toList) (cs ++ a'.toList) now)
      (Timely p target t₀ b c now) := by
  have h₀ := h.started_le
  have hdeadline := h.tracks.deadline_eq
  -- Both kinds of look leave a wait that sleeps until the next reading is due.
  have hnext : ∀ {y : Wait} {q i : Nat}, pr = .pending y → y.deadline = t₀ + p.timeout →
      y.balance = .sleeping (t₀ + p.lookAt q) i → now ≤ t₀ + p.lookAt q ∧ now ≤ t₀ + p.timeout := by
    intro y q i hy hdeadline hbalance
    have hwakes := hwake y hy
    refine ⟨hwakes _ (by simp [wakes, hbalance, Poller.wake?]), ?_⟩
    rw [← hdeadline]
    exact hwakes _ (List.mem_cons_self ..)
  rcases Nat.lt_or_eq_of_le h.le_next with hlt | heq
  · obtain ⟨rfl, rfl, y, rfl, hy, hbalance⟩ := h.tracks.look_early himm hlook hc hd h₀ hlt
    obtain ⟨hle, hle'⟩ := hnext rfl hy.deadline_eq hbalance
    rw [Option.toList_none, Option.toList_none, List.append_nil, List.append_nil]
    exact ⟨hy, h.before_timeout, fun q hq => Nat.le_trans (h.past q hq) hmono,
      Nat.le_trans h₀ hmono, hle, hle'⟩
  · obtain ⟨hlen, hdone | ⟨y, rfl, hy, hbalance⟩⟩ :=
      h.tracks.look_due himm hlook hc hd heq hread hcheck
    · obtain ⟨r, rfl, helapsed, hs⟩ := hdone
      exact ⟨by omega, hs⟩
    · obtain ⟨hle, hle'⟩ := hnext rfl hy.deadline_eq hbalance
      have hlength : (rs ++ a.toList).length = rs.length + 1 := by rw [List.length_append, hlen]
      have hlast : ∀ q < (rs ++ a.toList).length, p.lookAt q ≤ p.lookAt rs.length := by
        intro q hq
        rw [hlength] at hq
        exact p.lookAt_le (Nat.lt_succ_iff.mp hq)
      refine ⟨?_, ?_, ?_, Nat.le_trans h₀ hmono, ?_, hle'⟩
      · rw [hlength, List.length_append]
        exact hy
      · intro q hq
        have := hlast q hq
        omega
      · intro q hq
        have := hlast q hq
        omega
      · rw [hlength]
        exact hle

/-- The next look of a run that keeps in step. -/
theorem InTime.run_succ (himm : link.Immediate) (ha : e.Answers m link x b c) {n : Nat}
    (hx : run m link e x n = .pending y)
    (h : y.InTime p target t₀ b c (readings m link e x n) (checks m link e x n) (e.moment n).now)
    (hc : (e.moment n).cancelled = false) (hmono : (e.moment n).now ≤ (e.moment (n + 1)).now)
    (hwake : ∀ z, run m link e x (n + 1) = .pending z →
      ∀ wake ∈ z.wakes, (e.moment (n + 1)).now ≤ wake) :
    (run m link e x (n + 1)).Meets
      (InTime p target t₀ b c (readings m link e x (n + 1)) (checks m link e x (n + 1))
        (e.moment (n + 1)).now)
      (Timely p target t₀ b c (e.moment (n + 1)).now) := by
  obtain ⟨a, a', hlook, hreadings, hchecks⟩ := run_succ_look hx
  by_cases hd : y.deadline ≤ (e.moment n).now
  · obtain ⟨r, hr, hle, hs⟩ := h.look_late hlook hc hd
    rw [hr]
    exact ⟨Nat.le_trans hle hmono, hs⟩
  · obtain ⟨hread, hcheck⟩ := ha.next hreadings hchecks
    rw [hreadings, hchecks]
    exact h.look himm hlook hc (Nat.lt_of_not_le hd) hread hcheck hmono hwake

/-- As long as it is not cancelled, a run keeps in step, and it ends as the schedule says. -/
theorem run_tracks (himm : link.Immediate) (hp : e.Prompt m link (start p target t₀))
    (ha : e.Answers m link (start p target t₀) b c) (n : Nat)
    (hc : ∀ k < n, (e.moment k).cancelled = false) :
    (run m link e (start p target t₀) n).Meets
      (InTime p target t₀ b c (readings m link e (start p target t₀) n)
        (checks m link e (start p target t₀) n) (e.moment n).now)
      (Timely p target t₀ b c (e.moment n).now) := by
  induction n with
  | zero =>
    rw [hp.first]
    exact inTime_start
  | succ n ih =>
    replace ih := ih fun k hk => hc k (Nat.lt_succ_of_lt hk)
    cases hx : run m link e (start p target t₀) n with
    | done r =>
      obtain ⟨hrun, -, -⟩ := run_succ_done hx
      rw [hx] at ih
      rw [hrun]
      exact ⟨Nat.le_trans ih.1 (hp.mono n), ih.2⟩
    | pending y =>
      rw [hx] at ih
      exact InTime.run_succ himm ha hx ih (hc n (Nat.lt_succ_self n)) (hp.mono n) (hp.prompt (n + 1))

/-- A run that is not cancelled ends by its deadline. -/
theorem exists_done (himm : link.Immediate) (hp : e.Prompt m link (start p target t₀))
    (ha : e.Answers m link (start p target t₀) b c) (hc : ∀ n, (e.moment n).cancelled = false) :
    ∃ n r, run m link e (start p target t₀) n = .done r := by
  obtain ⟨n, hn⟩ := hp.unbounded (t₀ + p.timeout)
  cases hx : run m link e (start p target t₀) n with
  | done r => exact ⟨n, r, hx⟩
  | pending y =>
    have hin := run_tracks himm hp ha n fun k _ => hc k
    rw [hx] at hin
    refine ⟨n + 1, y.finish (e.moment n).now .timeout none, ?_⟩
    rw [run, hx]
    simp only [poll]
    rw [if_neg (by simp [hc n]), if_pos (by rw [hin.tracks.deadline_eq]; exact hn)]

/-- A wait does not end before its first signal or its deadline comes. -/
theorem Timely.lt_now {now d : Nat} {r : WaitResult} (h : Timely p target t₀ b c now r)
    (htimeout : d < p.timeout)
    (hsignal : ∀ k : ℕ, min (firstIndex (target.Rises b)) (firstIndex (target.Ready c)) = k →
      d < p.lookAt k) : t₀ + d < now := by
  obtain ⟨hle, hs⟩ := h
  by_cases hk : ∃ k : ℕ,
      min (firstIndex (target.Rises b)) (firstIndex (target.Ready c)) = k ∧ p.lookAt k < p.timeout
  · obtain ⟨k, hk, hlt⟩ := hk
    have := (hs.confirmed k hk hlt).2.1
    have := hsignal k hk
    omega
  · have := (hs.timeout fun k hk' => Nat.le_of_not_lt fun hlt => hk ⟨k, hk', hlt⟩).2.1
    omega

/-- A run that is cancelled before its first signal and its deadline ends there. -/
theorem exists_aborted (himm : link.Immediate) (hp : e.Prompt m link (start p target t₀))
    (ha : e.Answers m link (start p target t₀) b c) {d : Nat} (hd : e.CancelledAt (t₀ + d))
    (hlook : ∀ q, d ≠ p.lookAt q) (htimeout : d < p.timeout)
    (hsignal : ∀ k : ℕ, min (firstIndex (target.Rises b)) (firstIndex (target.Ready c)) = k →
      d < p.lookAt k) :
    ∃ n r, run m link e (start p target t₀) n = .done r ∧ r.status = .aborted ∧
      r.elapsed = d ∧ r.attempts = min {q | p.lookAt q < d}.ncard maxCount := by
  obtain ⟨n, hnow, hcancelled, hbefore⟩ := hd.first hp.mono
  have hin := run_tracks himm hp ha n hbefore
  cases hx : run m link e (start p target t₀) n with
  | done r =>
    rw [hx] at hin
    exact absurd (Timely.lt_now hin htimeout hsignal) (by omega)
  | pending y =>
    rw [hx] at hin
    have ht := hin.tracks
    have hnext := hin.le_next
    refine ⟨n + 1, y.finish (t₀ + d) .aborted none, ?_, rfl, ?_, ?_⟩
    · rw [run, hx]
      simp only [poll]
      rw [if_pos hcancelled, hnow]
    · show t₀ + d - y.started = d
      rw [ht.started_eq]
      omega
    · -- The readings are those before the cancelling, since no look falls on it.
      have hlooks : ∀ q < (readings m link e (start p target t₀) n).length, p.lookAt q < d := by
        intro q hq
        have := hin.past q hq
        have := hlook q
        omega
      rw [p.ncard_looks hlooks (by omega)]
      exact ht.attempts_eq

/-! ## Looks in every millisecond -/

theorem Tracks.wake_eq {q s wake : Nat} (h : x.Tracks p target t₀ b c q s)
    (hwake : wake ∈ x.wakes) : wake = t₀ + p.timeout ∨ wake = t₀ + p.lookAt q := by
  have hbalance : x.balance.wake? = some wake → wake = t₀ + p.lookAt q := by
    rcases h.balance_due with hdue | ⟨hdue, -⟩
    · simp only [hdue, Poller.wake?, Option.some.injEq]
      exact Eq.symm
    · simp [hdue, Poller.wake?]
  have hmessage : x.message.wake? = some wake → wake = t₀ + p.lookAt q := by
    rcases h.message_due with ⟨-, -, -, hdue | ⟨hdue, -⟩⟩ | ⟨-, hoff⟩
    · simp only [hdue, Poller.wake?, Option.some.injEq]
      exact Eq.symm
    · simp [hdue, Poller.wake?]
    · simp [hoff, Poller.wake?]
  rw [wakes, h.deadline_eq, List.mem_cons, List.mem_append] at hwake
  rcases hwake with hwake | hwake | hwake
  · exact .inl hwake
  · exact .inr (hbalance (Option.mem_toList.mp hwake))
  · exact .inr (hmessage (Option.mem_toList.mp hwake))

theorem InTime.le_wake (h : x.InTime p target t₀ b c rs cs now) {wake : Nat}
    (hwake : wake ∈ x.wakes) : now ≤ wake := by
  rcases h.tracks.wake_eq hwake with rfl | rfl
  · exact h.le_deadline
  · exact h.le_next

/-- A look leaves nothing to be done before the next millisecond. -/
theorem InTime.lt_wake (himm : link.Immediate) (ha : e.Answers m link x b c) {n : Nat} {z : Wait}
    (hx : run m link e x n = .pending y) (hz : run m link e x (n + 1) = .pending z)
    (h : y.InTime p target t₀ b c (readings m link e x n) (checks m link e x n) (e.moment n).now) :
    (e.moment n).cancelled = false ∧ ∀ wake ∈ z.wakes, (e.moment n).now < wake := by
  obtain ⟨a, a', hlook, hreadings, hchecks⟩ := run_succ_look hx
  obtain ⟨hread, hcheck⟩ := ha.next hreadings hchecks
  rw [hz] at hlook
  obtain ⟨hc, hd⟩ : (e.moment n).cancelled = false ∧ (e.moment n).now < y.deadline := by
    cases hlook with
    | pending hc hd => exact ⟨hc, hd⟩
  refine ⟨hc, ?_⟩
  intro wake hwake
  have hdeadline := h.tracks.deadline_eq
  rcases Nat.lt_or_eq_of_le h.le_next with hlt | heq
  · obtain ⟨-, -, z', hz', hy, -⟩ := h.tracks.look_early himm hlook hc hd h.started_le hlt
    cases hz'
    rcases hy.wake_eq hwake with rfl | rfl <;> omega
  · obtain ⟨-, ⟨r, hr, -⟩ | ⟨z', hz', hy, -⟩⟩ :=
      h.tracks.look_due himm hlook hc hd heq hread hcheck
    · cases hr
    · cases hz'
      have := p.lookAt_strictMono (Nat.lt_add_one (readings m link e x n).length)
      rcases hy.wake_eq hwake with rfl | rfl <;> omega

/-- Looks in every millisecond miss nothing. -/
theorem prompt_of_every (himm : link.Immediate) (hnow : ∀ n, (e.moment n).now = t₀ + n) :
    e.Prompt m link (start p target t₀) := by
  obtain ⟨b, c, ha⟩ := e.exists_answers (m := m) (start p target t₀)
  have hmono : ∀ n, (e.moment n).now + 1 = (e.moment (n + 1)).now := by
    intro n
    rw [hnow, hnow, Nat.add_assoc]
  have hin : ∀ n y, run m link e (start p target t₀) n = .pending y →
      y.InTime p target t₀ b c (readings m link e (start p target t₀) n)
        (checks m link e (start p target t₀) n) (e.moment n).now := by
    intro n
    induction n with
    | zero =>
      rintro y ⟨⟩
      rw [hnow]
      exact inTime_start
    | succ n ih =>
      intro z hz
      cases hx : run m link e (start p target t₀) n with
      | done r =>
        rw [(run_succ_done hx).1] at hz
        cases hz
      | pending y =>
        obtain ⟨hc, hlt⟩ := (ih y hx).lt_wake himm ha hx hz
        have hwake : ∀ z', run m link e (start p target t₀) (n + 1) = .pending z' →
            ∀ wake ∈ z'.wakes, (e.moment (n + 1)).now ≤ wake := by
          intro z' hz'
          cases hz.symm.trans hz'
          rw [← hmono]
          exact hlt
        have hmeets := (ih y hx).run_succ himm ha hx hc (hmono n ▸ Nat.le_succ _) hwake
        rw [hz] at hmeets
        exact hmeets
  refine ⟨hnow 0, ?_, ?_, ?_⟩
  · intro n
    rw [← hmono]
    exact Nat.le_succ _
  · intro n y hy wake hwake
    exact (hin n y hy).le_wake hwake
  · intro T
    refine ⟨T, ?_⟩
    rw [hnow]
    exact Nat.le_add_left _ _

/-- A node that answers at once, with the balance that is there; no message is ever ready. -/
def quickNode : NodeLink Amount where
  publicBalance _ _ w := (some (.ok w), w)
  storageAt _ _ w := (some (.ok 0), w)
  messageReady _ w := (some (.ok false), w)

theorem immediate_quickNode : quickNode.Immediate :=
  ⟨fun _ _ _ => rfl, fun _ _ _ => rfl, fun _ _ => rfl⟩

/-- Looks in every millisecond, at a balance that rises after the first. -/
def quickWatch (stops : Nat → Bool) : Watch Amount where
  moment n := ⟨n, 0, stops n, 0⟩
  outside n := if n = 0 then 5 else 9
  view _ := ⟨.initial 0, .initial⟩

/-- The monitor of a reserve on such a node. -/
def quickMonitor : Monitor := ⟨⟨1⟩, ⟨2⟩, 3, true⟩

/-- Looks after 0, 2 and 6 milliseconds. -/
def quickPolicy : WaitPolicy := ⟨2, 4, 10⟩

/-- A deposit with a message. -/
def quickTarget : WaitTarget := ⟨5, some 7⟩

theorem quickTarget_first {b : Nat → Except ReadError Reading} {c : Nat → Except RollupError Bool}
    (hb : b 0 = .ok ⟨5, .primary⟩) (hc : c 0 = .ok false) :
    ((1 : ℕ) : ℕ∞) ≤ min (firstIndex (quickTarget.Rises b)) (firstIndex (quickTarget.Ready c)) := by
  apply le_min <;> apply le_firstIndex <;> intro q hq
  · obtain rfl : q = 0 := by omega
    rintro ⟨a, ha, hlt⟩
    cases hb.symm.trans ha
    exact absurd hlt (by decide)
  · obtain rfl : q = 0 := by omega
    rintro ⟨-, hready, -⟩
    cases hc.symm.trans hready

/-! ## The outcome -/

/-- The outcome of a wait whose questions are answered at once. Without a cancelling the first
signal decides, or else the deadline; a cancelling that comes before both, and not with a look, ends
the wait at its own time. -/
theorem run_on_schedule (himm : link.Immediate) (hp : e.Prompt m link (start p target t₀))
    (ha : e.Answers m link (start p target t₀) b c) :
    ((∀ n, (e.moment n).cancelled = false) →
      ∃ n r, run m link e (start p target t₀) n = .done r ∧
        r.OnSchedule p (firstIndex (target.Rises b)) (firstIndex (target.Ready c))) ∧
    ∀ d, e.CancelledAt (t₀ + d) → (∀ q, d ≠ p.lookAt q) → d < p.timeout →
      (∀ k : ℕ, min (firstIndex (target.Rises b)) (firstIndex (target.Ready c)) = k →
        d < p.lookAt k) →
      ∃ n r, run m link e (start p target t₀) n = .done r ∧ r.status = .aborted ∧
        r.elapsed = d ∧ r.attempts = min {q | p.lookAt q < d}.ncard maxCount := by
  constructor
  · intro hc
    obtain ⟨n, r, hr⟩ := exists_done himm hp ha hc
    have hin := run_tracks himm hp ha n fun k _ => hc k
    rw [hr] at hin
    exact ⟨n, r, hr, hin.2⟩
  · intro d hd hlook htimeout hsignal
    exact exists_aborted himm hp ha hd hlook htimeout hsignal

/-- A rise at the second look confirms the deposit, and a cancelling before it ends the wait. -/
theorem run_on_schedule_quick :
    (∃ n r, run quickMonitor quickNode (quickWatch fun _ => false)
      (start quickPolicy quickTarget 0) n = .done r ∧ r.status = .confirmed ∧ r.elapsed = 2 ∧
        r.attempts = 2 ∧ r.confirmedBy = some .balanceDelta) ∧
    ∃ n r, run quickMonitor quickNode (quickWatch fun n => decide (1 ≤ n))
      (start quickPolicy quickTarget 0) n = .done r ∧ r.status = .aborted ∧ r.elapsed = 1 := by
  have hprompt : ∀ stops, (quickWatch stops).Prompt quickMonitor quickNode
      (start quickPolicy quickTarget 0) := fun stops =>
    prompt_of_every immediate_quickNode fun n => (Nat.zero_add n).symm
  constructor
  · obtain ⟨b, c, ha⟩ : ∃ b c, (quickWatch fun _ => false).Answers quickMonitor quickNode
      (start quickPolicy quickTarget 0) b c := Watch.exists_answers _ _
    obtain ⟨n, r, hr, hs⟩ :=
      (run_on_schedule immediate_quickNode (hprompt _) ha).1 fun _ => rfl
    have hfirst := quickTarget_first (ha.reading 1 0 _ rfl) (ha.check 1 0 _ rfl)
    have hrises : firstIndex (quickTarget.Rises b) ≤ (1 : ℕ) :=
      firstIndex_le ⟨_, ha.reading 3 1 _ rfl, by decide⟩
    have hi := le_antisymm hrises (hfirst.trans (min_le_left ..))
    have hj := hfirst.trans (min_le_right ..)
    obtain ⟨hstatus, helapsed, hattempts, hsignal, -⟩ :=
      hs.confirmed 1 (by rw [hi]; exact min_eq_left hj) (by decide)
    exact ⟨n, r, hr, hstatus, helapsed, hattempts, hsignal (hi ▸ hj)⟩
  · obtain ⟨b, c, ha⟩ : ∃ b c, (quickWatch fun n => decide (1 ≤ n)).Answers quickMonitor quickNode
      (start quickPolicy quickTarget 0) b c := Watch.exists_answers _ _
    have hfirst := quickTarget_first (ha.reading 1 0 _ rfl) (ha.check 1 0 _ rfl)
    have hlook : ∀ q, 1 ≤ q → 2 ≤ quickPolicy.lookAt q := fun q hq => quickPolicy.lookAt_le hq
    have hcancelled : (quickWatch fun n => decide (1 ≤ n)).CancelledAt (0 + 1) :=
      ⟨fun n hn => of_decide_eq_true hn, 1, rfl, rfl⟩
    obtain ⟨n, r, hr, hstatus, helapsed, -⟩ :=
      (run_on_schedule immediate_quickNode (hprompt _) ha).2 1 hcancelled
        (fun q hq => by
          rcases Nat.eq_zero_or_pos q with rfl | hpos
          · cases hq
          · have := hlook q hpos
            omega)
        (by decide) fun k hk => hlook k (Nat.cast_le.mp (hk ▸ hfirst))
    exact ⟨n, r, hr, hstatus, helapsed⟩

end Wait
end Paymaster.Reserve

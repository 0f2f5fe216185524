import Paymaster.Proofs.Reserve.WaitRun
/-!
# What the result of a wait says

The result of a wait is put together from what two pollers have seen. Its parts agree with each
other and with the readings of the run, whenever the answers came and wherever the run was cut
short: as long as a wait goes on it has seen no balance above the baseline and no ready message, and
the look that ends it adds at most one of the two.
-/

namespace Paymaster.Reserve

open Rollup (NodeLink)

theorem countOne_mono {a b : Nat} (h : a ≤ b) : countOne a ≤ countOne b := by
  unfold countOne
  omega

theorem countOne_min (n : Nat) : countOne (min n maxCount) = min (n + 1) maxCount := by
  unfold countOne
  omega

/-! ## Sightings -/

namespace Sightings

/-- The sightings are those of some readings. -/
structure Reflects (s : Sightings) (rs : List (Except ReadError Reading)) : Prop where
  attempts_eq : s.attempts = min rs.length maxCount
  errors_le : s.pollErrors ≤ s.attempts
  last_isSome : s.last.isSome ↔ ∃ r, .ok r ∈ rs
  le_max : ∀ r, .ok r ∈ rs → ∃ a, s.max = some a ∧ r.balance ≤ a

theorem reflects_nil : ({} : Sightings).Reflects [] :=
  ⟨rfl, Nat.le_refl _, by simp, by simp⟩

theorem Reflects.ofReading {s : Sightings} {rs : List (Except ReadError Reading)}
    (h : s.Reflects rs) (r : Except ReadError Reading) : (s.ofReading r).Reflects (rs ++ [r]) := by
  have hlen : countOne s.attempts = min (rs ++ [r]).length maxCount := by
    rw [h.attempts_eq, countOne_min, List.length_append, List.length_singleton]
  cases r with
  | error why =>
    refine ⟨hlen, countOne_mono h.errors_le, ?_, ?_⟩
    · rw [Sightings.ofReading, h.last_isSome]
      simp
    · intro r hr
      exact h.le_max r (by simpa using hr)
  | ok a =>
    refine ⟨hlen, ?_, ?_, ?_⟩
    · have h1 := h.errors_le
      have h2 := h.attempts_eq
      show s.pollErrors ≤ countOne s.attempts
      unfold countOne
      omega
    · simp only [Sightings.ofReading, Option.isSome_some, true_iff]
      exact ⟨a, by simp⟩
    · intro r hr
      refine ⟨_, rfl, ?_⟩
      rcases List.mem_append.mp hr with hr | hr
      · obtain ⟨b, hb, hle⟩ := h.le_max r hr
        simp only [hb]
        split
        · next hlt => exact BitVec.le_trans hle (BitVec.le_of_lt hlt)
        · exact hle
      · have : r = a := by simpa using hr
        subst this
        cases hm : s.max with
        | none => exact BitVec.le_refl _
        | some b =>
          simp only
          split
          · exact BitVec.le_refl _
          · next hlt => exact BitVec.not_lt.mp hlt

end Sightings

/-! ## Waits that go on -/

namespace Wait

/-- A wait that goes on: it has seen no sign that the deposit has arrived. -/
structure Quiet (target : WaitTarget) (x : Wait) (rs : List (Except ReadError Reading)) : Prop where
  target_eq : x.target = target
  reflects : x.seen.Reflects rs
  max_le : ∀ a, x.seen.max = some a → a ≤ target.baseline
  last_le : ∀ a, x.seen.last = some a → a ≤ target.baseline
  not_ready : x.seen.messageReady = false
  checked_of_failed : x.seen.messageFailed = true → x.seen.messageChecked = true
  off_of_failed : x.seen.messageFailed = true → x.message = .off

variable {ω : Type} {m : Monitor} {link : NodeLink ω} {t : Moment} {x y z : Wait} {w : ω}
  {target : WaitTarget} {rs : List (Except ReadError Reading)}

theorem quiet_start (p : WaitPolicy) (target : WaitTarget) (now : Nat) :
    (start p target now).Quiet target [] :=
  ⟨rfl, Sightings.reflects_nil, by simp [start], by simp [start], rfl, by simp [start],
    by simp [start]⟩

theorem Quiet.afterReading (h : x.Quiet target rs) {r : Except ReadError Reading}
    (hr : x.rose r = false) (now interval : Nat) :
    (x.afterReading now interval r).Quiet target (rs ++ [r]) := by
  have hseen := h.reflects.ofReading r
  cases r with
  | error why => exact ⟨h.target_eq, hseen, h.max_le, h.last_le, h.not_ready,
      h.checked_of_failed, h.off_of_failed⟩
  | ok a =>
    have hle : a.balance ≤ target.baseline := by
      rw [← h.target_eq]
      exact BitVec.not_lt.mp (by simpa [rose] using hr)
    refine ⟨h.target_eq, hseen, ?_, ?_, h.not_ready, h.checked_of_failed, h.off_of_failed⟩
    · intro b hb
      simp only [Wait.afterReading, Sightings.ofReading, Option.some.injEq] at hb
      subst hb
      cases hm : x.seen.max with
      | none => exact hle
      | some c =>
        simp only
        split
        · exact hle
        · exact h.max_le c hm
    · intro b hb
      simp only [Wait.afterReading, Sightings.ofReading, Option.some.injEq] at hb
      exact hb ▸ hle

theorem BalanceLook.quiet {a : Option (Except ReadError Reading)} (h : x.Quiet target rs)
    (hb : BalanceLook m link t x w a y) (hr : ∀ r, a = some r → x.rose r = false) :
    y.Quiet target (rs ++ a.toList) := by
  cases hb with
  | answered hp hw => exact h.afterReading (hr _ rfl) _ _
  | idle | unanswered =>
    rw [Option.toList_none, List.append_nil]
    exact ⟨h.target_eq, h.reflects, h.max_le, h.last_le, h.not_ready, h.checked_of_failed,
      h.off_of_failed⟩

theorem MessageLook.quiet {b : Option (Except RollupError Bool)} (h : x.Quiet target rs)
    (hm : MessageLook link t x w b y) (hb : b ≠ some (.ok true)) : y.Quiet target rs := by
  cases hm with
  | answered hm hp hw =>
    rename_i r
    have hawake : x.seen.messageFailed = true → False := by
      intro hf
      rw [h.off_of_failed hf] at hp
      cases hp
    cases r with
    | error why =>
      exact ⟨h.target_eq, ⟨h.reflects.1, h.reflects.2, h.reflects.3, h.reflects.4⟩, h.max_le,
        h.last_le, h.not_ready, fun _ => rfl, fun _ => rfl⟩
    | ok ready =>
      cases ready with
      | true => exact absurd rfl hb
      | false =>
        exact ⟨h.target_eq, ⟨h.reflects.1, h.reflects.2, h.reflects.3, h.reflects.4⟩, h.max_le,
          h.last_le, rfl, fun _ => rfl, fun hf => (hawake hf).elim⟩
  | unanswered hm hp hw =>
    refine ⟨h.target_eq, h.reflects, h.max_le, h.last_le, h.not_ready, h.checked_of_failed,
      fun hf => ?_⟩
    rw [h.off_of_failed hf] at hp
    cases hp
  | idle hm hp hidle =>
    refine ⟨h.target_eq, h.reflects, h.max_le, h.last_le, h.not_ready, h.checked_of_failed,
      fun hf => ?_⟩
    rw [h.off_of_failed hf] at hp
    exact hp.symm
  | unknown hm =>
    refine ⟨h.target_eq, h.reflects, h.max_le, h.last_le, h.not_ready, h.checked_of_failed,
      fun hf => ?_⟩
    show x.message.rouse () t.now = .off
    rw [h.off_of_failed hf]
    rfl

end Wait

/-! ## Results -/

/-- A result agrees with itself and with the readings of its wait. -/
structure WaitResult.Coherent (baseline : Amount) (rs : List (Except ReadError Reading))
    (r : WaitResult) : Prop where
  baseline_eq : r.baseline = baseline
  baseline_le_max : r.baseline ≤ r.max
  le_max : ∀ a, .ok a ∈ rs → a.balance ≤ r.max
  delta_eq : r.delta.toNat = r.max.toNat - r.baseline.toNat
  last_isSome : r.last.isSome ↔ ∃ a, .ok a ∈ rs
  attempts_eq : r.attempts = min rs.length maxCount
  errors_le : r.pollErrors ≤ r.attempts
  signal_isSome : r.confirmedBy.isSome ↔ r.status = .confirmed
  balance_iff : r.confirmedBy = some .balanceDelta ↔ 0 < r.delta
  delta_pos_iff : 0 < r.delta ↔ ∃ a, r.last = some a ∧ r.baseline < a
  message_iff : r.confirmedBy = some .messageReady ↔ r.messageReady = true
  not_failed : r.messageReady = true → r.messageFailed = false
  not_risen : r.messageReady = true → r.delta = 0
  checked : r.messageReady = true ∨ r.messageFailed = true → r.messageChecked = true
  unconfirmed : r.status ≠ .confirmed → r.delta = 0 ∧ r.messageReady = false

theorem WaitResult.toNat_delta (r : WaitResult) :
    r.delta.toNat = r.max.toNat - r.baseline.toNat := by
  have := r.max.isLt
  rw [WaitResult.delta, BitVec.toNat_ofNat]
  exact Nat.mod_eq_of_lt (by omega)

theorem WaitResult.delta_eq_zero {r : WaitResult} (h : r.max = r.baseline) : r.delta = 0 := by
  apply BitVec.eq_of_toNat_eq
  rw [r.toNat_delta, h]
  simp

namespace Wait

variable {ω : Type} {m : Monitor} {link : NodeLink ω} {t : Moment} {x y z : Wait} {w : ω}
  {target : WaitTarget} {rs : List (Except ReadError Reading)}

theorem Quiet.finish_max (h : x.Quiet target rs) (now : Nat) (status : WaitStatus)
    (signal : Option Signal) : (x.finish now status signal).max = target.baseline := by
  unfold finish
  rw [h.target_eq]
  cases hm : x.seen.max with
  | none => rfl
  | some a => exact if_neg (BitVec.not_lt.mpr (h.max_le a hm))

/-- A wait without a signal that ends now, with the signals left open. -/
theorem Quiet.finish_coherent (h : x.Quiet target rs) {now : Nat} {status : WaitStatus}
    (hs : status ≠ .confirmed) : (x.finish now status none).Coherent target.baseline rs := by
  have hmax := h.finish_max now status none
  have hbase : (x.finish now status none).baseline = target.baseline := by
    rw [← h.target_eq]
    rfl
  have hdelta : (x.finish now status none).delta = 0 :=
    WaitResult.delta_eq_zero (hmax.trans hbase.symm)
  refine
    { baseline_eq := hbase
      baseline_le_max := by rw [hmax, hbase]; exact BitVec.le_refl _
      le_max := fun a ha => ?_
      delta_eq := WaitResult.toNat_delta _
      last_isSome := h.reflects.last_isSome
      attempts_eq := h.reflects.attempts_eq
      errors_le := h.reflects.errors_le
      signal_isSome := by simp [finish, hs]
      balance_iff := by
        rw [hdelta]
        exact ⟨nofun, fun hlt => absurd hlt (BitVec.lt_irrefl _)⟩
      delta_pos_iff := ?_
      message_iff := by simp [finish, h.not_ready]
      not_failed := fun hr => ?_
      not_risen := fun _ => hdelta
      checked := fun hr => ?_
      unconfirmed := fun _ => ⟨hdelta, h.not_ready⟩ }
  · obtain ⟨b, hb, hle⟩ := h.reflects.le_max a ha
    rw [hmax]
    exact BitVec.le_trans hle (h.max_le b hb)
  · rw [hdelta, hbase]
    constructor
    · intro hlt
      exact absurd hlt (BitVec.lt_irrefl _)
    · rintro ⟨a, ha, hlt⟩
      exact absurd hlt (BitVec.not_lt.mpr (h.last_le a ha))
  · exact absurd (h.not_ready.symm.trans hr) (by simp)
  · rcases hr with hr | hr
    · exact absurd (h.not_ready.symm.trans hr) (by simp)
    · exact h.checked_of_failed hr

/-- A wait that ends with a reading above the baseline. -/
theorem Quiet.rose_coherent (h : x.Quiet target rs) {r : Except ReadError Reading}
    (hr : x.rose r = true) (now interval : Nat) :
    ((x.afterReading now interval r).finish now .confirmed (some .balanceDelta)).Coherent
      target.baseline (rs ++ [r]) := by
  cases r with
  | error why => cases hr
  | ok a =>
    have hlt : target.baseline < a.balance := by
      rw [← h.target_eq]
      simpa [rose] using hr
    have hseen := h.reflects.ofReading (.ok a)
    have hnew : (x.afterReading now interval (.ok a)).seen.max = some a.balance := by
      simp only [Wait.afterReading, Sightings.ofReading]
      cases hm : x.seen.max with
      | none => rfl
      | some b => exact congrArg some (if_pos (BitVec.lt_def.mpr
        (Nat.lt_of_le_of_lt (BitVec.le_def.mp (h.max_le b hm)) (BitVec.lt_def.mp hlt))))
    generalize hres : (x.afterReading now interval (.ok a)).finish now .confirmed
      (some .balanceDelta) = res
    have hbase : res.baseline = target.baseline := by
      rw [← hres, ← h.target_eq]
      rfl
    have hmax : res.max = a.balance := by
      rw [← hres, finish, hnew]
      exact if_pos (by rwa [← h.target_eq] at hlt)
    have hlast : res.last = some a.balance := by
      rw [← hres]
      rfl
    have hready : res.messageReady = false := by
      rw [← hres]
      exact h.not_ready
    have hpos : 0 < res.delta := by
      rw [BitVec.lt_def, res.toNat_delta, hmax, hbase]
      have := BitVec.lt_def.mp hlt
      show 0 < a.balance.toNat - target.baseline.toNat
      omega
    have hstatus : res.status = .confirmed ∧ res.confirmedBy = some .balanceDelta := by
      rw [← hres]
      exact ⟨rfl, rfl⟩
    refine
      { baseline_eq := hbase
        baseline_le_max := by rw [hmax, hbase]; exact BitVec.le_of_lt hlt
        le_max := fun b hb => ?_
        delta_eq := WaitResult.toNat_delta _
        last_isSome := by rw [← hres]; exact hseen.last_isSome
        attempts_eq := by rw [← hres]; exact hseen.attempts_eq
        errors_le := by rw [← hres]; exact hseen.errors_le
        signal_isSome := by simp [hstatus]
        balance_iff := ⟨fun _ => hpos, fun _ => hstatus.2⟩
        delta_pos_iff := ⟨fun _ => ⟨_, hlast, hbase ▸ hlt⟩, fun _ => hpos⟩
        message_iff := by simp [hstatus, hready]
        not_failed := fun hr => by simp [hready] at hr
        not_risen := fun hr => by simp [hready] at hr
        checked := fun hr => ?_
        unconfirmed := fun hs => absurd hstatus.1 hs }
    · obtain ⟨c, hc, hle⟩ := hseen.le_max b hb
      have : c = a.balance := by
        have hc' := hnew.symm.trans hc
        simpa using hc'.symm
      rw [hmax]
      exact this ▸ hle
    · rcases hr with hr | hr
      · exact absurd (hready.symm.trans hr) (by simp)
      · rw [← hres] at hr ⊢
        exact h.checked_of_failed hr

/-- A wait that ends with a message that is ready. -/
theorem Quiet.ready_coherent (h : x.Quiet target rs)
    (hm : MessageLook link t x w (some (.ok true)) y) :
    (y.finish t.now .confirmed (some .messageReady)).Coherent target.baseline rs := by
  cases hm with
  | answered hm hp hw =>
    rename_i message i
    have hfailed : x.seen.messageFailed = false := by
      cases hf : x.seen.messageFailed with
      | false => rfl
      | true =>
        rw [h.off_of_failed hf] at hp
        cases hp
    have hcalm : (x.finish t.now .timeout none).Coherent target.baseline rs :=
      h.finish_coherent (by simp)
    have hdelta := (hcalm.unconfirmed (by simp [finish])).1
    -- Only the status, the signal and what is known about the message differ from a wait that times out.
    exact
      { baseline_eq := hcalm.baseline_eq
        baseline_le_max := hcalm.baseline_le_max
        le_max := hcalm.le_max
        delta_eq := WaitResult.toNat_delta _
        last_isSome := hcalm.last_isSome
        attempts_eq := hcalm.attempts_eq
        errors_le := hcalm.errors_le
        signal_isSome := by simp [finish]
        balance_iff := ⟨nofun, fun hlt => absurd (hdelta ▸ hlt) (BitVec.lt_irrefl 0)⟩
        delta_pos_iff := hcalm.delta_pos_iff
        message_iff := by simp [finish, afterCheck, Sightings.ofCheck]
        not_failed := fun _ => hfailed
        not_risen := fun _ => hdelta
        checked := fun _ => rfl
        unconfirmed := fun hs => absurd rfl hs }

variable {e : Watch ω} {n : Nat}

/-- A run that goes on stays quiet, and one that has ended has a coherent result. -/
theorem run_quiet (h : x.Quiet target []) (n : Nat) :
    (run m link e x n).Meets (fun y => y.Quiet target (readings m link e x n))
      fun r => r.Coherent target.baseline (readings m link e x n) := by
  induction n with
  | zero => exact h
  | succ n ih =>
    cases hx : run m link e x n with
    | done r =>
      obtain ⟨hrun, hreadings, -⟩ := run_succ_done hx
      rw [hrun, hreadings]
      rw [hx] at ih
      exact ih
    | pending y =>
      rw [hx] at ih
      have hq : y.Quiet target (readings m link e x n) := ih
      obtain ⟨a, b, hlook, hreadings, -⟩ := run_succ_look hx
      rw [hreadings]
      generalize run m link e x (n + 1) = p at hlook
      cases hlook with
      | aborted hc =>
        rw [Option.toList_none, List.append_nil]
        exact hq.finish_coherent (by simp)
      | timeout hc hd =>
        rw [Option.toList_none, List.append_nil]
        exact hq.finish_coherent (by simp)
      | rose hc hd hb hr =>
        cases hb with
        | answered hp hw => exact hq.rose_coherent hr _ _
      | ready hc hd hb hr hm => exact (hb.quiet hq hr).ready_coherent hm
      | pending hc hd hb hr hm hn => exact hm.quiet (hb.quiet hq hr) hn

/-- The largest balance that a wait has seen is one of its readings. -/
def SawMax (x : Wait) (rs : List (Except ReadError Reading)) : Prop :=
  ∀ a, x.seen.max = some a → ∃ r, .ok r ∈ rs ∧ r.balance = a

theorem SawMax.afterReading (h : x.SawMax rs) (now interval : Nat)
    (r : Except ReadError Reading) : (x.afterReading now interval r).SawMax (rs ++ [r]) := by
  have hold : ∀ a, x.seen.max = some a → ∃ b, .ok b ∈ rs ++ [r] ∧ b.balance = a := by
    intro a ha
    obtain ⟨b, hb, hba⟩ := h a ha
    exact ⟨b, List.mem_append_left _ hb, hba⟩
  cases r with
  | error why => exact hold
  | ok b =>
    have hnew : ∃ c, .ok c ∈ rs ++ [.ok b] ∧ c.balance = b.balance := ⟨b, by simp, rfl⟩
    intro a ha
    simp only [Wait.afterReading, Sightings.ofReading, Option.some.injEq] at ha
    subst ha
    cases hm : x.seen.max with
    | none => exact hnew
    | some c =>
      simp only
      split
      · exact hnew
      · exact hold c hm

theorem BalanceLook.sawMax {a : Option (Except ReadError Reading)}
    (hb : BalanceLook m link t x w a y) (h : x.SawMax rs) : y.SawMax (rs ++ a.toList) := by
  cases hb with
  | answered hp hw => exact h.afterReading _ _ _
  | idle | unanswered =>
    rw [Option.toList_none, List.append_nil]
    exact h

theorem MessageLook.sawMax {b : Option (Except RollupError Bool)}
    (hm : MessageLook link t x w b y) (h : x.SawMax rs) : y.SawMax rs := by
  cases hm with
  | unknown | idle | unanswered => exact h
  | answered hm hp hw =>
    rename_i r
    cases r with
    | error why => exact h
    | ok ready => exact h

theorem SawMax.finish (h : x.SawMax rs) (now : Nat) (status : WaitStatus)
    (signal : Option Signal) :
    (x.finish now status signal).max = (x.finish now status signal).baseline ∨
      ∃ r, .ok r ∈ rs ∧ r.balance = (x.finish now status signal).max := by
  cases hm : x.seen.max with
  | none => exact .inl (by simp [Wait.finish, hm])
  | some a =>
    by_cases hlt : x.target.baseline < a
    · exact .inr (by simpa [Wait.finish, hm, hlt] using h a hm)
    · exact .inl (by simp [Wait.finish, hm, hlt])

theorem run_sawMax (h : x.SawMax []) (n : Nat) :
    (run m link e x n).Meets (fun y => y.SawMax (readings m link e x n)) fun r =>
      r.max = r.baseline ∨ ∃ a, .ok a ∈ readings m link e x n ∧ a.balance = r.max := by
  induction n with
  | zero => exact h
  | succ n ih =>
    cases hx : run m link e x n with
    | done r =>
      obtain ⟨hrun, hreadings, -⟩ := run_succ_done hx
      rw [hrun, hreadings]
      rw [hx] at ih
      exact ih
    | pending y =>
      rw [hx] at ih
      have hy : y.SawMax (readings m link e x n) := ih
      obtain ⟨a, b, hlook, hreadings, -⟩ := run_succ_look hx
      rw [hreadings]
      generalize run m link e x (n + 1) = p at hlook
      cases hlook with
      | aborted | timeout =>
        rw [Option.toList_none, List.append_nil]
        exact hy.finish _ _ _
      | rose hc hd hb hr => exact (hb.sawMax hy).finish _ _ _
      | ready hc hd hb hr hm => exact (hm.sawMax (hb.sawMax hy)).finish _ _ _
      | pending hc hd hb hr hm hn => exact hm.sawMax (hb.sawMax hy)

/-- A node that does not answer before there is a balance; no message is ever ready. -/
def slowNode : NodeLink (Option Amount) where
  publicBalance _ _ w := (w.map .ok, w)
  storageAt _ _ w := (w.map fun _ => .ok 0, w)
  messageReady _ w := (w.map fun _ => .ok false, w)

/-- Looks in every millisecond; there is a balance after the third. -/
def slowWatch : Watch (Option Amount) where
  moment n := ⟨n, 0, false, 0⟩
  outside n := if n < 3 then none else some 9
  view _ := ⟨.initial 0, .initial⟩

/-- However the answers come, and wherever the deadline or the cancelling cuts in: the result of a
wait never contradicts itself. -/
theorem run_coherent {p : WaitPolicy} {now : Nat} {r : WaitResult}
    (h : run m link e (start p target now) n = .done r) :
    r.Coherent target.baseline (readings m link e (start p target now) n) := by
  have hmeets := @run_quiet _ m link _ _ e (quiet_start p target now) n
  rw [h] at hmeets
  exact hmeets

/-- A wait whose first question is answered late. -/
theorem run_coherent_slow : ∃ r, run ⟨⟨1⟩, ⟨2⟩, 3, true⟩ slowNode slowWatch
    (start ⟨2, 4, 10⟩ ⟨5, some 7⟩ 0) 4 = .done r ∧ r.confirmedBy = some .balanceDelta ∧
      r.Coherent 5 (readings ⟨⟨1⟩, ⟨2⟩, 3, true⟩ slowNode slowWatch
        (start ⟨2, 4, 10⟩ ⟨5, some 7⟩ 0) 4) := by
  obtain ⟨r, hr, hsignal⟩ : ∃ r, run ⟨⟨1⟩, ⟨2⟩, 3, true⟩ slowNode slowWatch
    (start ⟨2, 4, 10⟩ ⟨5, some 7⟩ 0) 4 = .done r ∧ r.confirmedBy = some .balanceDelta :=
    ⟨_, rfl, rfl⟩
  exact ⟨r, hr, hsignal, run_coherent hr⟩

end Wait
end Paymaster.Reserve

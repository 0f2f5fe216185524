import Mathlib.Data.Finset.Card
import Mathlib.Data.Finset.Dedup
import Paymaster.Proofs.RateLimit.Counting
/-!
# Agreement with the ideal limiter

An ideal limiter counts the calls of every key in every window and forgets nothing. The table has
room for some keys only. As long as no window sees more keys than that, the buckets of the current
window are never thrown out, so each call is judged by the number of calls that its key has made in
the window.

Callers may overlap. A caller reads the clock first and takes the lock of the table then, so another
one with a later reading may take the lock before it. A call that comes so late that the table is in
a later window already opens its own window again, and what was counted in the later one is lost. So
the agreement needs that no call comes behind one of a later window.
-/

namespace Paymaster.RateLimit

variable {p : Policy} {before calls : List Call} {c : Call} {t : Table} {k : String} {w m now : Nat}

/-! ## The ideal count -/

/-- The calls of a key in a window. -/
def tally (p : Policy) (calls : List Call) (k : String) (m : Nat) : Nat :=
  calls.countP fun c => c.name = k ∧ c.window p = m

/-- The keys that are used in a window. -/
def callers (p : Policy) (calls : List Call) (m : Nat) : Finset String :=
  ((calls.filter fun c => c.window p = m).map Call.name).toFinset

/-- The place of a call, counted from one, among the calls of its key in its window. -/
def place (p : Policy) (before : List Call) (c : Call) : Nat :=
  tally p before c.name (c.window p) + 1

theorem Call.window_mono (p : Policy) {b c : Call} (h : b.millis ≤ c.millis) :
    b.window p ≤ c.window p :=
  Nat.div_le_div_right (Nat.div_le_div_right (UInt64.le_iff_toNat_le.mp h))

theorem tally_snoc (p : Policy) (before : List Call) (c : Call) (k : String) (m : Nat) :
    tally p (before ++ [c]) k m =
      tally p before k m + if c.name = k ∧ c.window p = m then 1 else 0 := by
  rw [tally, List.countP_append, List.countP_singleton]
  simp only [decide_eq_true_eq]
  rfl

theorem tally_snoc_of_ne (h : k ≠ c.name) (m : Nat) :
    tally p (before ++ [c]) k m = tally p before k m := by
  rw [tally_snoc, if_neg fun hc => h hc.1.symm, Nat.add_zero]

theorem mem_callers_of_tally (h : 0 < tally p calls k m) : k ∈ callers p calls m := by
  rw [tally, List.countP_pos_iff] at h
  obtain ⟨c, hc, hmatch⟩ := h
  obtain ⟨hname, hwindow⟩ := of_decide_eq_true hmatch
  rw [callers, List.mem_toFinset, List.mem_map]
  exact ⟨c, List.mem_filter.mpr ⟨hc, by simpa using hwindow⟩, hname⟩

theorem card_callers_le (p : Policy) (calls : List Call) (m : Nat) :
    (callers p calls m).card ≤ calls.length := by
  rw [callers]
  refine (List.toFinset_card_le _).trans ?_
  rw [List.length_map]
  exact List.length_filter_le _ _

theorem callers_subset {later : List Call} (m : Nat) :
    callers p before m ⊆ callers p (before ++ later) m := by
  intro k hk
  rw [callers, List.mem_toFinset] at hk ⊢
  rw [List.filter_append, List.map_append]
  exact List.mem_append_left _ hk

theorem name_mem_callers (p : Policy) (before : List Call) (c : Call) :
    c.name ∈ callers p (before ++ [c]) (c.window p) := by
  apply mem_callers_of_tally
  rw [tally_snoc, if_pos ⟨rfl, rfl⟩]
  omega

/-! ## The table and the ideal count -/

/-- What the table keeps after some calls, none of which came after a window: each bucket holds the
tally of its key in some window, cut off at the limit, and the keys that were used in the last
window have buckets of that window. -/
structure Tallies (p : Policy) (before : List Call) (w : Nat) (t : Table) : Prop where
  distinct : t.Distinct
  past : ∀ k m, w < m → tally p before k m = 0
  bucket : ∀ k b, t.get? k = some b → ∃ m ≤ w, b.start = p.window * m ∧
    b.count = min p.limit (tally p before k m) ∧ 0 < tally p before k m
  live : ∀ k, 0 < tally p before k w → ∃ b, t.get? k = some b ∧ b.start = p.window * w

namespace Tallies

theorem empty (p : Policy) (w : Nat) : Tallies p [] w .empty where
  distinct := Table.distinct_empty
  past _ _ _ := rfl
  bucket k b hget := by cases hget
  live k hpos := by simp [tally] at hpos

/-- When a new window begins nobody has been counted in it. -/
theorem later (h : Tallies p before w t) {w' : Nat} (hle : w ≤ w') : Tallies p before w' t where
  distinct := h.distinct
  past k m hm := h.past k m (by omega)
  bucket k b hget := by
    obtain ⟨m, hm, hrest⟩ := h.bucket k b hget
    exact ⟨m, hm.trans hle, hrest⟩
  live k hpos := by
    rcases Nat.eq_or_lt_of_le hle with rfl | hlt
    · exact h.live k hpos
    · rw [h.past k w' hlt] at hpos
      exact absurd hpos (Nat.lt_irrefl 0)

/-- What is counted for a key in the last window is its tally, cut off at the limit. -/
theorem countAt (h : Tallies p before w t) (hnow : now / p.window = w) (k : String) :
    t.countAt p k now = min p.limit (tally p before k w) := by
  have hunused (hnone : ∀ b, t.get? k = some b → b.start ≠ p.window * w) :
      tally p before k w = 0 := by
    rcases Nat.eq_zero_or_pos (tally p before k w) with hzero | hpos
    · exact hzero
    · obtain ⟨b, hget, hstart⟩ := h.live k hpos
      exact absurd hstart (hnone b hget)
  rw [Table.countAt, windowStart_eq, hnow]
  cases hget : t.get? k with
  | none =>
    have hzero : tally p before k w = 0 := hunused (by simp [hget])
    rw [hzero, Nat.min_zero]
  | some b =>
    dsimp only
    split_ifs with hstart
    · obtain ⟨m, -, hm, hcount, -⟩ := h.bucket k b hget
      rw [hstart] at hm
      rw [hcount, Nat.eq_of_mul_eq_mul_left p.window_pos hm]
    · have hzero : tally p before k w = 0 := hunused (by simpa [hget] using hstart)
      rw [hzero, Nat.min_zero]

/-- A bucket that is not over in the last window was used in it. -/
theorem used_of_live (h : Tallies p before w t) (hnow : now / p.window = w) {b : Bucket}
    (hget : t.get? k = some b) (hlive : Table.isOver p.window now b = false) :
    0 < tally p before k w := by
  obtain ⟨m, hm, hstart, -, hpos⟩ := h.bucket k b hget
  have hlt : now < p.window * (m + 1) := by
    rw [Nat.mul_succ, ← hstart]
    simpa [Table.isOver] using hlive
  have hle : w ≤ m := by
    rw [← hnow]
    exact Nat.le_of_lt_succ (Nat.div_lt_of_lt_mul hlt)
  rwa [Nat.le_antisymm hle hm]

/-- When a new key comes, the buckets that are not over are fewer than the table can hold. -/
theorem few_live (h : Tallies p before w t) (hw : c.window p = w)
    (hfew : (callers p (before ++ [c]) w).card ≤ p.capacity) (hnew : t.get? c.name = none) :
    (t.buckets.filter fun x => !Table.isOver p.window c.second x.2).length < p.capacity := by
  set kept := t.buckets.filter fun x => !Table.isOver p.window c.second x.2 with hkept
  have hsub : kept.Sublist t.buckets := List.filter_sublist
  -- The keys of these buckets and the new key are different keys of one window.
  have hnodup : (c.name :: kept.map Prod.fst).Nodup := by
    rw [List.nodup_cons]
    refine ⟨fun hmem => ?_, (hsub.map Prod.fst).nodup h.distinct⟩
    exact Table.get?_eq_none_iff.mp hnew ((hsub.map Prod.fst).subset hmem)
  have hcallers : (c.name :: kept.map Prod.fst).toFinset ⊆ callers p (before ++ [c]) w := by
    intro k hk
    rcases List.mem_cons.mp (List.mem_toFinset.mp hk) with rfl | hk
    · exact hw ▸ name_mem_callers p before c
    · obtain ⟨⟨k, b⟩, hx, rfl⟩ := List.mem_map.mp hk
      obtain ⟨hx, hlive⟩ := List.mem_filter.mp hx
      have hused := h.used_of_live hw (Table.get?_of_mem h.distinct hx) (by simpa using hlive)
      exact callers_subset w (mem_callers_of_tally hused)
  have hcard := (Finset.card_le_card hcallers).trans hfew
  rw [List.toFinset_card_of_nodup hnodup, List.length_cons, List.length_map] at hcard
  omega

/-- A call in the last window is counted as the ideal limiter counts it. -/
theorem step (h : Tallies p before w t) (hw : c.window p = w)
    (hfew : (callers p (before ++ [c]) w).card ≤ p.capacity) :
    Tallies p (before ++ [c]) w (checkAt p t c.name c.second).2 := by
  obtain ⟨seq, hself⟩ := get?_checkAt_self p t c.name c.second
  have hstart : windowStart p.window c.second = p.window * w := by
    rw [windowStart_eq, ← hw]
    rfl
  have htally : tally p (before ++ [c]) c.name w = tally p before c.name w + 1 := by
    rw [tally_snoc, if_pos ⟨rfl, hw⟩]
  refine ⟨distinct_checkAt h.distinct, ?_, ?_, ?_⟩
  · intro k m hm
    rw [tally_snoc, h.past k m hm, if_neg (by omega)]
  · intro k b hget
    by_cases hk : k = c.name
    · subst hk
      rw [hself] at hget
      cases hget
      refine ⟨w, Nat.le_refl w, hstart, ?_, by omega⟩
      rw [h.countAt hw, htally, Policy.afterCall_min]
    · obtain ⟨m, hm, hrest⟩ := h.bucket k b (get?_of_checkAt_of_ne h.distinct hk hget)
      refine ⟨m, hm, ?_⟩
      rwa [tally_snoc_of_ne hk]
  · intro k hpos
    by_cases hk : k = c.name
    · subst hk
      exact ⟨_, hself, hstart⟩
    · rw [tally_snoc_of_ne hk] at hpos
      obtain ⟨b, hget, hb⟩ := h.live k hpos
      have hlive : Table.isOver p.window c.second b = false := by
        have hlt : c.second < p.window * (c.window p + 1) := Nat.lt_mul_div_succ _ p.window_pos
        rw [hw, Nat.mul_succ, ← hb] at hlt
        simpa [Table.isOver] using hlt
      exact ⟨b, get?_checkAt_of_live h.distinct hk hget hlive (h.few_live hw hfew), hb⟩

end Tallies

/-- Before each of the calls, if none comes behind one of a later window and no window sees more
keys than the table can hold, the table keeps the ideal count up to the window of the call. -/
theorem tallies_before (he : p.enabled = true) {before after : List Call} {c : Call}
    (horder : (before ++ c :: after).Pairwise fun a b => a.window p ≤ b.window p)
    (hfew : ∀ m, (callers p (before ++ c :: after) m).card ≤ p.capacity) :
    Tallies p before (c.window p) (run p before) := by
  induction before using List.reverseRecOn generalizing c after with
  | nil => exact Tallies.empty p (c.window p)
  | append_singleton before b ih =>
    have hfewBefore : (callers p (before ++ [b]) (b.window p)).card ≤ p.capacity :=
      (Finset.card_le_card (callers_subset _)).trans (hfew _)
    have hbc : b.window p ≤ c.window p :=
      (List.pairwise_append.mp horder).2.2 b (by simp) c (by simp)
    rw [List.append_assoc, List.singleton_append] at horder hfew
    rw [run_snoc, check_of_enabled he]
    exact ((ih horder hfew).step rfl hfewBefore).later hbc

/-! ## Callers that overlap -/

/-- What a caller does next. -/
inductive Turn where
  /-- It reads the clock for its call, and waits for the lock from then on. -/
  | reads (call : Call)
  /-- It takes the lock; it is told by its place among those that wait, counted from zero. -/
  | locks (place : Nat)

/-- The calls in the order in which the clock is read for them. -/
def readings : List Turn → List Call
  | [] => []
  | .reads c :: rest => c :: readings rest
  | .locks _ :: rest => readings rest

/-- The calls in the order in which their callers take the lock, if some are waiting already. This
is the order in which the table sees them. -/
def lockOrder (waiting : List Call) : List Turn → List Call
  | [] => []
  | .reads c :: rest => lockOrder (waiting ++ [c]) rest
  | .locks i :: rest =>
    match waiting[i]? with
    | some c => c :: lockOrder (waiting.eraseIdx i) rest
    | none => lockOrder waiting rest

variable {turns : List Turn}

/-- Callers that take the lock in the order in which they have read the clock. -/
theorem lockOrder_inTurn (waiting : List Call) (hturn : ∀ i, .locks i ∈ turns → i = 0) :
    lockOrder waiting turns <+: waiting ++ readings turns := by
  induction turns generalizing waiting with
  | nil => exact List.nil_prefix
  | cons turn rest ih =>
    have hrest : ∀ i, .locks i ∈ rest → i = 0 := fun i hi => hturn i (.tail _ hi)
    cases turn with
    | reads c =>
      have hread := ih (waiting ++ [c]) hrest
      rwa [List.append_assoc, List.singleton_append] at hread
    | locks i =>
      obtain rfl : i = 0 := hturn i (.head _)
      cases waiting with
      | nil => exact ih [] hrest
      | cons c waiting => exact (List.prefix_cons_inj c).mpr (ih waiting hrest)

/-- On a clock that does not step back, no call comes behind one of a later window if the callers
take the lock in the order of their readings. -/
theorem windows_of_inTurn (hclock : (readings turns).Pairwise fun a b => a.millis ≤ b.millis)
    (hturn : ∀ i, .locks i ∈ turns → i = 0) (p : Policy) :
    (lockOrder [] turns).Pairwise fun a b => a.window p ≤ b.window p := by
  have hcalls := hclock.sublist (lockOrder_inTurn [] hturn).sublist
  exact hcalls.imp (Call.window_mono p)

/-- Whatever turns the callers take, if no call gets the lock behind one of a later window, and if
no window sees more keys than the table can hold, then a call is allowed exactly if it is among the
first calls of its key in its window, as many as the policy grants. -/
theorem allowed_iff_place (he : p.enabled = true)
    (horder : (lockOrder [] turns).Pairwise fun a b => a.window p ≤ b.window p)
    (hfew : ∀ m, (callers p (lockOrder [] turns) m).card ≤ p.capacity)
    {before after : List Call} {c : Call} (hcalls : lockOrder [] turns = before ++ c :: after) :
    Allowed p before c ↔ place p before c ≤ p.limit := by
  rw [hcalls] at horder hfew
  rw [allowed_iff he, (tallies_before he horder hfew).countAt rfl, place]
  omega

/-- There is room for one key, and the callers come one after the other. The key of an earlier
window has to go before another one can come, and the second call of that one is one too many. -/
theorem allowed_iff_place_narrow : ¬Allowed ⟨true, 1, 60, 1⟩
    [⟨"a", 0⟩, ⟨"a", 59999⟩, ⟨"b", 60000⟩] ⟨"b", 119999⟩ := by
  let turns : List Turn := [.reads ⟨"a", 0⟩, .locks 0, .reads ⟨"a", 59999⟩, .reads ⟨"b", 60000⟩,
    .locks 0, .locks 0, .reads ⟨"b", 119999⟩, .locks 0]
  have hwindow : ∀ c ∈ lockOrder [] turns, Call.window ⟨true, 1, 60, 1⟩ c ≤ 1 := by decide
  have hfew : ∀ m, (callers ⟨true, 1, 60, 1⟩ (lockOrder [] turns) m).card ≤ 1 := by
    intro m
    rcases m with _ | _ | m
    · decide
    · decide
    · rw [callers, List.filter_eq_nil_iff.mpr fun c hc => by have := hwindow c hc; simp; omega]
      exact Nat.zero_le 1
  have hclock : (readings turns).Pairwise fun a b => a.millis ≤ b.millis := by decide
  have horder := windows_of_inTurn hclock (by simp [turns]) ⟨true, 1, 60, 1⟩
  have hplace : Allowed ⟨true, 1, 60, 1⟩ [⟨"a", 0⟩, ⟨"a", 59999⟩, ⟨"b", 60000⟩] ⟨"b", 119999⟩ ↔ _ :=
    allowed_iff_place rfl horder hfew rfl
  rw [hplace]
  decide

/-- Two callers read the clock, at the end of one window and at the beginning of the next, and the
second one takes the lock first. -/
def lateTurns : List Turn := [.reads ⟨"a", 59999⟩, .reads ⟨"a", 60000⟩, .locks 1, .locks 0,
  .reads ⟨"a", 60001⟩, .locks 0]

/-- The first caller opens its window again. So the next call is allowed, although one call a window
is granted and another one was allowed in its window before. -/
theorem late_caller_resets :
    ((readings lateTurns).Pairwise fun a b => a.millis ≤ b.millis) ∧
      (∀ m, (callers ⟨true, 1, 60, 100⟩ (lockOrder [] lateTurns) m).card ≤ 100) ∧
      lockOrder [] lateTurns = [⟨"a", 60000⟩, ⟨"a", 59999⟩] ++ ⟨"a", 60001⟩ :: [] ∧
      ¬(Allowed ⟨true, 1, 60, 100⟩ [⟨"a", 60000⟩, ⟨"a", 59999⟩] ⟨"a", 60001⟩ ↔
        place ⟨true, 1, 60, 100⟩ [⟨"a", 60000⟩, ⟨"a", 59999⟩] ⟨"a", 60001⟩ ≤ 1) := by
  refine ⟨by decide, fun m => ?_, rfl, by decide⟩
  have hcard := card_callers_le ⟨true, 1, 60, 100⟩ (lockOrder [] lateTurns) m
  exact hcard.trans (by decide)

end Paymaster.RateLimit

import Paymaster.Proofs.RateLimit.Counting
/-!
# Budgets of their own

Two runs are compared: one with the calls of a single key only, and one with the calls of other keys
in between, at whatever times. Others can make the key lose its bucket, but they never add to it, so
what is counted for the key among others is at most what is counted for it alone, and a call that is
allowed alone is allowed among others.
-/

namespace Paymaster.RateLimit

variable {p : Policy} {t alone : Table} {k : String}

/-- What one table keeps for a key is not ahead of what another one keeps for it: nothing, or a
bucket of the same window with no more calls in it. -/
def Behind (k : String) (t alone : Table) : Prop :=
  ∀ b, t.get? k = some b → ∃ a, alone.get? k = some a ∧ b.start = a.start ∧ b.count ≤ a.count

theorem Behind.countAt_le (h : Behind k t alone) (now : Nat) :
    t.countAt p k now ≤ alone.countAt p k now := by
  rw [Table.countAt, Table.countAt]
  cases hget : t.get? k with
  | none => exact Nat.zero_le _
  | some b =>
    obtain ⟨a, hgetAlone, hstart, hcount⟩ := h b hget
    rw [hgetAlone]
    dsimp only
    rw [hstart]
    split_ifs
    · exact hcount
    · exact Nat.le_refl 0

/-- A call of another key may take the bucket away, and else leaves it. -/
theorem Behind.other (h : Behind k t alone) (ht : t.Distinct) {key : String} (hne : k ≠ key)
    (now : Nat) : Behind k (checkAt p t key now).2 alone :=
  fun b hget => h b (get?_of_checkAt_of_ne ht hne hget)

/-- A call of the key itself brings both buckets into the current window and counts in each. -/
theorem Behind.own (h : Behind k t alone) (now : Nat) :
    Behind k (checkAt p t k now).2 (checkAt p alone k now).2 := by
  intro b hget
  obtain ⟨seq, hself⟩ := get?_checkAt_self p t k now
  obtain ⟨seqAlone, hselfAlone⟩ := get?_checkAt_self p alone k now
  rw [hself] at hget
  cases hget
  exact ⟨_, hselfAlone, rfl, p.afterCall_mono (h.countAt_le now)⟩

/-- Calls of other keys in between never put a key ahead of where it is alone. -/
theorem behind_run (he : p.enabled = true) (k : String) (calls : List Call) :
    Behind k (run p calls) (run p (calls.filter fun c => c.name = k)) := by
  induction calls using List.reverseRecOn with
  | nil =>
    intro b hget
    cases hget
  | append_singleton before c ih =>
    rw [run_snoc, check_of_enabled he, List.filter_append]
    by_cases hname : c.name = k
    · rw [List.filter_cons_of_pos (by simpa using hname), List.filter_nil, run_snoc,
        check_of_enabled he, hname]
      exact ih.own c.second
    · rw [List.filter_cons_of_neg (by simpa using hname), List.filter_nil, List.append_nil]
      exact ih.other (distinct_run he before) (Ne.symm hname) c.second

/-- A call that is allowed after the earlier calls of its own key alone is allowed after these and
any calls of other keys in between, at whatever times they are made and even if they fill the table.
Keys are those under which calls are counted, so all blank keys are one. -/
theorem allowed_among_others (p : Policy) (before : List Call) (c : Call)
    (h : Allowed p (before.filter fun b => b.name = c.name) c) : Allowed p before c := by
  cases he : p.enabled with
  | false => simp [Allowed, check, he, Decision.allow]
  | true =>
    rw [allowed_iff he] at h ⊢
    exact Nat.lt_of_le_of_lt ((behind_run he c.name before).countAt_le c.second) h

/-- The table has room for one key. Others have thrown the key out and filled the table, the clock
has stepped back, and the call is the second of its key in the window. -/
theorem allowed_among_others_full : Allowed ⟨true, 2, 60, 1⟩
    [⟨"a", 60000⟩, ⟨"b", 60000⟩, ⟨"b", 60000⟩, ⟨"c", 59000⟩, ⟨" ", 120000⟩] ⟨"a", 61000⟩ :=
  allowed_among_others _ _ _ (by decide)

/-- Two keys that differ may share a budget, if both are blank: both are counted as unknown. -/
theorem blank_keys_share : ¬∀ (p : Policy) (before : List Call) (c : Call),
    Allowed p (before.filter fun b => b.key = c.key) c → Allowed p before c := by
  intro h
  have hshared := h ⟨true, 1, 60, 100⟩ [⟨" ", 0⟩] ⟨"", 0⟩ (by decide)
  exact absurd hshared (by decide)

end Paymaster.RateLimit

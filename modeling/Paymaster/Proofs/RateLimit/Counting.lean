import Mathlib.Data.List.Induction
import Mathlib.Data.List.Nodup
import Paymaster.RateLimit
/-!
# What a call does to the table

The table is looked at through `get?`: what it keeps for each key. A call gives its own key a bucket
of the current window, with one more call in it if the call was allowed. Of the other keys it may
throw some out, to make room; those that stay keep their buckets. A bucket of the current window is
thrown out only if the table is full of such buckets.
-/

namespace Paymaster.RateLimit

variable {p : Policy} {t t' : Table} {k key : String} {b : Bucket} {now : Nat}

theorem Policy.window_pos (p : Policy) : 0 < p.window := by
  rw [Policy.window]
  omega

theorem windowStart_eq (window now : Nat) : windowStart window now = window * (now / window) := by
  rw [windowStart, Nat.mul_comm, Nat.div_mul_self_eq_mod_sub_self]

namespace Table

/-! ## Keys -/

/-- The keys that have a bucket. -/
def keys (t : Table) : List String := t.buckets.map Prod.fst

/-- No key has two buckets. -/
def Distinct (t : Table) : Prop := t.keys.Nodup

theorem distinct_empty : empty.Distinct := List.nodup_nil

theorem mem_of_get? (h : t.get? k = some b) : (k, b) ∈ t.buckets := by
  rw [get?] at h
  obtain ⟨before, after, heq, -⟩ := List.lookup_eq_some_iff.mp h
  rw [heq]
  simp

theorem get?_eq_none_iff : t.get? k = none ↔ k ∉ t.keys := by
  rw [get?, List.lookup_eq_none_iff, keys, List.mem_map]
  constructor
  · rintro h ⟨x, hx, rfl⟩
    exact absurd (h x hx) (by simp)
  · intro h x hx
    rw [bne_iff_ne]
    rintro rfl
    exact h ⟨x, hx, rfl⟩

theorem get?_of_mem (h : t.Distinct) (hx : (k, b) ∈ t.buckets) : t.get? k = some b := by
  cases hget : t.get? k with
  | none => exact absurd (List.mem_map_of_mem hx) (get?_eq_none_iff.mp hget)
  | some b' =>
    have heq : (k, b') = (k, b) := List.inj_on_of_nodup_map h (mem_of_get? hget) hx rfl
    rw [(Prod.mk.inj heq).2]

/-- What is left of a table keeps its buckets. -/
theorem get?_of_sublist (h : t.Distinct) (hs : t'.buckets.Sublist t.buckets) :
    t'.get? k = none ∨ t'.get? k = t.get? k := by
  cases hget : t'.get? k with
  | none => exact .inl rfl
  | some b => exact .inr (get?_of_mem h (hs.subset (mem_of_get? hget))).symm

theorem Distinct.of_sublist (h : t.Distinct) (hs : t'.buckets.Sublist t.buckets) : t'.Distinct :=
  (hs.map Prod.fst).nodup h

/-! ## Making room -/

theorem makeRoom_sublist (t : Table) (window capacity now : Nat) :
    (t.makeRoom window capacity now).buckets.Sublist t.buckets := by
  rw [makeRoom]
  split
  · exact List.Sublist.refl _
  · dsimp only
    split
    · exact List.filter_sublist
    · split
      · exact List.filter_sublist
      · exact List.filter_sublist.trans List.filter_sublist

/-- While there are fewer buckets that are not over than the table can hold, none of them goes. -/
theorem get?_makeRoom_of_live {window capacity : Nat} (h : t.Distinct)
    (hfew : (t.buckets.filter fun x => !isOver window now x.2).length < capacity)
    (hget : t.get? k = some b) (hlive : isOver window now b = false) :
    (t.makeRoom window capacity now).get? k = some b := by
  rw [makeRoom]
  split
  · exact hget
  · simp only [if_pos hfew]
    have hsub : (t.buckets.filter fun x => !isOver window now x.2).Sublist t.buckets :=
      List.filter_sublist
    have hmem : (k, b) ∈ t.buckets.filter fun x => !isOver window now x.2 :=
      List.mem_filter.mpr ⟨mem_of_get? hget, by simp [hlive]⟩
    exact get?_of_mem (t := { t with buckets := _ }) (h.of_sublist hsub) hmem

/-! ## Other buckets -/

theorem keys_set (t : Table) (key : String) (b : Bucket) : (t.set key b).keys = t.keys := by
  rw [keys, keys, set, List.map_map]
  refine List.map_congr_left fun x _ => ?_
  rw [Function.comp]
  split
  · rename_i heq
    exact (beq_iff_eq.mp heq).symm
  · rfl

theorem get?_set_of_ne (hne : k ≠ key) : (t.set key b).get? k = t.get? k := by
  rw [get?, get?, set]
  dsimp only
  induction t.buckets with
  | nil => rfl
  | cons x rest ih =>
    rw [List.map_cons]
    by_cases hx : x.1 = key
    · have hk : (k == key) = false := beq_false_of_ne hne
      rw [if_pos (by simpa using hx), List.lookup_cons, List.lookup_cons, ih, hx, hk]
    · rw [if_neg (by simpa using hx), List.lookup_cons, List.lookup_cons, ih]

theorem get?_set_self (h : key ∈ t.keys) : (t.set key b).get? key = some b := by
  rw [keys] at h
  rw [get?, set]
  dsimp only
  generalize t.buckets = buckets at h
  induction buckets with
  | nil => simp at h
  | cons x rest ih =>
    rw [List.map_cons]
    by_cases hx : x.1 = key
    · rw [if_pos (by simpa using hx), List.lookup_cons, beq_self_eq_true]
    · have hrest : key ∈ rest.map Prod.fst := by
        rcases List.mem_cons.mp h with heq | hmem
        · exact absurd heq.symm hx
        · exact hmem
      have hk : (key == x.1) = false := beq_false_of_ne (Ne.symm hx)
      rw [if_neg (by simpa using hx), List.lookup_cons, ih hrest, hk]

theorem buckets_advance (t : Table) (b : Bucket) : (t.advance b).buckets = t.buckets := by
  rw [advance]
  split
  · rfl
  · rfl

/-- The calls of a key that are counted in the window around a second. -/
def countAt (p : Policy) (t : Table) (key : String) (now : Nat) : Nat :=
  match t.get? key with
  | some b => if b.start = windowStart p.window now then b.count else 0
  | none => 0

end Table

/-! ## One call -/

/-- What is counted after one more call, which is counted only if it is allowed. -/
def Policy.afterCall (p : Policy) (n : Nat) : Nat := if n < p.limit then n + 1 else n

theorem Policy.afterCall_mono (p : Policy) {m n : Nat} (h : m ≤ n) :
    p.afterCall m ≤ p.afterCall n := by
  rw [afterCall, afterCall]
  split
  · split
    · omega
    · omega
  · split
    · omega
    · exact h

/-- Counting goes on as if there were no limit, but is cut off at it. -/
theorem Policy.afterCall_min (p : Policy) (n : Nat) :
    p.afterCall (min p.limit n) = min p.limit (n + 1) := by
  rw [afterCall]
  split_ifs with h
  · omega
  · omega

theorem prepare_start : (prepare p t key now).2.start = windowStart p.window now := by
  rw [prepare]
  dsimp only
  split_ifs with h
  · exact h
  · rfl

theorem prepare_count : (prepare p t key now).2.count = t.countAt p key now := by
  rw [prepare, Table.countAt]
  cases t.get? key with
  | none => simp [Table.insert]
  | some b =>
    dsimp only
    split_ifs with h
    · rfl
    · rfl

/-- A key that has a bucket leaves the buckets as they are; for another one room is made. -/
theorem prepare_buckets (p : Policy) (t : Table) (key : String) (now : Nat) :
    (key ∈ t.keys ∧ (prepare p t key now).1.buckets = t.buckets) ∨
      (t.get? key = none ∧ ∃ b, (prepare p t key now).1.buckets =
        (key, b) :: (t.makeRoom p.window p.capacity now).buckets) := by
  rw [prepare]
  cases hget : t.get? key with
  | none =>
    exact .inr ⟨rfl, _, Table.buckets_advance _ _⟩
  | some b =>
    refine .inl ⟨?_, Table.buckets_advance _ _⟩
    exact List.mem_map_of_mem (Table.mem_of_get? hget)

theorem mem_keys_prepare : key ∈ (prepare p t key now).1.keys := by
  rcases prepare_buckets p t key now with ⟨hmem, heq⟩ | ⟨-, b, heq⟩
  · rwa [Table.keys, heq]
  · simp [Table.keys, heq]

theorem distinct_prepare (h : t.Distinct) : (prepare p t key now).1.Distinct := by
  rcases prepare_buckets p t key now with ⟨-, heq⟩ | ⟨hnone, b, heq⟩
  · rwa [Table.Distinct, Table.keys, heq]
  · have hsub := t.makeRoom_sublist p.window p.capacity now
    rw [Table.Distinct, Table.keys, heq, List.map_cons, List.nodup_cons]
    refine ⟨fun hmem => ?_, h.of_sublist hsub⟩
    exact Table.get?_eq_none_iff.mp hnone ((hsub.map Prod.fst).subset hmem)

/-- The bucket of another key stays or goes as it does when room is made. -/
theorem get?_prepare_of_ne (p : Policy) (t : Table) (now : Nat) (hne : k ≠ key) :
    (prepare p t key now).1.get? k = t.get? k ∨
      (t.get? key = none ∧
        (prepare p t key now).1.get? k = (t.makeRoom p.window p.capacity now).get? k) := by
  rcases prepare_buckets p t key now with ⟨-, heq⟩ | ⟨hnone, b, heq⟩
  · rw [Table.get?, heq]
    exact .inl rfl
  · refine .inr ⟨hnone, ?_⟩
    rw [Table.get?, heq, List.lookup_cons, beq_false_of_ne hne]
    rfl

/-- A call is allowed while its key has calls left in the window. -/
theorem checkAt_allowed_iff : (checkAt p t key now).1.allowed = true ↔
    t.countAt p key now < p.limit := by
  rw [← prepare_count, checkAt]
  dsimp only
  split_ifs with hfull
  · simpa using hfull
  · simpa [Decision.allow] using hfull

theorem checkAt_table : (checkAt p t key now).2 = (prepare p t key now).1.set key
    { (prepare p t key now).2 with count := p.afterCall (prepare p t key now).2.count } := by
  rw [checkAt, Policy.afterCall]
  dsimp only
  split_ifs with hfull hleft hleft
  · omega
  · rfl
  · rfl
  · omega

/-- A call puts its key into the current window. -/
theorem get?_checkAt_self (p : Policy) (t : Table) (key : String) (now : Nat) :
    ∃ seq, (checkAt p t key now).2.get? key =
      some ⟨windowStart p.window now, p.afterCall (t.countAt p key now), seq⟩ := by
  refine ⟨(prepare p t key now).2.seq, ?_⟩
  rw [checkAt_table, Table.get?_set_self mem_keys_prepare, prepare_count, ← prepare_start]

theorem distinct_checkAt (h : t.Distinct) : (checkAt p t key now).2.Distinct := by
  rw [checkAt_table, Table.Distinct, Table.keys_set]
  exact distinct_prepare h

/-- A call that is allowed is one more call of its key in the window. -/
theorem countAt_checkAt (h : (checkAt p t key now).1.allowed = true) :
    (checkAt p t key now).2.countAt p key now = t.countAt p key now + 1 := by
  obtain ⟨seq, hself⟩ := get?_checkAt_self p t key now
  rw [Table.countAt, hself]
  dsimp only
  rw [if_pos rfl, Policy.afterCall, if_pos (checkAt_allowed_iff.mp h)]

/-- A call throws the bucket of another key out or leaves it as it is. -/
theorem get?_checkAt_of_ne (p : Policy) (now : Nat) (h : t.Distinct) (hne : k ≠ key) :
    (checkAt p t key now).2.get? k = none ∨ (checkAt p t key now).2.get? k = t.get? k := by
  rw [checkAt_table, Table.get?_set_of_ne hne]
  rcases get?_prepare_of_ne p t now hne with heq | ⟨-, heq⟩
  · exact .inr heq
  · rw [heq]
    exact Table.get?_of_sublist h (t.makeRoom_sublist p.window p.capacity now)

/-- The bucket of another key that is there after a call was there before it. -/
theorem get?_of_checkAt_of_ne (h : t.Distinct) (hne : k ≠ key)
    (hget : (checkAt p t key now).2.get? k = some b) : t.get? k = some b := by
  rcases get?_checkAt_of_ne p now h hne with hnone | hsame
  · rw [hnone] at hget
    cases hget
  · rwa [← hsame]

/-- A call leaves the bucket of another key as it is if that bucket is not over, unless the table is
full of such buckets and the call brings a new key. -/
theorem get?_checkAt_of_live (h : t.Distinct) (hne : k ≠ key) (hget : t.get? k = some b)
    (hlive : Table.isOver p.window now b = false)
    (hfew : t.get? key = none →
      (t.buckets.filter fun x => !Table.isOver p.window now x.2).length < p.capacity) :
    (checkAt p t key now).2.get? k = some b := by
  rw [checkAt_table, Table.get?_set_of_ne hne]
  rcases get?_prepare_of_ne p t now hne with heq | ⟨hnone, heq⟩
  · rwa [heq]
  · rw [heq]
    exact Table.get?_makeRoom_of_live h (hfew hnone) hget hlive

/-! ## Calls one after another -/

/-- A call as the limiter gets it. Calls that overlap are taken in the order in which they get at
the table. -/
structure Call where
  key : String
  /-- The time on the clock in milliseconds. -/
  millis : UInt64
  deriving DecidableEq

namespace Call

/-- The key under which the call is counted. -/
def name (c : Call) : String := effectiveKey c.key

/-- The second of the call. -/
def second (c : Call) : Nat := c.millis.toNat / millisPerSecond

/-- The number of the window in which the call is made. -/
def window (p : Policy) (c : Call) : Nat := c.second / p.window

end Call

/-- The table after some calls. -/
def run (p : Policy) (calls : List Call) : Table :=
  calls.foldl (fun t c => (check p t c.key c.millis).2) .empty

/-- The call is allowed after some others. -/
def Allowed (p : Policy) (before : List Call) (c : Call) : Prop :=
  (check p (run p before) c.key c.millis).1.allowed = true

instance (p : Policy) (before : List Call) (c : Call) : Decidable (Allowed p before c) :=
  inferInstanceAs (Decidable (_ = true))

variable {before : List Call} {c : Call}

theorem check_of_enabled (he : p.enabled = true) :
    check p t c.key c.millis = checkAt p t c.name c.second := by
  rw [check, if_pos he]
  rfl

theorem run_snoc (p : Policy) (before : List Call) (c : Call) :
    run p (before ++ [c]) = (check p (run p before) c.key c.millis).2 := by
  rw [run, List.foldl_append]
  rfl

theorem allowed_iff (he : p.enabled = true) :
    Allowed p before c ↔ (run p before).countAt p c.name c.second < p.limit := by
  rw [Allowed, check_of_enabled he, checkAt_allowed_iff]

theorem distinct_run (he : p.enabled = true) (calls : List Call) : (run p calls).Distinct := by
  induction calls using List.reverseRecOn with
  | nil => exact Table.distinct_empty
  | append_singleton before c ih =>
    rw [run_snoc, check_of_enabled he]
    exact distinct_checkAt ih

end Paymaster.RateLimit

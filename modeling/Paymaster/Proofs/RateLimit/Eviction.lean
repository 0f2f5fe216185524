import Mathlib.Data.Prod.Lex
import Paymaster.Proofs.RateLimit.Counting
/-!
# What is thrown out of the table

The keys in the table are numbered in the order in which they were put in, so of two buckets one is
always the older, and which bucket goes does not depend on the order in which the table is gone
through. Room is made for a new key only, and only when the table is full: then the buckets of past
windows go, and if that is not enough one more, the oldest of all.
-/

namespace Paymaster.RateLimit

variable {p : Policy} {t u : Table} {k key : String} {b : Bucket} {x y : String × Bucket}
  {window capacity now : Nat} {before calls : List Call} {c : Call}

theorem Policy.capacity_pos (p : Policy) : 0 < p.capacity := by
  rw [Policy.capacity]
  omega

/-! ## The oldest bucket -/

/-- The age of a bucket, by its window and then by its number; the smallest age is that of the
oldest. -/
def Bucket.age (b : Bucket) : Nat ×ₗ Nat := toLex (b.start, b.seq.toNat)

namespace Table

theorem isOlder_iff {a b : Bucket} : isOlder a b = true ↔ a.age < b.age := by
  rw [Bucket.age, Bucket.age, Prod.Lex.toLex_lt_toLex]
  simp [isOlder, UInt64.lt_iff_toNat_lt]

theorem oldest?_eq_none_iff {l : List (String × Bucket)} : oldest? l = none ↔ l = [] := by
  cases l with
  | nil => simp [oldest?]
  | cons x rest =>
    rw [oldest?]
    split
    · simp
    · split
      · simp
      · simp

theorem oldest?_eq_some {l : List (String × Bucket)} (h : oldest? l = some x) :
    x ∈ l ∧ ∀ y ∈ l, x.2.age ≤ y.2.age := by
  induction l generalizing x with
  | nil => simp [oldest?] at h
  | cons z rest ih =>
    rw [oldest?] at h
    cases hrest : oldest? rest with
    | none =>
      rw [hrest] at h
      cases h
      rw [oldest?_eq_none_iff.mp hrest]
      simp
    | some w =>
      obtain ⟨hw, hle⟩ := ih hrest
      simp only [hrest] at h
      split at h
      · rename_i holder
        cases h
        refine ⟨List.mem_cons_of_mem z hw, ?_⟩
        intro y hy
        rcases List.mem_cons.mp hy with rfl | hy
        · exact (isOlder_iff.mp holder).le
        · exact hle y hy
      · rename_i holder
        cases h
        refine ⟨List.mem_cons_self, ?_⟩
        intro y hy
        rcases List.mem_cons.mp hy with rfl | hy
        · exact le_refl _
        · exact (not_lt.mp fun hlt => holder (isOlder_iff.mpr hlt)).trans (hle y hy)

/-! ## A table in order -/

/-- The buckets that are not over at a second. -/
def live (t : Table) (window now : Nat) : List (String × Bucket) :=
  t.buckets.filter fun x => !isOver window now x.2

/-- What a table has that a later one has no more. -/
def lost (t t' : Table) : List (String × Bucket) := t.buckets.filter fun x => x.1 ∉ t'.keys

/-- No key has two buckets, no number is given twice, the numbers that are given lie below the next
one, and there are no more buckets than the table can hold. -/
structure Tidy (t : Table) (capacity : Nat) : Prop where
  distinct : t.Distinct
  numbered : (t.buckets.map fun x => x.2.seq).Nodup
  below : ∀ x ∈ t.buckets, x.2.seq < t.nextSeq
  size_le : t.size ≤ capacity

theorem tidy_empty (capacity : Nat) : empty.Tidy capacity where
  distinct := distinct_empty
  numbered := List.nodup_nil
  below _ hx := absurd hx List.not_mem_nil
  size_le := Nat.zero_le capacity

/-- In a table with numbers a bucket is found by its age. -/
theorem Tidy.eq_of_age (h : t.Tidy capacity) (hx : x ∈ t.buckets) (hy : y ∈ t.buckets)
    (hage : x.2.age = y.2.age) : x = y := by
  have hseq : x.2.seq.toNat = y.2.seq.toNat := congrArg (fun a => (ofLex a).2) hage
  exact List.inj_on_of_nodup_map h.numbered hx hy (UInt64.toNat_inj.mp hseq)

theorem Tidy.eq_of_key (h : t.Tidy capacity) (hx : x ∈ t.buckets) (hy : y ∈ t.buckets)
    (hkey : x.1 = y.1) : x = y :=
  List.inj_on_of_nodup_map h.distinct hx hy hkey

/-! ## Making room -/

theorem makeRoom_of_lt (h : t.size < capacity) : t.makeRoom window capacity now = t := by
  rw [makeRoom, if_pos h]

/-- The buckets of past windows go if that makes room. -/
theorem makeRoom_of_live_lt (h : capacity ≤ t.size) (hlive : (t.live window now).length < capacity) :
    t.makeRoom window capacity now = { t with buckets := t.live window now } := by
  rw [makeRoom, if_neg (Nat.not_lt.mpr h)]
  exact if_pos hlive

/-- If that makes no room one more bucket goes, which is older than all others. -/
theorem Tidy.makeRoom_of_full (ht : t.Tidy capacity) (hpos : 0 < capacity) (h : capacity ≤ t.size)
    (hlive : capacity ≤ (t.live window now).length) :
    ∃ x ∈ t.live window now, (∀ y ∈ t.live window now, y ≠ x → x.2.age < y.2.age) ∧
      t.makeRoom window capacity now =
        { t with buckets := without x.1 (t.live window now) } := by
  have hsub : t.live window now ⊆ t.buckets := List.filter_sublist.subset
  cases hold : oldest? (t.live window now) with
  | none =>
    rw [oldest?_eq_none_iff.mp hold] at hlive
    exact absurd hlive (Nat.not_le.mpr hpos)
  | some x =>
    have hroom : t.makeRoom window capacity now =
        { t with buckets := without x.1 (t.live window now) } := by
      rw [live] at hold hlive
      rw [makeRoom, if_neg (Nat.not_lt.mpr h)]
      dsimp only
      rw [if_neg (Nat.not_lt.mpr hlive), hold]
      rfl
    obtain ⟨hx, hle⟩ := oldest?_eq_some hold
    refine ⟨x, hx, ?_, hroom⟩
    intro y hy hne
    refine lt_of_le_of_ne (hle y hy) fun hage => ?_
    exact hne (ht.eq_of_age (hsub hx) (hsub hy) hage).symm

theorem nextSeq_makeRoom (t : Table) (window capacity now : Nat) :
    (t.makeRoom window capacity now).nextSeq = t.nextSeq := by
  rw [makeRoom]
  split
  · rfl
  · dsimp only
    split
    · rfl
    · split
      · rfl
      · rfl

theorem tidy_makeRoom (ht : t.Tidy capacity) (window now : Nat) :
    (t.makeRoom window capacity now).Tidy capacity where
  distinct := ht.distinct.of_sublist (t.makeRoom_sublist window capacity now)
  numbered := ((t.makeRoom_sublist window capacity now).map _).nodup ht.numbered
  below x hx := by
    rw [nextSeq_makeRoom]
    exact ht.below x ((t.makeRoom_sublist window capacity now).subset hx)
  size_le := (t.makeRoom_sublist window capacity now).length_le.trans ht.size_le

theorem Tidy.size_makeRoom (ht : t.Tidy capacity) (hpos : 0 < capacity) (window now : Nat) :
    (t.makeRoom window capacity now).size < capacity := by
  rcases Nat.lt_or_ge t.size capacity with hlt | hge
  · rwa [makeRoom_of_lt hlt]
  rcases Nat.lt_or_ge (t.live window now).length capacity with hlive | hlive
  · rwa [makeRoom_of_live_lt hge hlive]
  · obtain ⟨x, hx, -, hroom⟩ := ht.makeRoom_of_full hpos hge hlive
    have hle : (t.live window now).length ≤ capacity :=
      (List.length_filter_le _ _).trans ht.size_le
    rw [hroom]
    refine Nat.lt_of_lt_of_le (List.length_filter_lt_length_iff_exists.mpr ⟨x, hx, ?_⟩) hle
    simp

/-! ## One call -/

theorem advance_of_ne (h : b.seq ≠ t.nextSeq) : t.advance b = t := by
  rw [advance, if_neg h]

theorem seq_set (h : ∀ x ∈ t.buckets, x.1 = key → x.2.seq = b.seq) :
    ((t.set key b).buckets.map fun x => x.2.seq) = t.buckets.map fun x => x.2.seq := by
  rw [set, List.map_map]
  refine List.map_congr_left fun x hx => ?_
  rw [Function.comp]
  split
  · rename_i heq
    exact (h x hx (beq_iff_eq.mp heq)).symm
  · rfl

theorem tidy_set (ht : t.Tidy capacity) (h : ∀ x ∈ t.buckets, x.1 = key → x.2.seq = b.seq) :
    (t.set key b).Tidy capacity where
  distinct := by
    rw [Distinct, keys_set]
    exact ht.distinct
  numbered := by
    rw [seq_set h]
    exact ht.numbered
  below x hx := by
    have hmem : x.2.seq ∈ (t.set key b).buckets.map fun x => x.2.seq := List.mem_map_of_mem hx
    rw [seq_set h] at hmem
    obtain ⟨y, hy, hseq⟩ := List.mem_map.mp hmem
    rw [← hseq]
    exact ht.below y hy
  size_le := by
    rw [size, set, List.length_map]
    exact ht.size_le

end Table

/-- A key that has a bucket keeps it, with the count of the current window. -/
theorem prepare_of_get? (ht : t.Tidy capacity) (h : t.get? key = some b) :
    prepare p t key now = (t, if b.start = windowStart p.window now then b
      else ⟨windowStart p.window now, 0, b.seq⟩) := by
  have hlt := ht.below _ (Table.mem_of_get? h)
  rw [prepare, h]
  dsimp only
  rw [Table.advance_of_ne (UInt64.ne_of_lt hlt)]

/-- A new key gets a bucket with the next number. -/
theorem prepare_of_none (h : t.get? key = none) : prepare p t key now =
    (⟨(key, ⟨windowStart p.window now, 0, t.nextSeq⟩) ::
        (t.makeRoom p.window p.capacity now).buckets, t.nextSeq + 1⟩,
      ⟨windowStart p.window now, 0, t.nextSeq⟩) := by
  have hnext : (t.makeRoom p.window p.capacity now).nextSeq = t.nextSeq :=
    t.nextSeq_makeRoom p.window p.capacity now
  rw [prepare, h]
  simp only [Table.insert, Table.advance, hnext, if_true]

namespace Table

theorem tidy_prepare (ht : t.Tidy p.capacity)
    (hnext : t.get? key = none → t.nextSeq.toNat + 1 < UInt64.size) :
    (prepare p t key now).1.Tidy p.capacity ∧
      (prepare p t key now).1.nextSeq.toNat =
        t.nextSeq.toNat + if t.get? key = none then 1 else 0 := by
  cases hget : t.get? key with
  | some b =>
    rw [prepare_of_get? ht hget]
    exact ⟨ht, by simp⟩
  | none =>
    have hroom := tidy_makeRoom ht p.window now
    have hadd : (t.nextSeq + 1).toNat = t.nextSeq.toNat + 1 := by
      rw [UInt64.toNat_add]
      exact Nat.mod_eq_of_lt (hnext hget)
    have hbelow : ∀ x ∈ (t.makeRoom p.window p.capacity now).buckets, x.2.seq < t.nextSeq := by
      intro x hx
      have hlt := hroom.below x hx
      rwa [nextSeq_makeRoom] at hlt
    rw [prepare_of_none hget]
    refine ⟨⟨?_, ?_, ?_, ?_⟩, by simp [hadd]⟩
    · refine List.nodup_cons.mpr ⟨fun hmem => ?_, hroom.distinct⟩
      have hsub := (t.makeRoom_sublist p.window p.capacity now).map Prod.fst
      exact get?_eq_none_iff.mp hget (hsub.subset hmem)
    · refine List.nodup_cons.mpr ⟨fun hmem => ?_, hroom.numbered⟩
      obtain ⟨x, hx, hseq⟩ := List.mem_map.mp hmem
      exact UInt64.ne_of_lt (hbelow x hx) hseq
    · intro x hx
      rw [UInt64.lt_iff_toNat_lt, hadd]
      rcases List.mem_cons.mp hx with rfl | hx
      · exact Nat.lt_succ_self _
      · exact Nat.lt_succ_of_lt (UInt64.lt_iff_toNat_lt.mp (hbelow x hx))
    · exact ht.size_makeRoom p.capacity_pos p.window now

/-- A call leaves the table in order, and the next number counts the keys that are put in. -/
theorem tidy_checkAt (ht : t.Tidy p.capacity)
    (hnext : t.get? key = none → t.nextSeq.toNat + 1 < UInt64.size) :
    (checkAt p t key now).2.Tidy p.capacity ∧
      (checkAt p t key now).2.nextSeq.toNat =
        t.nextSeq.toNat + if t.get? key = none then 1 else 0 := by
  obtain ⟨htidy, hseq⟩ : (prepare p t key now).1.Tidy p.capacity ∧ _ := tidy_prepare ht hnext
  rw [checkAt_table]
  refine ⟨tidy_set htidy fun x hx hkey => ?_, hseq⟩
  cases hget : t.get? key with
  | some b =>
    rw [prepare_of_get? ht hget] at hx ⊢
    have hxb : x = (key, b) := ht.eq_of_key hx (mem_of_get? hget) hkey
    rw [hxb]
    dsimp only
    split
    · rfl
    · rfl
  | none =>
    have hmem : (key, (prepare p t key now).2) ∈
        (prepare p t key now).1.buckets := by
      rw [prepare_of_none hget]
      exact List.mem_cons_self
    rw [htidy.eq_of_key hx hmem hkey]

/-! ## What goes -/

variable {t' : Table} {P : String × Bucket → Bool}

theorem keys_checkAt (p : Policy) (t : Table) (key : String) (now : Nat) :
    (checkAt p t key now).2.keys = (prepare p t key now).1.keys := by
  rw [checkAt_table, keys_set]

theorem keys_checkAt_of_mem (ht : t.Tidy capacity) (h : key ∈ t.keys) :
    (checkAt p t key now).2.keys = t.keys := by
  cases hget : t.get? key with
  | none => exact absurd h (get?_eq_none_iff.mp hget)
  | some b => rw [keys_checkAt, prepare_of_get? ht hget]

theorem keys_checkAt_of_not_mem (h : key ∉ t.keys) : (checkAt p t key now).2.keys =
    key :: (t.makeRoom p.window p.capacity now).keys := by
  rw [keys_checkAt, prepare_of_none (get?_eq_none_iff.mpr h)]
  rfl

/-- A table that has the keys of some of the buckets has lost the others. -/
theorem lost_eq_filter (h : ∀ x ∈ t.buckets, x.1 ∈ t'.keys ↔ P x = true) :
    t.lost t' = t.buckets.filter fun x => !P x := by
  refine List.filter_congr fun x hx => ?_
  cases hP : P x with
  | true => simpa using (h x hx).mpr hP
  | false => simpa [hP] using h x hx

/-- When a new key comes, the buckets that room is not made with are lost. -/
theorem lost_checkAt (ht : t.Tidy capacity) (h : key ∉ t.keys)
    (hroom : (t.makeRoom p.window p.capacity now).buckets = t.buckets.filter P) :
    t.lost (checkAt p t key now).2 = t.buckets.filter fun x => !P x := by
  refine lost_eq_filter fun x hx => ?_
  have hne : x.1 ≠ key := by
    rintro rfl
    exact h (List.mem_map_of_mem hx)
  rw [keys_checkAt_of_not_mem h, keys, hroom, List.mem_cons, List.mem_map]
  constructor
  · rintro (heq | ⟨y, hy, hkey⟩)
    · exact absurd heq hne
    · obtain ⟨hmem, hP⟩ := List.mem_filter.mp hy
      rwa [← ht.eq_of_key hmem hx hkey]
  · intro hP
    exact .inr ⟨x, List.mem_filter.mpr ⟨hx, hP⟩, rfl⟩

/-- From one table to the next, with a call in between: only a new key makes others go, and only
from a full table. The buckets of past windows go, and one more if the table would be full without
them; that one is older than all that stay. Buckets that stay are not changed, but for that of the
caller. -/
structure Evicts (p : Policy) (c : Call) (t t' : Table) : Prop where
  known : c.name ∈ t.keys → t.lost t' = []
  room : c.name ∉ t.keys → t.size < p.capacity → t.lost t' = []
  past : c.name ∉ t.keys → p.capacity ≤ t.size → (t.live p.window c.second).length < p.capacity →
    t.lost t' = t.buckets.filter fun x => isOver p.window c.second x.2
  oldest : c.name ∉ t.keys → p.capacity ≤ t.size →
    p.capacity ≤ (t.live p.window c.second).length →
    ∃ x ∈ t.live p.window c.second,
      (∀ y ∈ t.live p.window c.second, y ≠ x → x.2.age < y.2.age) ∧
      t.lost t' = t.buckets.filter fun y => isOver p.window c.second y.2 || y = x
  others : ∀ k b, k ≠ c.name → t'.get? k = some b → t.get? k = some b

theorem evicts_checkAt (ht : t.Tidy p.capacity) :
    Evicts p c t (checkAt p t c.name c.second).2 where
  known hknown := by
    have hkeys : (checkAt p t c.name c.second).2.keys = t.keys := keys_checkAt_of_mem ht hknown
    rw [lost, hkeys, List.filter_eq_nil_iff]
    intro x hx
    have hmem : x.1 ∈ t.keys := List.mem_map_of_mem hx
    simpa using hmem
  room hnew hroom := by
    have hall : t.buckets = t.buckets.filter fun _ => true := (List.filter_true _).symm
    rw [lost_checkAt ht hnew ((congrArg buckets (makeRoom_of_lt hroom)).trans hall)]
    exact List.filter_false _
  past hnew hfull hlive := by
    rw [lost_checkAt ht hnew (congrArg buckets (makeRoom_of_live_lt hfull hlive))]
    simp only [Bool.not_not]
  oldest hnew hfull hlive := by
    obtain ⟨x, hx, hage, hroom⟩ := ht.makeRoom_of_full p.capacity_pos hfull hlive
    have hbuckets : (without x.1 (t.live p.window c.second)) =
        t.buckets.filter fun y => y.1 != x.1 && !isOver p.window c.second y.2 :=
      List.filter_filter
    refine ⟨x, hx, hage, ?_⟩
    rw [lost_checkAt ht hnew ((congrArg buckets hroom).trans hbuckets)]
    refine List.filter_congr fun y hy => ?_
    have hxy : (y.1 == x.1) = decide (y = x) := by
      rw [beq_eq_decide, decide_eq_decide]
      exact ⟨ht.eq_of_key hy (List.filter_sublist.subset hx), fun heq => by rw [heq]⟩
    simp [bne, hxy, Bool.or_comm]
  others _ _ hne hget := get?_of_checkAt_of_ne ht.distinct hne hget

/-! ## The order in which the table is gone through -/

/-- Two tables hold the same, but perhaps in another order. -/
structure Reorders (u t : Table) : Prop where
  buckets : u.buckets.Perm t.buckets
  nextSeq : u.nextSeq = t.nextSeq

namespace Reorders

theorem refl (t : Table) : t.Reorders t := ⟨List.Perm.refl _, rfl⟩

theorem trans {s : Table} (h : u.Reorders t) (h' : s.Reorders u) : s.Reorders t :=
  ⟨h'.buckets.trans h.buckets, h'.nextSeq.trans h.nextSeq⟩

theorem tidy (h : u.Reorders t) (ht : t.Tidy capacity) : u.Tidy capacity where
  distinct := (h.buckets.map Prod.fst).nodup_iff.mpr ht.distinct
  numbered := (h.buckets.map _).nodup_iff.mpr ht.numbered
  below x hx := by
    rw [h.nextSeq]
    exact ht.below x (h.buckets.mem_iff.mp hx)
  size_le := h.buckets.length_eq.trans_le ht.size_le

theorem get? (h : u.Reorders t) (ht : t.Tidy capacity) (k : String) : u.get? k = t.get? k := by
  cases hget : u.get? k with
  | none =>
    have hkeys : u.keys.Perm t.keys := h.buckets.map Prod.fst
    exact (get?_eq_none_iff.mpr (hkeys.mem_iff.not.mp (get?_eq_none_iff.mp hget))).symm
  | some b => exact (get?_of_mem ht.distinct (h.buckets.mem_iff.mp (mem_of_get? hget))).symm

/-- Room is made by the same buckets: which one is the oldest depends on no order. -/
theorem makeRoom (h : u.Reorders t) (ht : t.Tidy capacity) (hpos : 0 < capacity)
    (window now : Nat) :
    (u.makeRoom window capacity now).Reorders (t.makeRoom window capacity now) := by
  have hsize : u.size = t.size := h.buckets.length_eq
  have hlive : (u.live window now).Perm (t.live window now) := h.buckets.filter _
  rcases Nat.lt_or_ge t.size capacity with hlt | hge
  · rwa [makeRoom_of_lt hlt, makeRoom_of_lt (hsize.trans_lt hlt)]
  have hge' : capacity ≤ u.size := hge.trans_eq hsize.symm
  rcases Nat.lt_or_ge (t.live window now).length capacity with hlt | hfull
  · rw [makeRoom_of_live_lt hge hlt, makeRoom_of_live_lt hge' (hlive.length_eq.trans_lt hlt)]
    exact ⟨hlive, h.nextSeq⟩
  · have hfull' : capacity ≤ (u.live window now).length := hfull.trans_eq hlive.length_eq.symm
    obtain ⟨x, hx, hold, hroom⟩ := ht.makeRoom_of_full hpos hge hfull
    obtain ⟨y, hy, hold', hroom'⟩ := (h.tidy ht).makeRoom_of_full hpos hge' hfull'
    have hxy : x = y := by
      by_contra hne
      have hlt := hold y (hlive.mem_iff.mp hy) (Ne.symm hne)
      exact lt_asymm hlt (hold' x (hlive.mem_iff.mpr hx) hne)
    rw [hroom, hroom', hxy]
    exact ⟨hlive.filter _, h.nextSeq⟩

/-- A call finds the same bucket, whatever the order is. -/
theorem prepare (h : u.Reorders t) (ht : t.Tidy p.capacity) :
    (prepare p u key now).1.Reorders (RateLimit.prepare p t key now).1 ∧
      (RateLimit.prepare p u key now).2 = (RateLimit.prepare p t key now).2 := by
  have hget := h.get? ht key
  cases htget : t.get? key with
  | some b =>
    rw [prepare_of_get? ht htget, prepare_of_get? (h.tidy ht) (hget.trans htget)]
    exact ⟨h, rfl⟩
  | none =>
    have hroom := h.makeRoom ht p.capacity_pos p.window now
    rw [prepare_of_none htget, prepare_of_none (hget.trans htget), h.nextSeq]
    exact ⟨⟨hroom.buckets.cons _, rfl⟩, rfl⟩

theorem checkAt (h : u.Reorders t) (ht : t.Tidy p.capacity) :
    (checkAt p u key now).1 = (RateLimit.checkAt p t key now).1 ∧
      (RateLimit.checkAt p u key now).2.Reorders (RateLimit.checkAt p t key now).2 := by
  obtain ⟨hprepare, hbucket⟩ : (RateLimit.prepare p u key now).1.Reorders
        (RateLimit.prepare p t key now).1 ∧
      (RateLimit.prepare p u key now).2 = (RateLimit.prepare p t key now).2 := h.prepare ht
  constructor
  · rw [RateLimit.checkAt, RateLimit.checkAt]
    dsimp only
    rw [hbucket]
    split
    · rfl
    · rfl
  · rw [checkAt_table, checkAt_table, hbucket]
    exact ⟨hprepare.buckets.map _, hprepare.nextSeq⟩

end Reorders
end Table

/-! ## Calls one after another -/

/-- The call puts its key into a table. -/
def Call.inserts (p : Policy) (t : Table) (c : Call) : Bool :=
  p.enabled && (t.get? c.name).isNone

/-- How many of some calls put their keys into a table. -/
def insertionsFrom (p : Policy) (t : Table) : List Call → Nat
  | [] => 0
  | c :: rest => (if c.inserts p t then 1 else 0) +
      insertionsFrom p (check p t c.key c.millis).2 rest

/-- How many of some calls put their keys into the table that is empty at first. -/
def insertions (p : Policy) (calls : List Call) : Nat := insertionsFrom p .empty calls

theorem insertions_snoc (p : Policy) (before : List Call) (c : Call) :
    insertions p (before ++ [c]) =
      insertions p before + if c.inserts p (run p before) then 1 else 0 := by
  have hfrom : ∀ t, insertionsFrom p t (before ++ [c]) = insertionsFrom p t before +
      if c.inserts p (before.foldl (fun t c => (check p t c.key c.millis).2) t) then 1 else 0 := by
    induction before with
    | nil =>
      intro t
      rw [List.nil_append, insertionsFrom, insertionsFrom, insertionsFrom]
      exact Nat.add_comm _ _
    | cons b rest ih =>
      intro t
      rw [List.cons_append, insertionsFrom, insertionsFrom, ih, List.foldl_cons, Nat.add_assoc]
  exact hfrom .empty

theorem insertions_le (p : Policy) (before after : List Call) :
    insertions p before ≤ insertions p (before ++ after) := by
  induction after using List.reverseRecOn with
  | nil => rw [List.append_nil]
  | append_singleton after c ih =>
    rw [← List.append_assoc, insertions_snoc]
    exact Nat.le_add_right_of_le ih

/-- The tables after some calls, if the order in which the table is gone through may be another one
at each call. -/
inductive Reached (p : Policy) : List Call → Table → Prop where
  | start : Reached p [] .empty
  | call {before : List Call} {t u : Table} (h : Reached p before t) (c : Call)
      (hu : u.Reorders (check p t c.key c.millis).2) : Reached p (before ++ [c]) u

/-! ## Runs -/

theorem run_of_disabled (he : p.enabled = false) (calls : List Call) : run p calls = .empty := by
  induction calls using List.reverseRecOn with
  | nil => rfl
  | append_singleton before c ih => simp [run_snoc, check, he, ih]

theorem tidy_check (ht : t.Tidy p.capacity)
    (hnext : c.inserts p t = true → t.nextSeq.toNat + 1 < UInt64.size) :
    (check p t c.key c.millis).2.Tidy p.capacity ∧
      (check p t c.key c.millis).2.nextSeq.toNat =
        t.nextSeq.toNat + if c.inserts p t then 1 else 0 := by
  cases he : p.enabled with
  | false => simpa [check, Call.inserts, he] using ht
  | true =>
    have hinserts : c.inserts p t = true ↔ t.get? c.name = none := by simp [Call.inserts, he]
    rw [check_of_enabled he]
    simp only [hinserts] at hnext ⊢
    exact Table.tidy_checkAt ht hnext

/-- The tables of a run are in order, and the next number is the number of keys put in so far. -/
theorem tidy_run (h : insertions p calls < UInt64.size) :
    (run p calls).Tidy p.capacity ∧ (run p calls).nextSeq.toNat = insertions p calls := by
  induction calls using List.reverseRecOn with
  | nil => exact ⟨Table.tidy_empty p.capacity, rfl⟩
  | append_singleton before c ih =>
    obtain ⟨htidy, hnext⟩ := ih (Nat.lt_of_le_of_lt (insertions_le p before [c]) h)
    rw [insertions_snoc] at h ⊢
    rw [run_snoc, ← hnext]
    refine tidy_check htidy fun hinserts => ?_
    rw [if_pos hinserts, ← hnext] at h
    exact h

theorem evicts_run (ht : (run p before).Tidy p.capacity) (c : Call) :
    Table.Evicts p c (run p before) (run p (before ++ [c])) := by
  cases he : p.enabled with
  | false =>
    have hpos := p.capacity_pos
    rw [run_of_disabled he, run_of_disabled he]
    exact ⟨fun _ => rfl, fun _ _ => rfl, fun _ hfull => absurd hfull (Nat.not_le.mpr hpos),
      fun _ hfull => absurd hfull (Nat.not_le.mpr hpos), fun _ _ _ h => h⟩
  | true =>
    rw [run_snoc, check_of_enabled he]
    exact Table.evicts_checkAt ht

theorem Table.Reorders.check (h : u.Reorders t) (ht : t.Tidy p.capacity) (c : Call) :
    (check p u c.key c.millis).1 = (RateLimit.check p t c.key c.millis).1 ∧
      (RateLimit.check p u c.key c.millis).2.Reorders (RateLimit.check p t c.key c.millis).2 := by
  cases he : p.enabled with
  | false => simpa [RateLimit.check, he] using h
  | true =>
    rw [check_of_enabled he, check_of_enabled he]
    exact h.checkAt ht

/-- Whatever the orders are, the table holds the same. -/
theorem Reached.reorders (h : Reached p calls u) (hcount : insertions p calls < UInt64.size) :
    u.Reorders (run p calls) := by
  induction h with
  | start => exact .refl _
  | @call before t u _ c hu ih =>
    have hbefore := Nat.lt_of_le_of_lt (insertions_le p before [c]) hcount
    rw [run_snoc]
    exact ((ih hbefore).check (tidy_run hbefore).1 c).2.trans hu

/-- In every run with fewer insertions than numbers the table is in order and within its bounds, a
call makes others go only as far as it has to, and neither the decisions nor the tables depend on
the order in which the table is gone through. -/
theorem run_evicts (hcount : insertions p calls < UInt64.size) :
    (run p calls).Tidy p.capacity ∧
    (∀ before c after, calls = before ++ c :: after →
      Table.Evicts p c (run p before) (run p (before ++ [c]))) ∧
    ∀ before c after u, calls = before ++ c :: after → Reached p before u →
      u.Reorders (run p before) ∧
        (check p u c.key c.millis).1 = (check p (run p before) c.key c.millis).1 := by
  have hbefore : ∀ before c after, calls = before ++ c :: after →
      insertions p before < UInt64.size := by
    rintro before c after rfl
    exact Nat.lt_of_le_of_lt (insertions_le p before (c :: after)) hcount
  refine ⟨(tidy_run hcount).1, ?_, ?_⟩
  · intro before c after hcalls
    exact evicts_run (tidy_run (hbefore before c after hcalls)).1 c
  · intro before c after u hcalls hu
    have hlt := hbefore before c after hcalls
    have hreorders := hu.reorders hlt
    exact ⟨hreorders, (hreorders.check (tidy_run hlt).1 c).1⟩

/-- There is room for two keys. The clock has stepped back before the second call, so the third one
throws out the bucket of an earlier window, and the fourth the older of two of the same window. -/
theorem run_evicts_stepped_back :
    (run ⟨true, 5, 60, 2⟩ [⟨"a", 60000⟩, ⟨"b", 59000⟩]).lost
        (run ⟨true, 5, 60, 2⟩ [⟨"a", 60000⟩, ⟨"b", 59000⟩, ⟨"c", 61000⟩]) = [("b", ⟨0, 1, 1⟩)] ∧
      (run ⟨true, 5, 60, 2⟩ [⟨"a", 60000⟩, ⟨"b", 59000⟩, ⟨"c", 61000⟩]).lost
        (run ⟨true, 5, 60, 2⟩ [⟨"a", 60000⟩, ⟨"b", 59000⟩, ⟨"c", 61000⟩, ⟨"d", 61000⟩]) =
          [("a", ⟨60, 1, 0⟩)] := by
  have hcount : insertions ⟨true, 5, 60, 2⟩
      [⟨"a", 60000⟩, ⟨"b", 59000⟩, ⟨"c", 61000⟩, ⟨"d", 61000⟩] < UInt64.size := by decide
  obtain ⟨-, hevicts, -⟩ := run_evicts hcount
  constructor
  · exact (hevicts [⟨"a", 60000⟩, ⟨"b", 59000⟩] _ _ rfl).past (by decide) (by decide) (by decide)
  · obtain ⟨x, hx, hage, hlost⟩ :=
      (hevicts [⟨"a", 60000⟩, ⟨"b", 59000⟩, ⟨"c", 61000⟩] _ _ rfl).oldest (by decide) (by decide)
        (by decide)
    have hlive : x = ("c", ⟨60, 1, 2⟩) ∨ x = ("a", ⟨60, 1, 0⟩) := by
      simpa using (show x ∈ [("c", (⟨60, 1, 2⟩ : Bucket)), ("a", ⟨60, 1, 0⟩)] from hx)
    rcases hlive with rfl | rfl
    · exact absurd (hage ("a", ⟨60, 1, 0⟩) (by decide) (by decide)) (by decide)
    · exact hlost

end Paymaster.RateLimit

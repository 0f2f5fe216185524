import Paymaster.Proofs.RateLimit.Eviction
/-!
# When to come back

A caller that is denied is told how many seconds are left of the window. A window ends at a multiple
of its length, so the sum of the second and the answer is such a multiple: nobody is let in before
that second, unless the table has forgotten the caller, and the caller is let in from then on. The
numbers involved are words of 64 bits, or of 32 for the count; a second is a word of milliseconds
divided by a thousand, which leaves room for the end of a window however long the windows are.
-/

namespace Paymaster.RateLimit

variable {p : Policy} {t : Table} {k key : String} {now : Nat} {before mid calls : List Call}
  {c d : Call}

/-! ## Arithmetic of words -/

/-- The sum of two numbers, if it is below a size. -/
def sum? (size a b : Nat) : Option Nat := if a + b < size then some (a + b) else none

/-- The difference of two numbers, if it is not negative. -/
def difference? (a b : Nat) : Option Nat := if b ≤ a then some (a - b) else none

/-- The sum of two numbers, cut off at the largest one below a size. -/
def cappedSum (size a b : Nat) : Nat := min (a + b) (size - 1)

namespace Table

/-- The bucket of the window is over at a second, where the end of the window is cut off at 64
bits. -/
def isOverCapped (window now : Nat) (b : Bucket) : Bool :=
  cappedSum UInt64.size b.start window ≤ now

/-- The table with room for one more key, by any rule that says which buckets have ended. -/
def makeRoomBy (ended : Bucket → Bool) (t : Table) (capacity : Nat) : Table :=
  if t.size < capacity then t
  else
    let kept := t.buckets.filter fun x => !ended x.2
    if kept.length < capacity then { t with buckets := kept }
    else
      match oldest? kept with
      | none => { t with buckets := kept }
      | some (key, _) => { t with buckets := without key kept }

theorem makeRoomBy_isOver (t : Table) (window capacity now : Nat) :
    t.makeRoomBy (isOver window now) capacity = t.makeRoom window capacity now := rfl

/-- A window whose end is cut off is not over at any second that words of milliseconds reach. -/
theorem isOverCapped_eq (window : Nat) (hnow : now < UInt64.size - 1) :
    isOverCapped window now = isOver window now := by
  funext b
  rw [isOverCapped, isOver, cappedSum, decide_eq_decide]
  omega

end Table

/-- Finds the bucket of a key as `prepare` does, but with words: there is none if a difference leaves
its range. The sum that says whether a window is over is cut off, and the number of the next key wraps
around. -/
def prepareWords? (p : Policy) (t : Table) (key : String) (now : Nat) : Option (Table × Bucket) := do
  let start ← difference? now (now % p.window)
  let (t, b) := match t.get? key with
    | some b => (t, b)
    | none => (t.makeRoomBy (Table.isOverCapped p.window now) p.capacity).insert key start
  return (t.advance b, if b.start = start then b else ⟨start, 0, b.seq⟩)

/-- Decides about a call at a second as `checkAt` does, but with words: there is no answer if a sum
or a difference leaves its range. The wait is what is left of the window. -/
def checkAtWords? (p : Policy) (t : Table) (key : String) (now : Nat) :
    Option (Decision × Table) := do
  let (t, b) ← prepareWords? p t key now
  if p.limit ≤ b.count then
    let stop ← sum? UInt64.size b.start p.window
    let wait ← difference? stop now
    return (⟨false, wait⟩, t.set key b)
  else
    let count ← sum? UInt32.size b.count 1
    return (Decision.allow, t.set key { b with count })

theorem Policy.window_lt (p : Policy) : p.window < UInt64.size := by
  have hlt := p.windowSeconds.toNat_lt_size
  have hsize : UInt64.size = 18446744073709551616 := rfl
  rw [Policy.window]
  omega

theorem Policy.limit_pos (p : Policy) : 0 < p.limit := by
  rw [Policy.limit]
  omega

theorem Policy.limit_lt (p : Policy) : p.limit < UInt32.size := by
  have hlt := p.maxRequests.toNat_lt_size
  have hsize : UInt32.size = 4294967296 := rfl
  rw [Policy.limit]
  omega

/-! ## Windows -/

theorem windowStart_le (window now : Nat) : windowStart window now ≤ now := Nat.sub_le ..

theorem lt_windowStart_add (p : Policy) (now : Nat) :
    now < windowStart p.window now + p.window := by
  have hmod := Nat.mod_lt now p.window_pos
  rw [windowStart]
  omega

theorem dvd_windowStart (window now : Nat) : window ∣ windowStart window now := by
  rw [windowStart_eq]
  exact Nat.dvd_mul_right ..

/-- A multiple of the length that has been reached lies in no later window. -/
theorem le_windowStart {m : Nat} (hdvd : p.window ∣ m) (hle : m ≤ now) :
    m ≤ windowStart p.window now := by
  obtain ⟨j, rfl⟩ := hdvd
  rw [windowStart_eq]
  exact Nat.mul_le_mul_left _ ((Nat.le_div_iff_mul_le p.window_pos).mpr (Nat.mul_comm .. ▸ hle))

/-- Seconds of one window have the same first second. -/
theorem windowStart_eq_of_mem {s : Nat} (hle : s ≤ now)
    (hlt : now < windowStart p.window s + p.window) :
    windowStart p.window now = windowStart p.window s := by
  have hstart := le_windowStart (dvd_windowStart p.window s) ((windowStart_le _ s).trans hle)
  by_contra hne
  -- Otherwise the later window begins where the earlier one ends, or behind it.
  have hnext : windowStart p.window s + p.window ≤ windowStart p.window now := by
    obtain ⟨i, hi⟩ := dvd_windowStart p.window s
    obtain ⟨j, hj⟩ := dvd_windowStart p.window now
    rw [hi, hj] at hstart hne ⊢
    have hij : i < j := by
      refine lt_of_le_of_ne (Nat.le_of_mul_le_mul_left hstart p.window_pos) fun heq => ?_
      exact hne (by rw [heq])
    rw [← Nat.mul_succ]
    exact Nat.mul_le_mul_left _ hij
  exact absurd hlt (Nat.not_lt.mpr (hnext.trans (windowStart_le _ now)))

/-- The end of a window fits into a word. -/
theorem windowStart_add_lt (p : Policy) (hnow : 2 * now < UInt64.size) :
    windowStart p.window now + p.window < UInt64.size := by
  have hwindow := p.window_lt
  rcases Nat.lt_or_ge now p.window with hlt | hge
  · rw [windowStart, Nat.mod_eq_of_lt hlt, Nat.sub_self, Nat.zero_add]
    exact hwindow
  · have hle := windowStart_le p.window now
    omega

theorem Call.two_mul_second_lt (c : Call) : 2 * c.second < UInt64.size := by
  have hlt := c.millis.toNat_lt_size
  have hsize : UInt64.size = 18446744073709551616 := rfl
  rw [Call.second, millisPerSecond]
  omega

theorem prepareWords?_eq (p : Policy) (t : Table) (key : String) (hnow : 2 * now < UInt64.size) :
    prepareWords? p t key now = some (prepare p t key now) := by
  have hstart : difference? now (now % p.window) = some (windowStart p.window now) :=
    if_pos (Nat.mod_le now p.window)
  have hover : Table.isOverCapped p.window now = Table.isOver p.window now := by
    have hsize : UInt64.size = 18446744073709551616 := rfl
    exact Table.isOverCapped_eq p.window (by omega)
  rw [prepareWords?, hstart, hover]
  rfl

/-- With words a call is decided as with numbers of any size. -/
theorem checkAtWords?_eq (p : Policy) (t : Table) (key : String) (hnow : 2 * now < UInt64.size) :
    checkAtWords? p t key now = some (checkAt p t key now) := by
  have hstart : (prepare p t key now).2.start = windowStart p.window now := prepare_start
  have hend := lt_windowStart_add p now
  rw [checkAtWords?, checkAt, prepareWords?_eq p t key hnow]
  generalize prepare p t key now = found at hstart
  obtain ⟨t, b⟩ := found
  dsimp only at hstart
  simp only [Option.bind_eq_bind, Option.bind_some, hstart]
  split
  · have hstop : sum? UInt64.size (windowStart p.window now) p.window =
        some (windowStart p.window now + p.window) := if_pos (windowStart_add_lt p hnow)
    have hwait : difference? (windowStart p.window now + p.window) now =
        some (max (windowStart p.window now + p.window - now) 1) := by
      rw [difference?, if_pos hend.le, Nat.max_eq_left (by omega)]
    rw [hstop, Option.bind_some, hwait]
    rfl
  · have hlimit := p.limit_lt
    have hcount : sum? UInt32.size b.count 1 = some (b.count + 1) := if_pos (by omega)
    rw [hcount]
    rfl

/-! ## Denials -/

/-- A denied caller is told how many seconds are left of the window. -/
theorem retryAfter_of_denied (h : (check p t c.key c.millis).1.allowed = false) :
    c.second + (check p t c.key c.millis).1.retryAfter =
      windowStart p.window c.second + p.window := by
  cases he : p.enabled with
  | false => simp [check, he, Decision.allow] at h
  | true =>
    have hstart : (prepare p t c.name c.second).2.start = windowStart p.window c.second :=
      prepare_start
    have hend := lt_windowStart_add p c.second
    rw [check_of_enabled he] at h ⊢
    rw [checkAt] at h ⊢
    dsimp only at h ⊢
    split at h
    · rename_i hfull
      rw [if_pos hfull, hstart]
      dsimp only
      omega
    · simp [Decision.allow] at h

/-- The seconds that a call, made behind some others, is told to wait. -/
def wait (p : Policy) (before : List Call) (c : Call) : Nat :=
  (check p (run p before) c.key c.millis).1.retryAfter

theorem add_wait_of_denied (h : ¬Allowed p before c) :
    c.second + wait p before c = windowStart p.window c.second + p.window :=
  retryAfter_of_denied (Bool.eq_false_iff.mpr h)

theorem enabled_of_denied (h : ¬Allowed p before c) : p.enabled = true := by
  by_contra he
  exact h (by simp [Allowed, check, he, Decision.allow])

/-! ## Calls after a denial -/

theorem run_snoc_of_enabled (he : p.enabled = true) (before : List Call) (c : Call) :
    run p (before ++ [c]) = (checkAt p (run p before) c.name c.second).2 := by
  rw [run_snoc, check_of_enabled he]

/-- Every bucket ends within a word. -/
theorem start_add_lt (calls : List Call) (k : String) (b : Bucket)
    (hget : (run p calls).get? k = some b) : b.start + p.window < UInt64.size := by
  induction calls using List.reverseRecOn generalizing b with
  | nil => cases hget
  | append_singleton before c ih =>
    cases he : p.enabled with
    | false =>
      rw [run_of_disabled he] at hget
      cases hget
    | true =>
      rw [run_snoc_of_enabled he] at hget
      by_cases hk : k = c.name
      · subst hk
        obtain ⟨seq, hself⟩ := get?_checkAt_self p (run p before) c.name c.second
        rw [hself] at hget
        cases hget
        exact windowStart_add_lt p c.two_mul_second_lt
      · exact ih b (get?_of_checkAt_of_ne (distinct_run he before) hk hget)

/-- Until its caller may come back, a denied call leaves behind no bucket of a later window,
whatever others do. -/
theorem start_lt_of_denied (h : ¬Allowed p before c)
    (hown : ∀ b ∈ mid, b.name = c.name → b.second < c.second + wait p before c) (b : Bucket)
    (hget : (run p (before ++ c :: mid)).get? c.name = some b) :
    b.start < c.second + wait p before c := by
  have he := enabled_of_denied h
  induction mid using List.reverseRecOn generalizing b with
  | nil =>
    obtain ⟨seq, hself⟩ := get?_checkAt_self p (run p before) c.name c.second
    rw [run_snoc_of_enabled he, hself] at hget
    cases hget
    rw [add_wait_of_denied h]
    exact Nat.lt_add_of_pos_right p.window_pos
  | append_singleton mid e ih =>
    have hown' : ∀ b ∈ mid, b.name = c.name → b.second < c.second + wait p before c :=
      fun b hb => hown b (List.mem_append_left _ hb)
    rw [← List.cons_append, ← List.append_assoc, run_snoc_of_enabled he] at hget
    by_cases hname : c.name = e.name
    · obtain ⟨seq, hself⟩ := get?_checkAt_self p (run p (before ++ c :: mid)) e.name e.second
      rw [hname, hself] at hget
      cases hget
      exact Nat.lt_of_le_of_lt (windowStart_le _ _) (hown e (by simp) hname.symm)
    · exact ih hown' b (get?_of_checkAt_of_ne (distinct_run he _) hname hget)

/-- The first call of a denied caller that comes when it may is allowed. -/
theorem allowed_of_wait_le (h : ¬Allowed p before c) (hname : d.name = c.name)
    (hown : ∀ b ∈ mid, b.name = c.name → b.second < c.second + wait p before c)
    (hle : c.second + wait p before c ≤ d.second) : Allowed p (before ++ c :: mid) d := by
  have hdvd : p.window ∣ c.second + wait p before c := by
    rw [add_wait_of_denied h]
    exact (Nat.dvd_add_self_right).mpr (dvd_windowStart p.window c.second)
  have hwindow := le_windowStart hdvd hle
  rw [allowed_iff (enabled_of_denied h), hname, Table.countAt]
  cases hget : (run p (before ++ c :: mid)).get? c.name with
  | none => exact p.limit_pos
  | some b =>
    have hlt := start_lt_of_denied h hown b hget
    dsimp only
    rw [if_neg (by omega)]
    exact p.limit_pos

/-- The key has a bucket after some calls, and after each of those that follow. -/
def Stays (p : Policy) (before after : List Call) (k : String) : Prop :=
  ∀ part, part <+: after → k ∈ (run p (before ++ part)).keys

/-- As long as it stays in the table, the bucket of a denied caller stays full up to the end of the
window. -/
theorem full_of_denied (h : ¬Allowed p before c)
    (hclock : ∀ b ∈ mid, c.second ≤ b.second ∧ b.second < c.second + wait p before c)
    (hstays : Stays p (before ++ [c]) mid c.name) : ∃ b,
    (run p (before ++ c :: mid)).get? c.name = some b ∧
      b.start = windowStart p.window c.second ∧ p.limit ≤ b.count := by
  have he := enabled_of_denied h
  induction mid using List.reverseRecOn with
  | nil =>
    obtain ⟨seq, hself⟩ := get?_checkAt_self p (run p before) c.name c.second
    have hcount : p.limit ≤ (run p before).countAt p c.name c.second := by
      rwa [allowed_iff he, Nat.not_lt] at h
    refine ⟨_, (congrArg (·.get? c.name) (run_snoc_of_enabled he before c)).trans hself, rfl, ?_⟩
    rwa [Policy.afterCall, if_neg (Nat.not_lt.mpr hcount)]
  | append_singleton mid e ih =>
    obtain ⟨b, hget, hstart, hcount⟩ := ih (fun b hb => hclock b (List.mem_append_left _ hb))
      fun part hpart => hstays part (hpart.trans (List.prefix_append _ _))
    have hsecond := hclock e (by simp)
    rw [add_wait_of_denied h] at hsecond
    rw [← List.cons_append, ← List.append_assoc, run_snoc_of_enabled he]
    by_cases hname : c.name = e.name
    · obtain ⟨seq, hself⟩ := get?_checkAt_self p (run p (before ++ c :: mid)) e.name e.second
      have hwindow := windowStart_eq_of_mem hsecond.1 hsecond.2
      have hfull : p.limit ≤ (run p (before ++ c :: mid)).countAt p e.name e.second := by
        rw [← hname, Table.countAt, hget]
        dsimp only
        rwa [if_pos (hstart.trans hwindow.symm)]
      refine ⟨_, (congrArg (Table.get? _) hname).trans hself, hwindow, ?_⟩
      rwa [Policy.afterCall, if_neg (Nat.not_lt.mpr hfull)]
    · rcases get?_checkAt_of_ne p e.second (distinct_run he (before ++ c :: mid)) hname with
        hnone | hsame
      · -- The caller's bucket has not gone.
        have hkey := hstays (mid ++ [e]) (List.prefix_refl _)
        rw [List.append_assoc, List.singleton_append, ← List.cons_append, ← List.append_assoc,
          run_snoc_of_enabled he] at hkey
        exact absurd hkey (Table.get?_eq_none_iff.mp hnone)
      · exact ⟨b, hsame.trans hget, hstart, hcount⟩

/-- A denied caller that stays in the table is denied until it may come back. -/
theorem denied_of_lt_wait (h : ¬Allowed p before c) (hname : d.name = c.name)
    (hclock : ∀ b ∈ mid ++ [d], c.second ≤ b.second ∧ b.second < c.second + wait p before c)
    (hstays : Stays p (before ++ [c]) mid c.name) : ¬Allowed p (before ++ c :: mid) d := by
  obtain ⟨b, hget, hstart, hcount⟩ :=
    full_of_denied h (fun b hb => hclock b (List.mem_append_left _ hb)) hstays
  have hsecond := hclock d (by simp)
  rw [add_wait_of_denied h] at hsecond
  have hwindow := windowStart_eq_of_mem hsecond.1 hsecond.2
  rw [allowed_iff (enabled_of_denied h), hname, Table.countAt, hget, Nat.not_lt]
  dsimp only
  rwa [if_pos (hstart.trans hwindow.symm)]

theorem Call.second_mono (h : c.millis ≤ d.millis) : c.second ≤ d.second :=
  Nat.div_le_div_right (UInt64.le_iff_toNat_le.mp h)

/-- The wait that a denied caller is told is exact, and no number on the way to it leaves the range
of a word. In every state of the table a call is decided with words as it is with numbers of any
size; in the tables of a run not even the sum that would be cut off is, and the number that would
wrap around counts the insertions as long as there are fewer than it can count. A wait is at least a
second and at most a window, and ends with the window. The first call of the caller that comes when
it may is allowed, whatever others did; one that comes earlier, on a clock that does not step back,
is denied, unless the table has forgotten the caller in between. -/
theorem retry_after_exact (p : Policy) :
    (∀ (t : Table) (key : String) (millis : UInt64),
      checkAtWords? p t key (millis.toNat / millisPerSecond) =
        some (checkAt p t key (millis.toNat / millisPerSecond))) ∧
    (∀ calls k b, (run p calls).get? k = some b → b.start + p.window < UInt64.size) ∧
    (∀ calls, insertions p calls < UInt64.size →
      (run p calls).nextSeq.toNat = insertions p calls) ∧
    (∀ (t : Table) (c : Call), (check p t c.key c.millis).1.allowed = false →
      1 ≤ (check p t c.key c.millis).1.retryAfter ∧
      (check p t c.key c.millis).1.retryAfter ≤ p.window ∧
      p.window ∣ c.second + (check p t c.key c.millis).1.retryAfter) ∧
    ∀ before c, ¬Allowed p before c → ∀ mid d, d.name = c.name →
      ((∀ b ∈ mid, b.name = c.name → b.second < c.second + wait p before c) →
        c.second + wait p before c ≤ d.second → Allowed p (before ++ c :: mid) d) ∧
      ((c :: (mid ++ [d])).Pairwise (fun a b => a.millis ≤ b.millis) →
        d.second < c.second + wait p before c → Stays p (before ++ [c]) mid c.name →
        ¬Allowed p (before ++ c :: mid) d) := by
  refine ⟨?_, start_add_lt, fun calls hcount => (tidy_run hcount).2, ?_, ?_⟩
  · intro t key millis
    exact checkAtWords?_eq p t key (Call.two_mul_second_lt ⟨key, millis⟩)
  · intro t c hdenied
    have hend := retryAfter_of_denied hdenied
    have hlt := lt_windowStart_add p c.second
    have hle := windowStart_le p.window c.second
    refine ⟨by omega, by omega, ?_⟩
    rw [hend]
    exact Nat.dvd_add_self_right.mpr (dvd_windowStart p.window c.second)
  · intro before c hdenied mid d hname
    refine ⟨allowed_of_wait_le hdenied hname, ?_⟩
    intro hclock hlt hstays
    obtain ⟨hafter, hrest⟩ := List.pairwise_cons.mp hclock
    have hlast := (List.pairwise_append.mp hrest).2.2
    refine denied_of_lt_wait hdenied hname (fun b hb => ⟨Call.second_mono (hafter b hb), ?_⟩) hstays
    rcases List.mem_append.mp hb with hmid | hd
    · exact Nat.lt_of_le_of_lt (Call.second_mono (hlast b hmid d (by simp))) hlt
    · rwa [List.mem_singleton.mp hd]

/-- The window ends twenty seconds after the second call. Another caller does not change that: in the
last millisecond before the end the caller is denied once more, and then it is allowed. -/
theorem retry_after_exact_shared :
    wait ⟨true, 1, 60, 2⟩ [⟨"a", 100000⟩] ⟨"a", 100500⟩ = 20 ∧
      ¬Allowed ⟨true, 1, 60, 2⟩ [⟨"a", 100000⟩, ⟨"a", 100500⟩, ⟨"b", 110000⟩] ⟨"a", 119999⟩ ∧
      Allowed ⟨true, 1, 60, 2⟩ [⟨"a", 100000⟩, ⟨"a", 100500⟩, ⟨"b", 110000⟩, ⟨"a", 119999⟩]
        ⟨"a", 120000⟩ := by
  obtain ⟨-, -, -, -, hlater⟩ := retry_after_exact ⟨true, 1, 60, 2⟩
  have hdenied : ¬Allowed ⟨true, 1, 60, 2⟩ [⟨"a", 100000⟩] ⟨"a", 100500⟩ := by decide
  have hstays : Stays ⟨true, 1, 60, 2⟩ [⟨"a", 100000⟩, ⟨"a", 100500⟩] [⟨"b", 110000⟩] "a" := by
    intro part hpart
    have hparts : part = [] ∨ part = [⟨"b", 110000⟩] := by
      simpa [List.prefix_cons_iff] using hpart
    rcases hparts with rfl | rfl
    · decide
    · decide
  exact ⟨by decide,
    (hlater _ _ hdenied [⟨"b", 110000⟩] ⟨"a", 119999⟩ (by decide)).2 (by decide) (by decide) hstays,
    (hlater _ _ hdenied [⟨"b", 110000⟩, ⟨"a", 119999⟩] ⟨"a", 120000⟩ (by decide)).1 (by decide)
      (by decide)⟩

/-- With room for one key the table has forgotten the caller, which is let in at once. -/
example : Allowed ⟨true, 1, 60, 1⟩ [⟨"a", 100000⟩, ⟨"a", 100500⟩, ⟨"b", 110000⟩]
    ⟨"a", 110000⟩ := by decide

end Paymaster.RateLimit

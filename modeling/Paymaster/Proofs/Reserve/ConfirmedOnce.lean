import Paymaster.Proofs.Reserve.Accounts
import Paymaster.Proofs.Reserve.Cooldown
import Paymaster.Proofs.Reserve.LastTaken
/-!
# How often a deposit is seen to arrive

A wait that ends well forgets its record, in memory and in the file, so that no later wait can end
well before there is another deposit. The file can refuse to be removed. The controller goes on all
the same, and since a record in the file is always waited for, the same deposit may then be seen to
arrive once more. So a run is followed here together with the records that were left in the file
behind waits that ended well, each told by the deposit that it is of.

A deposit is told from the others by its place: the first one that the bridge takes has the number
one, and zero stands for the record that the file held at the start. What carries the argument is a
credit for each number: it is one while the deposit with the number is waited for or would be waited
for by the next tick. A deposit gives it, a wait that ends well takes it, and a record that is left
behind gives it again. Since the law holds for every choice of numbers, it holds for each deposit
and for all of them.
-/

namespace Paymaster.Reserve

variable {ω σ : Type}

/-! ## Events of some deposits -/

/-- How often an event happened while the number of the last deposit was one of those chosen. -/
def happenedFor (S : Nat → Bool) (e : BridgeEvent) : List JournalEntry → Nat
  | [] => 0
  | x :: earlier => happenedFor S e earlier +
      if x.act.event? = some e ∧ S (happened .submitted (x :: earlier)) then 1 else 0

theorem happenedFor_true (e : BridgeEvent) (journal : List JournalEntry) :
    happenedFor (fun _ => true) e journal = happened e journal := by
  induction journal with
  | nil => rfl
  | cons x earlier ih =>
    rw [happenedFor, ih, happened, happened, List.countP_cons]
    simp

/-- Each number from one on is that of one deposit, as far as there are so many. -/
theorem happenedFor_submitted (n : Nat) (journal : List JournalEntry) :
    happenedFor (· == n) .submitted journal =
      if 0 < n ∧ n ≤ happened .submitted journal then 1 else 0 := by
  induction journal with
  | nil =>
    rw [if_neg (by simp [happened]; omega)]
    rfl
  | cons x earlier ih =>
    obtain ⟨time, a⟩ := x
    rw [happenedFor, ih]
    by_cases hsubmitted : a.event? = some .submitted
    · have hcons := happened_cons hsubmitted time earlier .submitted
      rw [if_pos rfl] at hcons
      rw [hcons]
      simp only [hsubmitted, true_and, beq_iff_eq]
      split <;> split <;> split <;> omega
    · have hcons : happened .submitted (⟨time, a⟩ :: earlier) = happened .submitted earlier := by
        simp [happened, hsubmitted]
      rw [hcons]
      simp [hsubmitted]

/-- From one journal to another no deposit was taken and no wait ended well. -/
def Uneventful (before after : List JournalEntry) : Prop := ∀ S,
  happenedFor S .confirmed after = happenedFor S .confirmed before ∧
    happenedFor S .submitted after = happenedFor S .submitted before

namespace Uneventful

variable {a : Act} {time : Nat} {before middle after : List JournalEntry}

theorem refl (journal : List JournalEntry) : Uneventful journal journal := fun _ => ⟨rfl, rfl⟩

theorem trans (h : Uneventful before middle) (h' : Uneventful middle after) :
    Uneventful before after :=
  fun S => ⟨(h' S).1.trans (h S).1, (h' S).2.trans (h S).2⟩

theorem cons (hconfirmed : a.event? ≠ some .confirmed) (hsubmitted : a.event? ≠ some .submitted) :
    Uneventful before (⟨time, a⟩ :: before) := by
  intro S
  rw [happenedFor, happenedFor, if_neg fun h => hconfirmed h.1, if_neg fun h => hsubmitted h.1]
  exact ⟨rfl, rfl⟩

theorem cons_of_none (h : a.event? = none) : Uneventful before (⟨time, a⟩ :: before) :=
  cons (by simp [h]) (by simp [h])

theorem confirmed (h : Uneventful before after) :
    happened .confirmed after = happened .confirmed before := by
  rw [← happenedFor_true, ← happenedFor_true]
  exact (h _).1

theorem submitted (h : Uneventful before after) :
    happened .submitted after = happened .submitted before := by
  rw [← happenedFor_true, ← happenedFor_true]
  exact (h _).2

end Uneventful

/-! ## Records that are left behind -/

/-- The file on a disk holds a record. -/
def StateFile.holds (path : String) (d : Disk) : Bool := load path d matches .ok (some _)

/-- The number of the last deposit, if a wait has ended well between two states of a controller and
the file still holds a record. -/
def Controller.leftBehind (path : String) (disk : σ → Disk) (c c' : Controller ω σ) : List Nat :=
  if happened .confirmed c.journal < happened .confirmed c'.journal ∧
    StateFile.holds path (disk c'.store) then [happened .submitted c'.journal] else []

/-- A run of a session, with the numbers of the deposits whose records were left in the file behind
waits that ended well, the latest first. -/
inductive Session.RunLeaving (k : Charter ω σ) (path : String) (disk : σ → Disk)
    (s : Session ω σ) : List Nat → Session ω σ → Prop where
  | start : RunLeaving k path disk s [] s
  | step {behind : List Nat} {s' s'' : Session ω σ} (h : RunLeaving k path disk s behind s')
      (hstep : Step k path disk s' s'') :
      RunLeaving k path disk s (s'.controller.leftBehind path disk s''.controller ++ behind) s''

variable {k : Charter ω σ} {t : Moment} {path : String} {disk : σ → Disk} {c c' : Controller ω σ}
  {g g' : Stage} {S : Nat → Bool} {d : Int} {behind : List Nat} {r : BridgeRecord}

/-- In every run some records, or none, were left behind. -/
theorem Session.Run.exists_leaving {s s' : Session ω σ} (h : Run k path disk s s') :
    ∃ behind, RunLeaving k path disk s behind s' := by
  induction h with
  | refl => exact ⟨[], .start⟩
  | tail _ hstep ih =>
    obtain ⟨behind, hrun⟩ := ih
    exact ⟨_, hrun.step hstep⟩

theorem Session.RunLeaving.run {s s' : Session ω σ} (h : RunLeaving k path disk s behind s') :
    Run k path disk s s' := by
  induction h with
  | start => exact .refl
  | step _ hstep ih => exact ih.tail hstep

theorem Session.RunLeaving.step_of_eq {more : List Nat} {s s' s'' : Session ω σ}
    (h : RunLeaving k path disk s behind s') (hstep : Step k path disk s' s'')
    (hleft : s'.controller.leftBehind path disk s''.controller = more) :
    RunLeaving k path disk s (more ++ behind) s'' := by
  rw [← hleft]
  exact h.step hstep

namespace Controller

theorem leftBehind_of_eq (h : happened .confirmed c'.journal = happened .confirmed c.journal) :
    c.leftBehind path disk c' = [] := by
  rw [leftBehind, if_neg]
  rintro ⟨hlt, -⟩
  omega

theorem of_leftBehind (h : c.leftBehind path disk c' ≠ []) :
    happened .confirmed c.journal < happened .confirmed c'.journal ∧
      StateFile.holds path (disk c'.store) = true := by
  apply Classical.byContradiction
  intro hnot
  exact h (if_neg hnot)

/-- What is left behind when a wait has ended well is what the file holds. -/
theorem countP_leftBehind
    (hlt : happened .confirmed c.journal < happened .confirmed c'.journal) :
    (c.leftBehind path disk c').countP S =
      if S (happened .submitted c'.journal) = true ∧ StateFile.holds path (disk c'.store) = true
        then 1 else 0 := by
  rw [leftBehind]
  by_cases hholds : StateFile.holds path (disk c'.store) = true
  · rw [if_pos ⟨hlt, hholds⟩, List.countP_singleton]
    simp [hholds]
  · rw [if_neg fun h => hholds h.2, if_neg fun h => hholds h.2]
    rfl

theorem next?_isSome (h : c.unpersisted = none) :
    (c.next? path disk).isSome = StateFile.holds path (disk c.store) := by
  rw [next?, h, StateFile.holds]
  cases StateFile.load path (disk c.store) with
  | error why => rfl
  | ok kept => cases kept <;> rfl

/-- Loading the record leaves what is waited for next as it is. -/
theorem next?_loaded (hs : k.store.Durable path disk)
    {answer : Except StoreError (Option BridgeRecord)} {store : σ}
    (hload : k.store.load c.store = (answer, store)) (hunpersisted : c'.unpersisted = c.unpersisted)
    (hstore : c'.store = store) : c'.next? path disk = c.next? path disk := by
  refine next?_congr hunpersisted ?_
  have hfile := hs.load_load (x := c.store)
  rw [hload] at hfile
  rw [hstore]
  exact hfile

theorem next?_of_loaded (hs : k.store.Durable path disk) (hunpersisted : c.unpersisted = none)
    {kept : Option BridgeRecord} {store : σ} (hload : k.store.load c.store = (.ok kept, store)) :
    c.next? path disk = kept :=
  next?_of_load hunpersisted (hs.load_ok c.store kept (by rw [hload]))

theorem next?_isSome_of_loaded (hs : k.store.Durable path disk) {store : σ}
    (hload : k.store.load c.store = (.ok (some r), store)) :
    (c.next? path disk).isSome = true := by
  cases hr : c.unpersisted with
  | some r' => rw [next?_of_unpersisted hr, Option.isSome_some]
  | none => rw [next?_of_loaded hs hr hload, Option.isSome_some]

end Controller

/-! ## The credit -/

def Tick.waits : Tick → Bool
  | .bridging _ _ | .resuming _ _ => true
  | .reading _ | .depositing _ _ _ => false

def Stage.waits : Stage → Bool
  | .idle => false
  | .recovering _ => true
  | .ticking ticks => ticks.any Tick.waits

/-- A tick reads the balance or asks for a deposit. -/
def Stage.asks : Stage → Bool
  | .ticking ticks => ticks.any fun x => !x.waits
  | .idle | .recovering _ => false

/-- One if the deposit with a chosen number is waited for, or would be waited for next. -/
def Stage.credit (path : String) (disk : σ → Disk) (S : Nat → Bool) (g : Stage)
    (c : Controller ω σ) : Nat :=
  if S (happened .submitted c.journal) = true ∧
    (g.waits = true ∨ (c.next? path disk).isSome = true) then 1 else 0

/-- The credit of a stage at which something is waited for. -/
def Controller.lastCredit (S : Nat → Bool) (c : Controller ω σ) : Nat :=
  if S (happened .submitted c.journal) = true then 1 else 0

theorem Stage.credit_le (path : String) (disk : σ → Disk) (S : Nat → Bool) (g : Stage)
    (c : Controller ω σ) : g.credit path disk S c ≤ c.lastCredit S := by
  rw [Stage.credit, Controller.lastCredit]
  split <;> split <;> simp_all

theorem Stage.credit_of_next (h : (c.next? path disk).isSome = true) :
    g.credit path disk S c = c.lastCredit S := by
  simp [Stage.credit, Controller.lastCredit, h]

theorem Stage.credit_of_waits (h : g.waits = true) :
    g.credit path disk S c = c.lastCredit S := by
  simp [Stage.credit, Controller.lastCredit, h]

theorem Stage.credit_of_not_waits (h : g.waits = false) : g.credit path disk S c =
    if S (happened .submitted c.journal) = true ∧ (c.next? path disk).isSome = true
      then 1 else 0 := by
  simp [Stage.credit, h]

/-- The waits for chosen deposits that ended well are covered by these deposits, but for a number
`d`, with the credit left over; a tick that goes to make a deposit has found no record. -/
structure Covered (path : String) (disk : σ → Disk) (S : Nat → Bool) (d : Int) (g : Stage)
    (c : Controller ω σ) : Prop where
  confirmed_le : (happenedFor S .confirmed c.journal + g.credit path disk S c : Int) ≤
    happenedFor S .submitted c.journal + d
  next_eq : g.asks = true → c.next? path disk = none

namespace Covered

theorem of_same (h : Covered path disk S d g c) (hjournal : c'.journal = c.journal)
    (hnext : c'.next? path disk = c.next? path disk) : Covered path disk S d g c' := by
  have hcredit : g.credit path disk S c' = g.credit path disk S c := by
    rw [Stage.credit, Stage.credit, hnext, hjournal]
  refine ⟨?_, ?_⟩
  · rw [hjournal, hcredit]
    exact h.confirmed_le
  · rw [hnext]
    exact h.next_eq

/-- The credit of a wait is enough, since there is never more. -/
theorem of_le (hle : (happenedFor S .confirmed c.journal + c.lastCredit S : Int) ≤
    happenedFor S .submitted c.journal + d) (hasks : g.asks = false) :
    Covered path disk S d g c := by
  constructor
  · have hcredit := g.credit_le path disk S c
    omega
  · intro h
    rw [hasks] at h
    cases h

theorem waiting (h : Covered path disk S d g c)
    (hcredit : g.credit path disk S c = c.lastCredit S) (hnews : Uneventful c.journal c'.journal)
    (hasks : g'.asks = false) : Covered path disk S d g' c' := by
  have hle := h.confirmed_le
  have hlast : c'.lastCredit S = c.lastCredit S := by
    rw [Controller.lastCredit, Controller.lastCredit, hnews.submitted]
  refine of_le ?_ hasks
  rw [(hnews S).1, (hnews S).2, hlast, ← hcredit]
  exact hle

/-- A deposit gives the credit for its own number. -/
theorem deposited (h : Covered path disk S d g c) {e : JournalEntry}
    (he : e.act.event? = some .submitted) (hnews : Uneventful (e :: c.journal) c'.journal)
    (hasks : g'.asks = false) : Covered path disk S d g' c' := by
  have hle := h.confirmed_le
  have hconfirmed : happenedFor S .confirmed (e :: c.journal) =
      happenedFor S .confirmed c.journal := by
    rw [happenedFor, if_neg (by simp [he])]
    rfl
  have hsubmitted : happenedFor S .submitted (e :: c.journal) =
      happenedFor S .submitted c.journal + c'.lastCredit S := by
    rw [happenedFor, Controller.lastCredit, hnews.submitted]
    simp [he]
  refine of_le ?_ hasks
  rw [(hnews S).1, (hnews S).2, hconfirmed, hsubmitted]
  omega

/-- Nothing is waited for, and no record is kept. -/
theorem asking (h : Covered path disk S d g c) (hnews : Uneventful c.journal c'.journal)
    (hnext : c'.next? path disk = none) (hwaits : g'.waits = false) :
    Covered path disk S d g' c' := by
  refine ⟨?_, fun _ => hnext⟩
  have hle := h.confirmed_le
  rw [Stage.credit_of_not_waits hwaits, hnext, (hnews S).1, (hnews S).2]
  simp only [Option.isSome_none, Bool.false_eq_true, and_false, if_false]
  omega

end Covered

/-! ## One step -/

/-- What a step may come to: the waits that ended well are covered again, but for the record that
was left behind; and if one of them ended in this step, then nothing is waited for any more, and the
file is what a removal has made of it. -/
structure Follows (k : Charter ω σ) (path : String) (disk : σ → Disk) (S : Nat → Bool) (d : Int)
    (c : Controller ω σ) (g' : Stage) (c' : Controller ω σ) : Prop where
  covered : Covered path disk S (d + (c.leftBehind path disk c').countP S) g' c'
  settled : happened .confirmed c.journal < happened .confirmed c'.journal →
    g'.waits = false ∧ c'.unpersisted = none ∧ ∃ x, c'.store = (k.store.clear x).2

theorem Covered.follows (h : Covered path disk S d g' c')
    (hconfirmed : happened .confirmed c'.journal = happened .confirmed c.journal) :
    Follows k path disk S d c g' c' := by
  refine ⟨?_, fun hlt => ?_⟩
  · rw [Controller.leftBehind_of_eq hconfirmed, List.countP_nil, Int.natCast_zero, Int.add_zero]
    exact h
  · omega

namespace Follows

theorem of_confirmed {c₁ : Controller ω σ} (h : Follows k path disk S d c₁ g' c')
    (heq : happened .confirmed c₁.journal = happened .confirmed c.journal) :
    Follows k path disk S d c g' c' := by
  have hleft : c.leftBehind path disk c' = c₁.leftBehind path disk c' := by
    rw [Controller.leftBehind, Controller.leftBehind, heq]
  refine ⟨?_, ?_⟩
  · rw [hleft]
    exact h.covered
  · rw [← heq]
    exact h.settled

theorem endFlight (h : Follows k path disk S d c g' c') :
    Follows k path disk S d c g' c'.endFlight :=
  ⟨⟨h.covered.confirmed_le, h.covered.next_eq⟩, h.settled⟩

/-- A wait that is settled uses the credit up, unless its record stays in the file. -/
theorem settle {result : WaitResult} {outside : ω} {view : OpsView} {now : Nat}
    (hle : (happenedFor S .confirmed c.journal + c.lastCredit S : Int) ≤
      happenedFor S .submitted c.journal + d)
    (hwaits : g'.waits = false) (hasks : g'.asks = false) :
    Follows k path disk S d c g'
      ({ c with outside, view }.settle k.store k.policy.cooldown now r result) := by
  have hjournal := Controller.journal_settle k.store k.policy.cooldown now r result
    { c with outside, view }
  by_cases hstatus : result.status = .confirmed
  · have hact : (Act.waited r result).event? = some .confirmed := by
      rw [Act.event?, hstatus]
      rfl
    have hstate := Controller.settle_confirmed k.store k.policy.cooldown now r hstatus
      { c with outside, view }
    generalize { c with outside, view }.settle k.store k.policy.cooldown now r result = c' at *
    have hnone : c'.unpersisted = none := by rw [hstate]
    have hlt : happened .confirmed c.journal < happened .confirmed c'.journal := by
      rw [hjournal, happened_cons hact, if_pos rfl]
      exact Nat.lt_succ_self _
    have hsame : happened .submitted c'.journal = happened .submitted c.journal := by
      rw [hjournal, happened_cons hact, if_neg (by simp)]
      rfl
    have hconfirmed : happenedFor S .confirmed c'.journal =
        happenedFor S .confirmed c.journal + c.lastCredit S := by
      rw [hjournal] at hsame ⊢
      rw [happenedFor, hsame, Controller.lastCredit]
      simp [hact]
    have hsubmitted : happenedFor S .submitted c'.journal = happenedFor S .submitted c.journal := by
      rw [hjournal, happenedFor, if_neg (by simp [hact])]
      rfl
    refine ⟨⟨?_, ?_⟩, fun _ => ⟨hwaits, hnone, ⟨c.store, by rw [hstate]⟩⟩⟩
    · -- What is left behind is the credit for the next wait.
      have hleft : (c.leftBehind path disk c').countP S = g'.credit path disk S c' := by
        rw [Stage.credit_of_not_waits hwaits, Controller.next?_isSome hnone,
          Controller.countP_leftBehind hlt]
      rw [hconfirmed, hsubmitted, hleft]
      omega
    · intro h
      rw [hasks] at h
      cases h
  · have hact : (Act.waited r result).event? ≠ some .confirmed := by
      intro h
      exact hstatus (event_eq_iff.mp (Option.some.inj h))
    have hnews : Uneventful c.journal ({ c with outside, view }.settle k.store k.policy.cooldown now
        r result).journal := by
      rw [hjournal]
      refine .cons hact ?_
      cases hended : result.status <;> simp [Act.event?, WaitStatus.event, hended]
    refine Covered.follows (Covered.of_le ?_ hasks) hnews.confirmed
    rw [(hnews S).1, (hnews S).2, Controller.lastCredit, hnews.submitted]
    exact hle

end Follows

theorem WaitMove.covered {x y : Wait} (hmove : WaitMove k t r x c (.pending y) c')
    (h : Covered path disk S d g c) (hg : g.waits = true) (hasks : g'.asks = false) :
    Covered path disk S d g' c' := by
  cases hmove with
  | pending => exact h.waiting (Stage.credit_of_waits hg) (.refl _) hasks

theorem WaitMove.follows_done {x : Wait} {result : WaitResult}
    (hmove : WaitMove k t r x c (.done result) c') (h : Covered path disk S d g c)
    (hg : g.waits = true) (hwaits : g'.waits = false) (hasks : g'.asks = false) :
    Follows k path disk S d c g' c' := by
  have hle := h.confirmed_le
  rw [Stage.credit_of_waits hg] at hle
  cases hmove with
  | done => exact Follows.settle hle hwaits hasks

namespace Tick

theorem Opening.uneventful {p : Progress Tick TickOutcome} (hopen : Opening k t c p c') :
    Uneventful c.journal c'.journal := by
  cases hopen with
  | retried =>
    rw [Controller.journal_persist]
    exact .cons_of_none rfl
  | taken | unloaded | resumed | reads => exact .refl _

theorem Opening.covered (hs : k.store.Durable path disk) {p : Progress Tick TickOutcome}
    (hopen : Opening k t c p c') (h : Covered path disk S d (.ticking []) c) :
    Covered path disk S d (.ticking (left p)) c' := by
  have hnews := hopen.uneventful
  cases hopen with
  | taken => exact h
  | retried hflag hr =>
    have hnext : c.next? path disk = some _ := Controller.next?_of_unpersisted hr
    exact h.waiting (Stage.credit_of_next (by rw [hnext]; rfl)) hnews rfl
  | unloaded hflag hr hload => exact h.of_same rfl (Controller.next?_loaded hs hload rfl rfl)
  | resumed hflag hr hload =>
    have hnext := Controller.next?_of_loaded hs hr hload
    exact h.waiting (Stage.credit_of_next (by rw [hnext]; rfl)) hnews rfl
  | @reads store hflag hr hload =>
    have hnext := Controller.next?_of_loaded hs hr hload
    have hsame : Controller.next? path disk { c.takeFlight with store } = c.next? path disk :=
      Controller.next?_loaded hs hload rfl rfl
    exact h.asking hnews (hsame.trans hnext) rfl

theorem Move.confirmed_eq {x y : Tick} (hmove : Move k t c x (.pending y) c') :
    happened .confirmed c'.journal = happened .confirmed c.journal := by
  cases hmove with
  | reads => rfl
  | asks => exact (happened_cons_of_none rfl _).trans (happened_cons_of_none rfl _)
  | deposits => rfl
  | accepted =>
    rw [accept, Controller.journal_persist]
    exact (happened_cons_of_none rfl _).trans (happened_cons (e := .submitted) rfl _ _ _)
  | bridges hwait => cases hwait; rfl
  | resumes hwait => cases hwait; rfl

theorem Move.covered {x y : Tick}
    (hmove : Move k t c x (.pending y) c') (h : Covered path disk S d (.ticking [x]) c) :
    Covered path disk S d (.ticking [y]) c' := by
  cases hmove with
  | reads => exact h.asking (.refl _) (h.next_eq rfl) rfl
  | asks => exact h.asking (.trans (.cons_of_none rfl) (.cons_of_none rfl)) (h.next_eq rfl) rfl
  | deposits => exact h.asking (.refl _) (h.next_eq rfl) rfl
  | @accepted balance secret _ receipt =>
    let noted : JournalEntry := ⟨t.now, .deposited (k.depositOf t balance secret receipt)⟩
    refine h.deposited (e := noted) rfl ?_ rfl
    rw [accept, Controller.journal_persist]
    exact .cons_of_none rfl
  | bridges hwait => exact hwait.covered h rfl rfl
  | resumes hwait => exact hwait.covered h rfl rfl

/-- A tick that does not wait leaves no record. -/
theorem Covered.leaves {x : Tick} (h : Covered path disk S d (.ticking [x]) c)
    (hx : x.waits = false) (hnews : Uneventful c.journal c'.journal)
    (hnext : c'.next? path disk = c.next? path disk) :
    Follows k path disk S d c (.ticking []) c' := by
  have hnone : c.next? path disk = none := h.next_eq (by simp [Stage.asks, hx])
  exact (h.asking hnews (hnext.trans hnone) rfl).follows hnews.confirmed

theorem Move.follows {x : Tick} {o : TickOutcome} (hmove : Move k t c x (.done o) c')
    (h : Covered path disk S d (.ticking [x]) c) : Follows k path disk S d c (.ticking []) c' := by
  cases hmove with
  | unread | cools | enough => exact Covered.leaves h rfl (.cons_of_none rfl) rfl
  | @refused _ _ _ why =>
    have hnews : Uneventful c.journal (⟨t.now, .refused why⟩ :: c.journal) :=
      .cons (by simp [Act.event?]) (by simp [Act.event?])
    exact Covered.leaves h rfl hnews rfl
  | bridged hwait => exact (hwait.follows_done h rfl rfl rfl).endFlight
  | resumed hwait => exact (hwait.follows_done h rfl rfl rfl).endFlight

theorem Moves.follows {p q : Progress Tick TickOutcome}
    (hmoves : Moves k t p c q c') (h : Covered path disk S d (.ticking (left p)) c) :
    Follows k path disk S d c (.ticking (left q)) c' := by
  induction hmoves with
  | none => exact h.follows rfl
  | @more x p q c c₁ c₂ hmove hmoves ih =>
    cases p with
    | done o =>
      cases hmoves
      exact hmove.follows h
    | pending y =>
      exact (ih (hmove.covered h)).of_confirmed hmove.confirmed_eq

end Tick

namespace Recovery

theorem Opening.covered (hs : k.store.Durable path disk)
    {p : Progress Recovery (Except StoreError (Option WaitResult))} (hopen : Opening k t c p c')
    (h : Covered path disk S d .idle c) : Covered path disk S d (.ofRecovery p) c' := by
  cases hopen with
  | unloaded hload => exact h.of_same rfl (Controller.next?_loaded hs hload rfl rfl)
  | nothing hload => exact h.of_same rfl (Controller.next?_loaded hs hload rfl rfl)
  | found hload hflag | foundTaken hload hflag =>
    have hnext := Controller.next?_isSome_of_loaded hs hload
    exact h.waiting (Stage.credit_of_next hnext) (.refl _) rfl

theorem Opening.journal {p : Progress Recovery (Except StoreError (Option WaitResult))}
    (hopen : Opening k t c p c') : c'.journal = c.journal := by
  cases hopen <;> rfl

theorem Move.follows {x : Recovery} {p : Progress Recovery (Except StoreError (Option WaitResult))}
    (hmove : Move k t c x p c') (h : Covered path disk S d (.recovering x) c) :
    Follows k path disk S d c (.ofRecovery p) c' := by
  cases hmove with
  | waits hwait =>
    have hsame : c'.journal = c.journal := by
      cases hwait
      rfl
    exact (hwait.covered h rfl rfl).follows (by rw [hsame])
  | ends hwait =>
    have hend : Follows k path disk S d c .idle _ := hwait.follows_done h rfl rfl rfl
    cases x.holdsFlag with
    | true => exact hend.endFlight
    | false => exact hend

end Recovery

/-! ## Runs -/

namespace Session

theorem follows_of_step (hs : k.store.Durable path disk) {s s' : Session ω σ}
    (h : Step k path disk s s') (hl : s.stage.Lone s.controller)
    (hi : Covered path disk S d s.stage s.controller) :
    Follows k path disk S d s.controller s'.stage s'.controller := by
  cases h with
  | drifts h _ => exact (hi.of_same h.journal h.next?).follows (by rw [h.journal])
  | @recovers c t _ =>
    obtain ⟨p, c₁, hopen, hrest⟩ := Recovery.start_moves (k := k) (t := t) c
    have hopened := hopen.covered hs hi
    cases p with
    | pending x => exact (Recovery.Move.follows hrest hopened).of_confirmed (by rw [hopen.journal])
    | done a =>
      simp only [hrest]
      exact hopened.follows (by rw [hopen.journal])
  | @recovery c x t _ => exact (Recovery.poll_move x c).follows hi
  | ready => exact Covered.follows ⟨hi.confirmed_le, fun h => (by cases h)⟩ rfl
  | @ticks c others t _ =>
    rcases others with _ | ⟨x, _ | ⟨y, rest⟩⟩
    · obtain ⟨p, c₁, hopen, hmoves⟩ := Tick.start_moves (k := k) (t := t) c
      exact (hmoves.follows (hopen.covered hs hi)).of_confirmed hopen.uneventful.confirmed
    · -- The flag is taken, so the new tick ends at once.
      have hflag : c.inFlight = true := hl
      have hstart : Tick.start k t c = (.done .skippedInFlight, c) := by
        rw [Tick.start, Controller.beginFlight?_eq, if_pos hflag]
      simp only [hstart, Tick.left, List.append_nil]
      exact hi.follows rfl
    · exact hl.elim
  | @tick c before after x t _ =>
    rcases before with _ | ⟨y, _ | ⟨z, rest⟩⟩
    · rcases after with _ | ⟨y, rest⟩
      · simp only [List.nil_append, List.append_nil] at hl hi ⊢
        exact (Tick.poll_moves x c).follows hi
      · exact hl.elim
    · exact hl.elim
    · exact hl.elim

theorem RunLeaving.covered (hs : k.store.Durable path disk) {s s' : Session ω σ}
    (h : RunLeaving k path disk s behind s') (hl : s.stage.Lone s.controller)
    (hi : Covered path disk S d s.stage s.controller) :
    s'.stage.Lone s'.controller ∧
      Covered path disk S (d + behind.countP S) s'.stage s'.controller := by
  induction h with
  | start =>
    rw [List.countP_nil, Int.natCast_zero, Int.add_zero]
    exact ⟨hl, hi⟩
  | @step behind s' s'' hrun hstep ih =>
    refine ⟨hstep.lone ih.1, ?_⟩
    have hnext := (follows_of_step hs hstep ih.1 ih.2).covered
    rw [List.countP_append, Int.natCast_add, Int.add_comm (List.countP S _ : Int), ← Int.add_assoc]
    exact hnext

/-- At the start the credit is that of the record that the file holds. -/
theorem covered_start (path : String) (disk : σ → Disk) (S : Nat → Bool) (staleAfter : Nat)
    (outside : ω) (store : σ) :
    Covered path disk S
      (if S 0 = true ∧ StateFile.holds path (disk store) = true then 1 else 0) .idle
      (Controller.initial staleAfter outside store) := by
  refine ⟨?_, fun hasks => (by cases hasks)⟩
  rw [Stage.credit_of_not_waits rfl, Controller.next?_isSome rfl]
  show ((0 : Nat) + ((if S 0 = true ∧ StateFile.holds path (disk store) = true
    then 1 else 0 : Nat)) : Int) ≤ (0 : Nat) + _
  split <;> omega

/-- After a wait that ended well the credit is that of the record that was left behind. -/
theorem covered_of_step (hs : k.store.Durable path disk) {s s' : Session ω σ}
    (h : Step k path disk s s') (hl : s.stage.Lone s.controller)
    (hi : Covered path disk S d s.stage s.controller)
    (hlt : happened .confirmed s.controller.journal < happened .confirmed s'.controller.journal) :
    Covered path disk S (happenedFor S .confirmed s'.controller.journal -
      happenedFor S .submitted s'.controller.journal +
        (s.controller.leftBehind path disk s'.controller).countP S)
      s'.stage s'.controller := by
  have hnext := follows_of_step hs h hl hi
  obtain ⟨hwaits, hnone, -⟩ := hnext.settled hlt
  refine ⟨?_, hnext.covered.next_eq⟩
  rw [Stage.credit_of_not_waits hwaits, Controller.next?_isSome hnone,
    Controller.countP_leftBehind hlt]
  omega

def count (s : Session ω σ) (e : BridgeEvent) : Nat := s.controller.view.readiness.events.count e

theorem Run.count_eq {staleAfter : Nat} {outside : ω} {store : σ} {s : Session ω σ}
    (h : Run k path disk (start staleAfter outside store) s) (e : BridgeEvent) :
    s.count e = happened e s.controller.journal :=
  h.accounts.happened_eq e

/-- The law for the deposit with one number: it gives the credit for one wait, or the record that the
file held at the start does, if the number is zero. -/
theorem each_le_of_covered {store : σ} {n : Nat} {s : Session ω σ}
    (h : Covered path disk (· == n)
      ((if (0 == n) = true ∧ StateFile.holds path (disk store) = true then 1 else 0) +
        behind.countP (· == n)) s.stage s.controller) :
    happenedFor (· == n) .confirmed s.controller.journal ≤
      (if n = 0 then (if StateFile.holds path (disk store) then 1 else 0) else 1) +
        behind.count n := by
  have hle := h.confirmed_le
  rw [happenedFor_submitted] at hle
  rw [List.count]
  rcases Nat.eq_zero_or_pos n with rfl | hpos
  · rw [if_neg (by omega)] at hle
    rw [if_pos rfl]
    simp only [beq_self_eq_true, true_and] at hle
    split at hle <;> split <;> omega
  · rw [if_neg hpos.ne']
    have hfirst : (0 == n) = false := by simp [hpos.ne]
    simp only [hfirst, Bool.false_eq_true, false_and, if_false] at hle
    split at hle <;> omega

/-- A record is left behind only if the file could not be removed. -/
theorem clear_error_of_leftBehind (hs : k.store.OnFile path disk) {s s' : Session ω σ}
    (hstep : Step k path disk s s') (hl : s.stage.Lone s.controller)
    (hi : Covered path disk S d s.stage s.controller)
    (hleft : s.controller.leftBehind path disk s'.controller ≠ []) :
    ∃ x why, k.store.clear x = (.error why, s'.controller.store) := by
  obtain ⟨hlt, hholds⟩ := Controller.of_leftBehind hleft
  obtain ⟨-, -, x, hx⟩ := (follows_of_step hs.durable hstep hl hi).settled hlt
  cases hclear : (k.store.clear x).1 with
  | error why => exact ⟨x, why, Prod.ext hclear hx.symm⟩
  | ok done =>
    have hnone := StateFile.load_of_clear (hs.clear_ok x hclear)
    rw [StateFile.holds, hx, hnone] at hholds
    cases hholds

/-- Along every run each deposit, and the record that the file held at the start, is seen to arrive
once at most, but for the times that its record could not be removed after such a wait: so often a
wait ends well between this deposit and the next, and each wait is for the last deposit before it.
In all, the waits that end well are covered by deposits, by the record that the file held at the
start, and by the records that could not be removed. After a wait that ended well, others do so only
for further deposits, or because a record could not be removed since. The cooldown runs from the
last of these waits. -/
theorem run_confirms_once (hs : k.store.OnFile path disk) {staleAfter : Nat} {outside : ω}
    {store : σ} {s : Session ω σ}
    (h : RunLeaving k path disk (start staleAfter outside store) behind s) :
    (∀ n, happenedFor (· == n) .confirmed s.controller.journal ≤
        (if n = 0 then (if StateFile.holds path (disk store) then 1 else 0) else 1) +
          behind.count n) ∧
      (∀ later time r result earlier,
        s.controller.journal = later ++ ⟨time, .waited r result⟩ :: earlier →
          lastTaken ((start staleAfter outside store).controller.next? path disk) earlier =
            some r) ∧
      s.count .confirmed ≤
        s.count .submitted + (if StateFile.holds path (disk store) then 1 else 0) + behind.length ∧
      (∀ s₁ more s₂, Step k path disk s s₁ → s.count .confirmed < s₁.count .confirmed →
        RunLeaving k path disk s₁ more s₂ →
        s₂.count .confirmed + s₁.count .submitted ≤ s₁.count .confirmed + s₂.count .submitted +
          ((s.controller.leftBehind path disk s₁.controller).length + more.length)) ∧
      (∀ s₁, Step k path disk s s₁ → s.controller.leftBehind path disk s₁.controller ≠ [] →
        ∃ x why, k.store.clear x = (.error why, s₁.controller.store)) ∧
      s.controller.cooldownUntil =
        (lastArrival s.controller.journal).map (· + k.policy.cooldown) := by
  have hrun := h.run
  have hcovered (S : Nat → Bool) := h.covered hs.durable (lone_start staleAfter outside store)
    (covered_start path disk S staleAfter outside store)
  obtain ⟨hl, hi⟩ := hcovered fun _ => true
  have hpaced := ((kept_paces k path disk).run hrun (lone_start staleAfter outside store)
    ⟨⟨rfl, trivial⟩, trivial⟩).2
  refine ⟨?_, ?_, ?_, ?_, ?_, hpaced.1.cooldown⟩
  · exact fun n => each_le_of_covered (hcovered (· == n)).2
  · intro later time r result earlier hjournal
    have hlast := Run.onLast hs hrun
    rw [hjournal] at hlast
    exact hlast.of_append.1 r result rfl
  · have hle := hi.confirmed_le
    rw [happenedFor_true, happenedFor_true, List.countP_true] at hle
    rw [hrun.count_eq, hrun.count_eq]
    simp only [true_and] at hle
    split at hle <;> split <;> omega
  · intro s₁ more s₂ hstep hlt hcourse
    have hrun₁ : Run k path disk (start staleAfter outside store) s₁ := hrun.tail hstep
    have hrun₂ : Run k path disk (start staleAfter outside store) s₂ := hrun₁.trans hcourse.run
    rw [hrun.count_eq, hrun₁.count_eq] at hlt
    have hbase := covered_of_step hs.durable hstep hl hi hlt
    obtain ⟨-, hend⟩ := hcourse.covered hs.durable (hstep.lone hl) hbase
    have hle := hend.confirmed_le
    simp only [happenedFor_true, List.countP_true] at hle
    rw [hrun₁.count_eq, hrun₁.count_eq, hrun₂.count_eq, hrun₂.count_eq]
    omega
  · exact fun s₁ hstep hleft => clear_error_of_leftBehind hs hstep hl hi hleft

/-- A record that an earlier process has left. -/
def stuckRecord : BridgeRecord := ⟨0, 50, 1, 2, 0, 0⟩

/-- The balance has risen. The file can be read, but cannot be removed at first. -/
def stuckStart (d : Disk) : Session Offline ShakyDisk :=
  start 3000 ⟨.scripted ⟨.ok ⟨1⟩, [.ok 1], [], []⟩, .simulated {}⟩ ⟨d, [true, false]⟩

/-- The controller after a recovery at the start. -/
def stuckWaited (d : Disk) : Controller Offline ShakyDisk :=
  (Recovery.poll offlineCharter ⟨0, 0, false, 0⟩
    ⟨stuckRecord, offlineCharter.resume stuckRecord ⟨0, 0, false, 0⟩, true⟩
    { (stuckStart d).controller.takeFlight with store := ⟨d, [false]⟩ }).2

def stuckResumed (d : Disk) : Controller Offline ShakyDisk :=
  (Tick.pollResuming offlineCharter ⟨1000, 1000, false, 0⟩ stuckRecord
    (offlineCharter.resume stuckRecord ⟨1000, 1000, false, 0⟩)
    { (stuckWaited d).takeFlight with store := ⟨d, []⟩ }).2

section Stuck

variable {d d' : Disk}

theorem step_stuckWaited (hd : StateFile.load offlinePath d = .ok (some stuckRecord)) :
    Step offlineCharter offlinePath ShakyDisk.disk (stuckStart d) ⟨stuckWaited d, .idle⟩ := by
  have hload : offlineCharter.store.load (stuckStart d).controller.store =
      (.ok (some stuckRecord), ⟨d, [false]⟩) := by
    simp [offlineCharter, stuckStart, start, Controller.initial, ShakyDisk.store, ShakyDisk.attempt,
      hd]
  have hstart : Recovery.start offlineCharter ⟨0, 0, false, 0⟩ (stuckStart d).controller =
      Recovery.poll offlineCharter ⟨0, 0, false, 0⟩
        ⟨stuckRecord, offlineCharter.resume stuckRecord ⟨0, 0, false, 0⟩, true⟩
        { (stuckStart d).controller.takeFlight with store := ⟨d, [false]⟩ } := by
    rw [Recovery.start, hload]
    rfl
  have hstep : Step offlineCharter offlinePath ShakyDisk.disk (stuckStart d)
      ⟨(Recovery.start offlineCharter ⟨0, 0, false, 0⟩ (stuckStart d).controller).2, .ofRecovery
        (Recovery.start offlineCharter ⟨0, 0, false, 0⟩ (stuckStart d).controller).1⟩ :=
    .recovers _ trivial
  rw [hstart] at hstep
  exact hstep

theorem step_stuckResumed (hd : StateFile.load offlinePath d = .ok (some stuckRecord)) :
    Step offlineCharter offlinePath ShakyDisk.disk ⟨stuckWaited d, .ticking []⟩
      ⟨stuckResumed d, .ticking []⟩ := by
  have hload : offlineCharter.store.load (stuckWaited d).store =
      (.ok (some stuckRecord), ⟨d, []⟩) := by
    show (ShakyDisk.store offlinePath).load ⟨d, []⟩ = _
    simp [ShakyDisk.store, ShakyDisk.attempt, hd]
  have hstep : Step offlineCharter offlinePath ShakyDisk.disk ⟨stuckWaited d, .ticking []⟩ _ :=
    .ticks ⟨1000, 1000, false, 0⟩ trivial
  rw [Tick.start_of_free rfl, show (stuckWaited d).unpersisted = none from rfl, hload] at hstep
  exact hstep

theorem leftBehind_stuckWaited (hd : StateFile.load offlinePath d = .ok (some stuckRecord)) :
    (stuckStart d).controller.leftBehind offlinePath ShakyDisk.disk (stuckWaited d) = [0] := by
  have hholds : StateFile.holds offlinePath d = true := by
    rw [StateFile.holds, hd]
  exact if_pos ⟨Nat.zero_lt_one, hholds⟩

theorem leftBehind_stuckResumed (hclear : StateFile.clear offlinePath d = (.ok (), d')) :
    (stuckWaited d).leftBehind offlinePath ShakyDisk.disk (stuckResumed d) = [] := by
  have hgone : StateFile.load offlinePath (stuckResumed d).store.disk = .ok none := by
    have hstore : (stuckResumed d).store = ((ShakyDisk.store offlinePath).clear ⟨d, []⟩).2 := rfl
    rw [hstore]
    simp [ShakyDisk.store, ShakyDisk.attempt, hclear, StateFile.load_of_clear hclear]
  refine if_neg ?_
  rintro ⟨-, hholds⟩
  rw [StateFile.holds, hgone] at hholds
  cases hholds

theorem count_stuckResumed (d : Disk) (g : Stage) :
    (⟨stuckResumed d, g⟩ : Session Offline ShakyDisk).count .submitted = 0 ∧
      (⟨stuckResumed d, g⟩ : Session Offline ShakyDisk).count .confirmed = 2 :=
  ⟨rfl, rfl⟩

end Stuck

/-- There is a disk with the record, whose file can be removed. -/
theorem exists_stuckDisk : ∃ d d', StateFile.load offlinePath d = .ok (some stuckRecord) ∧
    StateFile.clear offlinePath d = (.ok (), d') := by
  have hsave : StateFile.save offlinePath stuckRecord .empty = (.ok (), _) := rfl
  exact ⟨_, _, StateFile.load_of_save hsave, Prod.ext (StateFile.clear_of_save hsave) rfl⟩

/-- The record of a wait that ended well could not be removed, so the next tick waits for it again,
and sees it arrive once more: two arrivals, for one record that was found and no deposit. -/
theorem confirmed_twice : ∃ (d : Disk) (s : Session Offline ShakyDisk),
    offlineCharter.store.OnFile offlinePath ShakyDisk.disk ∧
      StateFile.load offlinePath d = .ok (some stuckRecord) ∧
      Run offlineCharter offlinePath ShakyDisk.disk (stuckStart d) s ∧
      s.count .submitted = 0 ∧ s.count .confirmed = 2 := by
  obtain ⟨d, -, hload, -⟩ := exists_stuckDisk
  obtain ⟨hsubmitted, hconfirmed⟩ := count_stuckResumed d (.ticking [])
  exact ⟨_, _, ShakyDisk.onFile_store offlinePath, hload,
    .tail (.tail (.single (step_stuckWaited hload)) .ready) (step_stuckResumed hload), hsubmitted,
    hconfirmed⟩

/-- The record that was found was left behind once, and with it the bounds are met: that of the
record and that of all waits. -/
theorem run_confirms_once_stuck : ∃ (d : Disk) (s : Session Offline ShakyDisk),
    StateFile.load offlinePath d = .ok (some stuckRecord) ∧
      RunLeaving offlineCharter offlinePath ShakyDisk.disk (stuckStart d) [0] s ∧
      happenedFor (· == 0) .confirmed s.controller.journal = 2 ∧
      happenedFor (· == 0) .confirmed s.controller.journal ≤ 1 + 1 ∧
      s.count .confirmed = 2 ∧ s.count .confirmed ≤ s.count .submitted + 1 + 1 := by
  obtain ⟨d, d', hload, hclear⟩ := exists_stuckDisk
  have hwaited : RunLeaving offlineCharter offlinePath ShakyDisk.disk (stuckStart d) [0]
      ⟨stuckWaited d, .idle⟩ :=
    .step_of_eq .start (step_stuckWaited hload) (leftBehind_stuckWaited hload)
  have hready : RunLeaving offlineCharter offlinePath ShakyDisk.disk (stuckStart d) [0]
      ⟨stuckWaited d, .ticking []⟩ :=
    hwaited.step_of_eq .ready (Controller.leftBehind_of_eq rfl)
  have hresumed : RunLeaving offlineCharter offlinePath ShakyDisk.disk (stuckStart d) [0]
      ⟨stuckResumed d, .ticking []⟩ :=
    hready.step_of_eq (step_stuckResumed hload) (leftBehind_stuckResumed hclear)
  obtain ⟨-, hconfirmed⟩ := count_stuckResumed d (.ticking [])
  have hholds : StateFile.holds offlinePath d = true := by
    rw [StateFile.holds, hload]
  obtain ⟨heach, -, hall, -⟩ := run_confirms_once (ShakyDisk.onFile_store offlinePath) hresumed
  have hfirst := heach 0
  rw [if_pos rfl, if_pos (by exact hholds)] at hfirst
  rw [if_pos (by exact hholds)] at hall
  exact ⟨d, _, hload, hresumed, rfl, hfirst, hconfirmed, hall⟩

end Session
end Paymaster.Reserve

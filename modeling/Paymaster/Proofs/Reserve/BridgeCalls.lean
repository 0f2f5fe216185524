import Paymaster.Proofs.Reserve.OneDeposit
/-!
# Calls of the bridge

The journal of a controller says when the bridge was asked for a deposit and what it answered. To
compare this with the bridge itself, its link is wrapped so that it writes down how it is called.
The answer may be late: then the same question is looked at again, until a look finds the answer. So
the first call with a question asks it and the last one settles it, and that is what a log of calls
tells. In every run it is what the journal tells.

Between two moves there is a moment at which they differ: a tick has noted its question and has not
called yet. So a move is shown to keep what the log would tell if it had the call that is due, and a
step of a tick is shown to end only behind that call.
-/

namespace Paymaster

variable {ω : Type}

namespace Bridge

/-- A call of a link to a bridge, with the answer if it is there. -/
structure BridgeCall where
  request : DepositRequest
  /-- When the request was made. -/
  since : Nat
  /-- When the bridge was looked at. -/
  now : Nat
  answer : Option (Except BridgeError DepositReceipt)

/-- The same link, writing down how it is called, the latest call first. -/
def BridgeLink.recorded (link : BridgeLink ω) : BridgeLink (ω × List BridgeCall) where
  deposit request since now x :=
    let answer := link.deposit request since now x.1
    (answer.1, answer.2, ⟨request, since, now, answer.1⟩ :: x.2)

/-- What is said to a bridge, and by it. -/
inductive Dealing where
  | asked (request : DepositRequest)
  | refused (why : BridgeError)
  | taken (request : DepositRequest) (receipt : DepositReceipt)

/-- The bridge is asked. -/
def Dealing.isAsked : Dealing → Bool
  | .asked _ => true
  | _ => false

namespace BridgeCall

variable {call last : BridgeCall} {calls earlier : List BridgeCall} {request : DepositRequest}
  {since now now' : Nat} {answer : Option (Except BridgeError DepositReceipt)}

/-- The last of the earlier calls had the same question, and found no answer. -/
def repeats (call : BridgeCall) : List BridgeCall → Bool
  | [] => false
  | last :: _ => last.answer.isNone && last.request = call.request && last.since = call.since

/-- The answer that a call has found, with its time. -/
def settled (call : BridgeCall) : List (Nat × Dealing) :=
  match call.answer with
  | none => []
  | some (.error why) => [(call.now, .refused why)]
  | some (.ok receipt) => [(call.now, .taken call.request receipt)]

/-- The question of a call with the time at which it was asked, unless it was asked before. -/
def opened (call : BridgeCall) (earlier : List BridgeCall) : List (Nat × Dealing) :=
  if call.repeats earlier then [] else [(call.since, .asked call.request)]

/-- What calls tell, the latest first. -/
def tell : List BridgeCall → List (Nat × Dealing)
  | [] => []
  | call :: earlier => call.settled ++ call.opened earlier ++ tell earlier

/-- No question is left without its answer. -/
def Closed (calls : List BridgeCall) : Prop := ∀ call ∈ calls.head?, call.answer ≠ none

/-- The earlier of two calls had the same question as the later one, and found no answer. -/
def Awaits (later earlier : BridgeCall) : Prop :=
  earlier.answer = none ∧ earlier.request = later.request ∧ earlier.since = later.since

theorem repeats_eq_true : call.repeats (last :: earlier) = true ↔ call.Awaits last := by
  simp [repeats, Awaits, and_assoc, Option.isNone_iff_eq_none]

/-- A look at the bridge tells the answer that it finds beside the question. -/
theorem tell_look (now now' : Nat) (answer : Option (Except BridgeError DepositReceipt))
    (calls : List BridgeCall) : tell (⟨request, since, now, answer⟩ :: calls) =
      settled ⟨request, since, now, answer⟩ ++ tell (⟨request, since, now', none⟩ :: calls) := by
  rw [tell, tell, List.append_assoc]
  cases calls <;> rfl

/-- One more look without an answer tells nothing new. -/
theorem tell_again : tell (⟨request, since, now', none⟩ :: ⟨request, since, now, none⟩ :: calls) =
    tell (⟨request, since, now, none⟩ :: calls) := by
  have hrepeats : (⟨request, since, now', none⟩ : BridgeCall).repeats
      (⟨request, since, now, none⟩ :: calls) = true := repeats_eq_true.mpr ⟨rfl, rfl, rfl⟩
  rw [tell, opened, if_pos hrepeats]
  rfl

theorem tell_asked (h : Closed calls) : tell (⟨request, since, now, none⟩ :: calls) =
    (since, .asked request) :: tell calls := by
  have hrepeats : (⟨request, since, now, none⟩ : BridgeCall).repeats calls = false := by
    cases calls with
    | nil => rfl
    | cons last rest =>
      have hanswer : last.answer ≠ none := h last rfl
      simp [repeats, Option.isNone_iff_eq_none, hanswer]
  rw [tell, opened, hrepeats]
  rfl

theorem mem_settled {d : Dealing} : (now, d) ∈ call.settled ↔ call.now = now ∧
    ((∃ why, call.answer = some (.error why) ∧ d = .refused why) ∨
      ∃ receipt, call.answer = some (.ok receipt) ∧ d = .taken call.request receipt) := by
  rw [settled]
  rcases call.answer with _ | why | receipt
  · simp
  · simp [eq_comm]
  · simp [eq_comm]

theorem mem_opened {d : Dealing} : (since, d) ∈ call.opened earlier ↔
    call.repeats earlier = false ∧ call.since = since ∧ d = .asked call.request := by
  rw [opened]
  cases call.repeats earlier with
  | true => simp
  | false => simp [eq_comm]

/-- The questions that calls tell are those of the calls. -/
theorem mem_tell_asked : (since, .asked request) ∈ tell calls ↔
    ∃ call ∈ calls, call.since = since ∧ call.request = request := by
  induction calls with
  | nil => simp [tell]
  | cons last earlier ih =>
    rw [tell, List.mem_append, List.mem_append, ih, mem_settled, mem_opened]
    constructor
    · rintro ((⟨-, ⟨why, -, h⟩ | ⟨receipt, -, h⟩⟩ | ⟨-, hsince, hd⟩) | ⟨call, hcall, hsame⟩)
      · cases h
      · cases h
      · cases hd
        exact ⟨last, .head _, hsince, rfl⟩
      · exact ⟨call, .tail _ hcall, hsame⟩
    · rintro ⟨call, hcall, hsince, hrequest⟩
      rcases List.mem_cons.mp hcall with rfl | hcall
      · cases hrepeats : call.repeats earlier with
        | false => exact .inl (.inr ⟨rfl, hsince, by rw [hrequest]⟩)
        | true =>
          -- the call before it had the same question
          cases earlier with
          | nil => cases hrepeats
          | cons before rest =>
            obtain ⟨-, hrequest', hsince'⟩ := repeats_eq_true.mp hrepeats
            exact .inr ⟨before, .head _, hsince'.trans hsince, hrequest'.trans hrequest⟩
      · exact .inr ⟨call, hcall, hsince, hrequest⟩

/-- The answers that calls tell are those that they have found. -/
theorem mem_tell_settled {d : Dealing} (hd : d.isAsked = false) :
    (now, d) ∈ tell calls ↔ ∃ call ∈ calls, (now, d) ∈ call.settled := by
  induction calls with
  | nil => simp [tell]
  | cons last earlier ih =>
    have hopened : (now, d) ∉ last.opened earlier := by
      intro h
      rw [(mem_opened.mp h).2.2] at hd
      cases hd
    rw [tell, List.mem_append, List.mem_append, ih]
    simp [hopened]

theorem mem_tell_refused {why : BridgeError} : (now, .refused why) ∈ tell calls ↔
    ∃ call ∈ calls, call.now = now ∧ call.answer = some (.error why) := by
  rw [mem_tell_settled rfl]
  simp [mem_settled]

theorem mem_tell_taken {receipt : DepositReceipt} : (now, .taken request receipt) ∈ tell calls ↔
    ∃ call ∈ calls, call.now = now ∧ call.answer = some (.ok receipt) ∧ request = call.request := by
  rw [mem_tell_settled rfl]
  simp [mem_settled]

/-- The questions among what calls tell. -/
def questions (calls : List BridgeCall) : Nat := (tell calls).countP (·.2.isAsked)

theorem questions_cons : questions (call :: earlier) =
    (if call.repeats earlier then 0 else 1) + questions earlier := by
  have hsettled : call.settled.countP (·.2.isAsked) = 0 := by
    rw [settled]
    rcases call.answer with _ | why | receipt <;> rfl
  rw [questions, tell, List.countP_append, List.countP_append, hsettled, Nat.zero_add, questions,
    opened]
  cases call.repeats earlier <;> rfl

/-- Calls that tell one question look for its answer until they find it. -/
theorem pairwise_of_questions (h : questions calls ≤ 1) : calls.Pairwise Awaits := by
  induction calls with
  | nil => exact .nil
  | cons call earlier ih =>
    rw [questions_cons] at h
    have hearlier := ih (Nat.le_trans (Nat.le_add_left _ _) h)
    refine .cons ?_ hearlier
    cases earlier with
    | nil => simp
    | cons last rest =>
      have hpos : 0 < questions (last :: rest) :=
        List.countP_pos_iff.mpr ⟨_, mem_tell_asked.mpr ⟨last, .head _, rfl, rfl⟩, rfl⟩
      have hrepeats : call.repeats (last :: rest) = true := by
        by_contra hnot
        rw [if_neg hnot] at h
        omega
      have hlast : call.Awaits last := repeats_eq_true.mp hrepeats
      intro before hbefore
      rcases List.mem_cons.mp hbefore with rfl | hrest
      · exact hlast
      · have hawaits := List.rel_of_pairwise_cons hearlier hrest
        exact ⟨hawaits.1, hawaits.2.1.trans hlast.2.1, hawaits.2.2.trans hlast.2.2⟩

end BridgeCall
end Bridge

namespace Rollup

/-- The same link beside something that it leaves alone. -/
def NodeLink.beside (α : Type) (link : NodeLink ω) : NodeLink (ω × α) where
  publicBalance token owner x :=
    let answer := link.publicBalance token owner x.1
    (answer.1, answer.2, x.2)
  storageAt contract slot x :=
    let answer := link.storageAt contract slot x.1
    (answer.1, answer.2, x.2)
  messageReady message x :=
    let answer := link.messageReady message x.1
    (answer.1, answer.2, x.2)

end Rollup

namespace Reserve

open Bridge (BridgeCall BridgeLink ClaimSecret Dealing DepositReceipt)
open Relation (ReflTransGen)
open Rollup (NodeLink)

variable {σ α : Type} {k : Charter ω σ} {t : Moment} {path : String} {disk : σ → Disk}

/-! ## The node leaves the log alone -/

section Beside

variable {m : Monitor} {link : NodeLink ω} {x : ω × α} {v : OpsView}

theorem Monitor.pollStorage_beside {cause : PrimaryCause} :
    m.pollStorage (link.beside α) cause x =
      ((m.pollStorage link cause x.1).1, (m.pollStorage link cause x.1).2, x.2) := by
  simp only [pollStorage, NodeLink.beside]
  rcases link.storageAt m.feeJuice m.slot x.1 with ⟨_ | s, w⟩
  · rfl
  · rfl

theorem Monitor.pollRead_beside {phase : ReadPhase} : m.pollRead (link.beside α) phase x =
    ((m.pollRead link phase x.1).1, (m.pollRead link phase x.1).2, x.2) := by
  cases phase with
  | storage cause => exact pollStorage_beside
  | primary =>
    simp only [pollRead, pollStorage_beside]
    simp only [NodeLink.beside]
    rcases link.publicBalance m.feeJuice m.facility x.1 with ⟨_ | why | a, w⟩
    · rfl
    · by_cases hf : m.fallback = true
      · simp only [hf, if_true]
      · simp only [hf, if_false, Bool.false_eq_true]
    · rfl

theorem Wait.pollBalance_beside (y : Wait) : y.pollBalance m (link.beside α) t x v =
    ((y.pollBalance m link t x.1 v).1, (y.pollBalance m link t x.1 v).2.1,
      ((y.pollBalance m link t x.1 v).2.2.1, x.2), (y.pollBalance m link t x.1 v).2.2.2) := by
  simp only [pollBalance]
  cases y.balance.rouse .primary t.now with
  | off => rfl
  | sleeping wake interval => rfl
  | asking phase interval =>
    simp only [Monitor.pollRead_beside]
    rcases m.pollRead link phase x.1 with ⟨p | r, w⟩
    · rfl
    · rfl

theorem Wait.pollMessage_beside (y : Wait) : y.pollMessage (link.beside α) t x =
    ((y.pollMessage link t x.1).1, (y.pollMessage link t x.1).2.1,
      ((y.pollMessage link t x.1).2.2, x.2)) := by
  simp only [pollMessage]
  cases y.target.message with
  | none => rfl
  | some message =>
    cases y.message.rouse () t.now with
    | off => rfl
    | sleeping wake interval => rfl
    | asking phase interval =>
      simp only [NodeLink.beside]
      rcases link.messageReady message x.1 with ⟨_ | r, w⟩
      · rfl
      · rfl

theorem Wait.poll_beside (y : Wait) : y.poll m (link.beside α) t x v =
    ((y.poll m link t x.1 v).1, ((y.poll m link t x.1 v).2.1, x.2),
      (y.poll m link t x.1 v).2.2) := by
  simp only [poll, pollBalance_beside]
  by_cases hcancelled : t.cancelled = true
  · simp only [if_pos hcancelled]
  by_cases hlate : y.deadline ≤ t.now
  · simp only [if_neg hcancelled, if_pos hlate]
  simp only [if_neg hcancelled, if_neg hlate]
  rcases y.pollBalance m link t x.1 v with ⟨_ | _, z, w, v'⟩
  · simp only [pollMessage_beside]
    rcases z.pollMessage link t w with ⟨_ | _, u, w'⟩
    · rfl
    · rfl
  · rfl

end Beside

/-! ## Writing down calls changes nothing else -/

/-- The same charter, writing down how the bridge is called. -/
def Charter.recorded (k : Charter ω σ) : Charter (ω × List BridgeCall) σ where
  node := k.node.beside (List BridgeCall)
  bridge := k.bridge.recorded
  store := k.store
  monitor := k.monitor
  policy := k.policy

theorem Charter.requestAt_recorded (secret : ClaimSecret) :
    k.recorded.requestAt secret = k.requestAt secret := rfl

theorem Charter.deposit_recorded {request : Bridge.DepositRequest} {since now : Nat}
    {x : ω × List BridgeCall} : k.recorded.bridge.deposit request since now x =
      ((k.bridge.deposit request since now x.1).1, (k.bridge.deposit request since now x.1).2,
        ⟨request, since, now, (k.bridge.deposit request since now x.1).1⟩ :: x.2) := rfl

/-- The controller without the log of calls. -/
def Controller.unlogged (c : Controller (ω × List BridgeCall) σ) : Controller ω σ :=
  { c with outside := c.outside.1 }

section Unlogged

variable {c : Controller (ω × List BridgeCall) σ} {r : BridgeRecord} {x : Wait}

theorem Controller.unlogged_persist (s : RecordStore σ) (now : Nat) (r : BridgeRecord) :
    (c.persist s now r).unlogged = c.unlogged.persist s now r := by
  rw [persist_eq, persist_eq]
  rfl

theorem Controller.unlogged_settle (s : RecordStore σ) (cooldown now : Nat) (r : BridgeRecord)
    (result : WaitResult) :
    (c.settle s cooldown now r result).unlogged = c.unlogged.settle s cooldown now r result := by
  by_cases h : result.status = .confirmed
  · rw [settle_confirmed s cooldown now r h, settle_confirmed s cooldown now r h]
    rfl
  · rw [settle_of_ne s cooldown now r h, settle_of_ne s cooldown now r h]
    rfl

theorem Charter.pollWait_unlogged : Prod.map id Controller.unlogged (k.recorded.pollWait t r x c) =
    k.pollWait t r x c.unlogged := by
  have hpoll : x.poll k.recorded.monitor k.recorded.node t c.outside c.view =
      ((x.poll k.monitor k.node t c.unlogged.outside c.unlogged.view).1,
        ((x.poll k.monitor k.node t c.unlogged.outside c.unlogged.view).2.1, c.outside.2),
        (x.poll k.monitor k.node t c.unlogged.outside c.unlogged.view).2.2) := Wait.poll_beside x
  rw [pollWait, hpoll, pollWait]
  rcases x.poll k.monitor k.node t c.unlogged.outside c.unlogged.view with ⟨y | result, w, v⟩
  · rfl
  · exact congrArg (Prod.mk _) (Controller.unlogged_settle _ _ _ _ _)

namespace Tick

theorem pollBridging_unlogged : Prod.map id Controller.unlogged (pollBridging k.recorded t r x c) =
    pollBridging k t r x c.unlogged := by
  rw [pollBridging, pollBridging, ← Charter.pollWait_unlogged]
  rcases k.recorded.pollWait t r x c with ⟨y | result, c'⟩
  · rfl
  · rfl

theorem pollResuming_unlogged : Prod.map id Controller.unlogged (pollResuming k.recorded t r x c) =
    pollResuming k t r x c.unlogged := by
  rw [pollResuming, pollResuming, ← Charter.pollWait_unlogged]
  rcases k.recorded.pollWait t r x c with ⟨y | result, c'⟩
  · rfl
  · rfl

theorem pollDepositing_unlogged {balance : Amount} {secret : ClaimSecret} {since : Nat} :
    Prod.map id Controller.unlogged (pollDepositing k.recorded t balance secret since c) =
      pollDepositing k t balance secret since c.unlogged := by
  rcases h : k.bridge.deposit (k.requestAt secret) since t.now c.outside.1 with ⟨answer, w⟩
  have hrecorded : k.recorded.bridge.deposit (k.recorded.requestAt secret) since t.now c.outside =
      (answer, w, ⟨k.requestAt secret, since, t.now, answer⟩ :: c.outside.2) := by
    rw [Charter.deposit_recorded, Charter.requestAt_recorded, h]
  rcases answer with _ | why | receipt
  · rw [pollDepositing_of_none hrecorded, pollDepositing_of_none h]
    rfl
  · rw [pollDepositing_of_error hrecorded, pollDepositing_of_error h]
    rfl
  · rw [pollDepositing_of_ok hrecorded, pollDepositing_of_ok h, pollBridging_unlogged, accept,
      Controller.unlogged_persist]
    rfl

theorem weigh_unlogged {balance : Amount} :
    Prod.map id Controller.unlogged (weigh k.recorded t balance c) =
      weigh k t balance c.unlogged := by
  have hcooling : c.coolingDown t.now = c.unlogged.coolingDown t.now := rfl
  have hpolicy : k.recorded.policy = k.policy := rfl
  rw [weigh, weigh, hcooling, hpolicy]
  split_ifs
  · rfl
  · rfl
  · exact pollDepositing_unlogged

theorem pollReading_unlogged {phase : ReadPhase} :
    Prod.map id Controller.unlogged (pollReading k.recorded t phase c) =
      pollReading k t phase c.unlogged := by
  have hread : k.recorded.monitor.pollRead k.recorded.node phase c.outside =
      ((k.monitor.pollRead k.node phase c.unlogged.outside).1,
        (k.monitor.pollRead k.node phase c.unlogged.outside).2, c.outside.2) :=
    Monitor.pollRead_beside
  rw [pollReading, hread, pollReading]
  rcases k.monitor.pollRead k.node phase c.unlogged.outside with ⟨phase' | why | reading, w⟩
  · rfl
  · rfl
  · exact weigh_unlogged

/-- A step of a tick is the same if the calls of the bridge are written down. -/
theorem poll_unlogged {tick : Tick} : Prod.map id Controller.unlogged (poll k.recorded t tick c) =
    poll k t tick c.unlogged := by
  cases tick with
  | reading phase => exact pollReading_unlogged
  | depositing balance secret since => exact pollDepositing_unlogged
  | bridging r x => exact pollBridging_unlogged
  | resuming r x => exact pollResuming_unlogged

theorem start_unlogged : Prod.map id Controller.unlogged (start k.recorded t c) =
    start k t c.unlogged := by
  by_cases hflag : c.inFlight = true
  · rw [start, start, Controller.beginFlight?_eq, Controller.beginFlight?_eq, if_pos hflag,
      if_pos (by exact hflag)]
    rfl
  · have hfree : c.inFlight = false := by simpa using hflag
    rw [start_of_free hfree, start_of_free (by exact hfree)]
    have hmemory : c.unlogged.unpersisted = c.unpersisted := rfl
    have hload : k.recorded.store.load c.store = k.store.load c.unlogged.store := rfl
    rw [hmemory]
    cases c.unpersisted with
    | some r =>
      rw [pollResuming_unlogged, Controller.unlogged_persist]
      rfl
    | none =>
      simp only [hload]
      rcases k.store.load c.unlogged.store with ⟨why | _ | r, store⟩
      · rfl
      · exact pollReading_unlogged
      · exact pollResuming_unlogged

end Tick

theorem Recovery.poll_unlogged {x : Recovery} :
    Prod.map id Controller.unlogged (Recovery.poll k.recorded t x c) =
      Recovery.poll k t x c.unlogged := by
  rw [Recovery.poll, Recovery.poll, ← Charter.pollWait_unlogged]
  rcases k.recorded.pollWait t x.record x.wait c with ⟨y | result, c'⟩
  · rfl
  · cases x.holdsFlag <;> rfl

theorem Recovery.start_unlogged : Prod.map id Controller.unlogged (Recovery.start k.recorded t c) =
    Recovery.start k t c.unlogged := by
  have hload : k.recorded.store.load c.store = k.store.load c.unlogged.store := rfl
  rw [Recovery.start, Recovery.start, hload]
  rcases k.store.load c.unlogged.store with ⟨why | _ | r, store⟩
  · rfl
  · rfl
  · simp only [Controller.beginFlight?_eq]
    by_cases hflag : c.inFlight = true
    · rw [if_pos (by exact hflag), if_pos (by exact hflag)]
      exact Recovery.poll_unlogged
    · rw [if_neg (by exact hflag), if_neg (by exact hflag)]
      exact Recovery.poll_unlogged

end Unlogged

/-! ## What the journal and the log tell -/

/-- What the controller says to the bridge with an act, or hears from it. -/
def Act.dealing? : Act → Option Dealing
  | .asked request => some (.asked request)
  | .refused why => some (.refused why)
  | .deposited d => some (.taken d.request d.receipt)
  | .looked _ | .saved _ _ | .waited _ _ => none

/-- What a journal tells of the bridge, with the times. -/
def dealings (journal : List JournalEntry) : List (Nat × Dealing) :=
  journal.filterMap fun e => e.act.dealing?.map (e.time, ·)

section Dealings

variable {journal news : List JournalEntry} {time : Nat} {request : Bridge.DepositRequest}

theorem dealings_append : dealings (news ++ journal) = dealings news ++ dealings journal :=
  List.filterMap_append

theorem mem_dealings {d : Dealing} : (time, d) ∈ dealings journal ↔
    ∃ a, ⟨time, a⟩ ∈ journal ∧ a.dealing? = some d := by
  simp only [dealings, List.mem_filterMap, Option.map_eq_some_iff, Prod.mk.injEq]
  constructor
  · rintro ⟨⟨time', a⟩, hmem, d', hd, rfl, rfl⟩
    exact ⟨a, hmem, hd⟩
  · rintro ⟨a, hmem, hd⟩
    exact ⟨⟨time, a⟩, hmem, d, hd, rfl, rfl⟩

theorem mem_dealings_asked : (time, .asked request) ∈ dealings journal ↔
    ⟨time, .asked request⟩ ∈ journal := by
  rw [mem_dealings]
  constructor
  · rintro ⟨a, hmem, ha⟩
    cases a with
    | asked request' =>
      cases ha
      exact hmem
    | looked | refused | deposited | saved | waited => cases ha
  · intro hmem
    exact ⟨_, hmem, rfl⟩

theorem mem_dealings_refused {why : BridgeError} : (time, .refused why) ∈ dealings journal ↔
    ⟨time, .refused why⟩ ∈ journal := by
  rw [mem_dealings]
  constructor
  · rintro ⟨a, hmem, ha⟩
    cases a with
    | refused why' =>
      cases ha
      exact hmem
    | looked | asked | deposited | saved | waited => cases ha
  · intro hmem
    exact ⟨_, hmem, rfl⟩

theorem mem_dealings_taken {receipt : DepositReceipt} :
    (time, .taken request receipt) ∈ dealings journal ↔
      ∃ d, ⟨time, .deposited d⟩ ∈ journal ∧ d.request = request ∧ d.receipt = receipt := by
  rw [mem_dealings]
  constructor
  · rintro ⟨a, hmem, ha⟩
    cases a with
    | deposited d =>
      cases ha
      exact ⟨d, hmem, rfl, rfl⟩
    | looked | asked | refused | saved | waited => cases ha
  · rintro ⟨d, hmem, rfl, rfl⟩
    exact ⟨_, hmem, rfl⟩

variable {calls : List BridgeCall}

/-- If a journal tells what a log does, then the questions noted in it are those of the calls, and
the answers noted in it are those that the calls have found. -/
theorem asked_iff_call (h : dealings journal = BridgeCall.tell calls) :
    ⟨time, .asked request⟩ ∈ journal ↔
      ∃ call ∈ calls, call.since = time ∧ call.request = request := by
  rw [← mem_dealings_asked, h, BridgeCall.mem_tell_asked]

theorem refused_iff_call (h : dealings journal = BridgeCall.tell calls) {why : BridgeError} :
    ⟨time, .refused why⟩ ∈ journal ↔
      ∃ call ∈ calls, call.now = time ∧ call.answer = some (.error why) := by
  rw [← mem_dealings_refused, h, BridgeCall.mem_tell_refused]

theorem deposited_iff_call (h : dealings journal = BridgeCall.tell calls)
    {receipt : DepositReceipt} :
    (∃ d, ⟨time, .deposited d⟩ ∈ journal ∧ d.request = request ∧ d.receipt = receipt) ↔
      ∃ call ∈ calls, call.now = time ∧ call.answer = some (.ok receipt) ∧
        request = call.request := by
  rw [← mem_dealings_taken, h, BridgeCall.mem_tell_taken]

end Dealings

/-- The question that the bridge is looked at for, with its time. -/
def Stage.question? (k : Charter ω σ) : Stage → Option (Bridge.DepositRequest × Nat)
  | .ticking [.depositing _ secret since] => some (k.requestAt secret, since)
  | _ => none

/-- The last call has not found the answer to a question, or has found the answer to its own if
there is no such question. -/
def AwaitedBy (calls : List BridgeCall) : Option (Bridge.DepositRequest × Nat) → Prop
  | none => BridgeCall.Closed calls
  | some (request, since) => ∃ now rest, calls = ⟨request, since, now, none⟩ :: rest

/-- From one state to another the journal and the log have told the same, and the last call is what
the stage goes on with. -/
def Controller.Matches (k : Charter ω σ) (g : Stage) (c c' : Controller (ω × List BridgeCall) σ) :
    Prop :=
  ∃ news calls, c'.journal = news ++ c.journal ∧ c'.outside.2 = calls ++ c.outside.2 ∧
    dealings news = BridgeCall.tell calls ∧ AwaitedBy calls (g.question? k)

/-- From one state to another the journal has told what the log would tell with a call that does not
find the answer to a question. -/
def Controller.Asks (request : Bridge.DepositRequest) (since : Nat)
    (c c' : Controller (ω × List BridgeCall) σ) : Prop :=
  ∃ news calls, c'.journal = news ++ c.journal ∧ c'.outside.2 = calls ++ c.outside.2 ∧
    dealings news = BridgeCall.tell (⟨request, since, since, none⟩ :: calls)

variable {c c' c'' : Controller (ω × List BridgeCall) σ} {g g' : Stage}

namespace Controller

theorem matches_refl (hg : g.question? k = none) : c.Matches k g c := by
  refine ⟨[], [], rfl, rfl, rfl, ?_⟩
  rw [hg]
  intro call hcall
  cases hcall

/-- Whoever does not deal with the bridge tells nothing of it. -/
theorem Matches.quiet {more : List JournalEntry} (h : c.Matches k g c')
    (hg : g'.question? k = g.question? k) (hjournal : c''.journal = more ++ c'.journal)
    (hmore : dealings more = []) (hlog : c''.outside.2 = c'.outside.2) : c.Matches k g' c'' := by
  obtain ⟨news, calls, hnews, hcalls, htell, hawaited⟩ := h
  refine ⟨more ++ news, calls, ?_, hlog.trans hcalls, ?_, ?_⟩
  · rw [hjournal, hnews, List.append_assoc]
  · rw [dealings_append, hmore, List.nil_append, htell]
  · rw [hg]
    exact hawaited

theorem Matches.still (h : c.Matches k g c') (hg : g'.question? k = g.question? k)
    (hjournal : c''.journal = c'.journal) (hlog : c''.outside.2 = c'.outside.2) :
    c.Matches k g' c'' :=
  h.quiet hg (hjournal.trans (List.nil_append _).symm) rfl hlog

theorem Matches.asked (h : c.Matches k g c') (hg : g.question? k = none)
    (request : Bridge.DepositRequest) (since : Nat) :
    c.Asks request since (c'.note since (.asked request)) := by
  obtain ⟨news, calls, hjournal, hlog, htell, hclosed⟩ := h
  rw [hg] at hclosed
  refine ⟨⟨since, .asked request⟩ :: news, calls, congrArg _ hjournal, hlog, ?_⟩
  rw [BridgeCall.tell_asked hclosed, ← htell]
  rfl

theorem Matches.asks {request : Bridge.DepositRequest} {since : Nat} (h : c.Matches k g c')
    (hg : g.question? k = some (request, since)) : c.Asks request since c' := by
  obtain ⟨news, calls, hjournal, hlog, htell, hawaited⟩ := h
  rw [hg] at hawaited
  obtain ⟨now, rest, rfl⟩ := hawaited
  exact ⟨news, _, hjournal, hlog, htell.trans BridgeCall.tell_again.symm⟩

end Controller

theorem WaitMove.quiet {r : BridgeRecord} {x : Wait} {p : Progress Wait WaitResult}
    (h : WaitMove k.recorded t r x c p c') : ∃ more, c'.journal = more ++ c.journal ∧
      dealings more = [] ∧ c'.outside.2 = c.outside.2 := by
  have hlog : (x.poll k.recorded.monitor k.recorded.node t c.outside c.view).2.1.2 =
      c.outside.2 := by
    rw [show x.poll k.recorded.monitor k.recorded.node t c.outside c.view = _ from
      Wait.poll_beside x]
  cases h with
  | pending h =>
    rw [h] at hlog
    exact ⟨[], rfl, rfl, hlog⟩
  | done h =>
    rw [h] at hlog
    refine ⟨[_], Controller.journal_settle _ _ _ _ _ _, rfl, ?_⟩
    rw [Controller.outside_settle]
    exact hlog

/-- A look at a wait deals with the node only. -/
theorem Charter.pollWait_matches {p : Progress Wait WaitResult} {r : BridgeRecord} {x : Wait}
    (h : c.Matches k g c') (hp : k.recorded.pollWait t r x c' = (p, c'')) :
    c.Matches k g c'' := by
  have hmove := pollWait_move (k := k.recorded) (t := t) r x c'
  rw [hp] at hmove
  obtain ⟨more, hjournal, hmore, hlog⟩ := hmove.quiet
  exact h.quiet rfl hjournal hmore hlog

namespace Tick

open Controller (Matches)

theorem pollBridging_matches (h : c.Matches k g c') (hg : g.question? k = none)
    (r : BridgeRecord) (x : Wait) :
    c.Matches k (.ticking (left (pollBridging k.recorded t r x c').1))
      (pollBridging k.recorded t r x c').2 := by
  rw [pollBridging]
  rcases hp : k.recorded.pollWait t r x c' with ⟨y | result, c''⟩
  · exact (Charter.pollWait_matches h hp).still hg.symm rfl rfl
  · exact (Charter.pollWait_matches h hp).still hg.symm rfl rfl

theorem pollResuming_matches (h : c.Matches k g c') (hg : g.question? k = none)
    (r : BridgeRecord) (x : Wait) :
    c.Matches k (.ticking (left (pollResuming k.recorded t r x c').1))
      (pollResuming k.recorded t r x c').2 := by
  rw [pollResuming]
  rcases hp : k.recorded.pollWait t r x c' with ⟨y | result, c''⟩
  · exact (Charter.pollWait_matches h hp).still hg.symm rfl rfl
  · exact (Charter.pollWait_matches h hp).still hg.symm rfl rfl

theorem pollDepositing_matches {balance : Amount} {secret : ClaimSecret} {since : Nat}
    (h : c.Asks (k.requestAt secret) since c') :
    c.Matches k (.ticking (left (pollDepositing k.recorded t balance secret since c').1))
      (pollDepositing k.recorded t balance secret since c').2 := by
  obtain ⟨news, calls, hjournal, hlog, htell⟩ := h
  rcases hanswer : k.bridge.deposit (k.requestAt secret) since t.now c'.outside.1 with ⟨answer, w⟩
  have hrecorded : k.recorded.bridge.deposit (k.recorded.requestAt secret) since t.now c'.outside =
      (answer, w, ⟨k.requestAt secret, since, t.now, answer⟩ :: c'.outside.2) := by
    rw [Charter.deposit_recorded, Charter.requestAt_recorded, hanswer]
  have htold : BridgeCall.settled ⟨k.requestAt secret, since, t.now, answer⟩ ++ dealings news =
      BridgeCall.tell (⟨k.requestAt secret, since, t.now, answer⟩ :: calls) := by
    rw [htell, BridgeCall.tell_look t.now since answer calls]
  rcases answer with _ | why | receipt
  · rw [pollDepositing_of_none hrecorded]
    exact ⟨news, _ :: calls, hjournal, congrArg _ hlog, htold, _, _, rfl⟩
  · rw [pollDepositing_of_error hrecorded]
    exact ⟨⟨t.now, .refused why⟩ :: news, _ :: calls, congrArg _ hjournal, congrArg _ hlog, htold,
      by simp [BridgeCall.Closed, leave, left, Stage.question?, AwaitedBy]⟩
  · rw [pollDepositing_of_ok hrecorded]
    refine pollBridging_matches (g := .idle) ?_ rfl _ _
    rw [accept, Controller.persist_eq]
    exact ⟨⟨t.now, .saved _ _⟩ :: ⟨t.now, .deposited _⟩ :: news, _ :: calls,
      congrArg (_ :: _ :: ·) hjournal, congrArg _ hlog, htold,
      by simp [BridgeCall.Closed, Stage.question?, AwaitedBy]⟩

theorem pollReading_matches {phase : ReadPhase} (h : c.Matches k g c') (hg : g.question? k = none) :
    c.Matches k (.ticking (left (pollReading k.recorded t phase c').1))
      (pollReading k.recorded t phase c').2 := by
  have hread : k.recorded.monitor.pollRead k.recorded.node phase c'.outside =
      ((k.monitor.pollRead k.node phase c'.outside.1).1,
        (k.monitor.pollRead k.node phase c'.outside.1).2, c'.outside.2) :=
    Monitor.pollRead_beside
  rw [pollReading, hread]
  rcases k.monitor.pollRead k.node phase c'.outside.1 with ⟨phase' | r, w⟩
  · exact h.still hg.symm rfl rfl
  · have hlooked : c.Matches k g (c'.afterReading t (w, c'.outside.2) r) :=
      h.quiet rfl List.singleton_append.symm rfl rfl
    rcases r with why | r
    · exact hlooked.still hg.symm rfl rfl
    · simp only [weigh]
      split_ifs
      · exact hlooked.still hg.symm rfl rfl
      · exact hlooked.still hg.symm rfl rfl
      · exact pollDepositing_matches (hlooked.asked hg _ _)

theorem poll_matches {tick : Tick} (h : c.Matches k (.ticking [tick]) c') :
    c.Matches k (.ticking (left (poll k.recorded t tick c').1)) (poll k.recorded t tick c').2 := by
  cases tick with
  | reading phase => exact pollReading_matches h rfl
  | bridging r x => exact pollBridging_matches h rfl r x
  | resuming r x => exact pollResuming_matches h rfl r x
  | depositing balance secret since => exact pollDepositing_matches (h.asks rfl)

theorem start_matches (h : c.Matches k g c') (hg : g.question? k = none) :
    c.Matches k (.ticking (left (start k.recorded t c').1)) (start k.recorded t c').2 := by
  by_cases hflag : c'.inFlight = true
  · rw [start, Controller.beginFlight?_eq, if_pos hflag]
    exact h.still hg.symm rfl rfl
  · rw [start_of_free (by simpa using hflag)]
    cases c'.unpersisted with
    | some r =>
      have hsaved : c.Matches k g (c'.takeFlight.persist k.recorded.store t.now r) := by
        rw [Controller.persist_eq]
        exact h.quiet rfl List.singleton_append.symm rfl rfl
      exact pollResuming_matches hsaved hg _ _
    | none =>
      rcases k.recorded.store.load c'.store with ⟨answer, store⟩
      have hloaded : c.Matches k g { c'.takeFlight with store } :=
        h.still rfl rfl rfl
      rcases answer with why | _ | r
      · exact hloaded.still hg.symm rfl rfl
      · exact pollReading_matches hloaded hg
      · exact pollResuming_matches hloaded hg _ _

end Tick

namespace Recovery

open Controller (Matches)

theorem poll_matches {x : Recovery} (h : c.Matches k g c') (hg : g.question? k = none) :
    c.Matches k (.ofRecovery (poll k.recorded t x c').1) (poll k.recorded t x c').2 := by
  rw [poll]
  rcases hp : k.recorded.pollWait t x.record x.wait c' with ⟨y | result, c''⟩
  · exact (Charter.pollWait_matches h hp).still hg.symm rfl rfl
  · have hended : c.Matches k (.ofRecovery (.done (.ok (some result)))) c'' :=
      (Charter.pollWait_matches h hp).still hg.symm rfl rfl
    cases x.holdsFlag with
    | true => exact hended.still rfl rfl rfl
    | false => exact hended

theorem start_matches (h : c.Matches k g c') (hg : g.question? k = none) :
    c.Matches k (.ofRecovery (start k.recorded t c').1) (start k.recorded t c').2 := by
  rw [start]
  rcases k.recorded.store.load c'.store with ⟨why | _ | r, store⟩
  · exact h.still hg.symm rfl rfl
  · exact h.still hg.symm rfl rfl
  · simp only [Controller.beginFlight?_eq]
    split_ifs
    · exact poll_matches (h.still rfl rfl rfl) hg
    · exact poll_matches (h.still rfl rfl rfl) hg

end Recovery

/-! ## Sessions -/

/-- Nobody else writes in the log. -/
def Controller.SameLog (c c' : Controller (ω × List BridgeCall) σ) : Prop :=
  c'.outside.2 = c.outside.2

theorem Drift.matches (h : Drift path disk c' c'') (hlog : c'.SameLog c'') (hc : c.Matches k g c') :
    c.Matches k g c'' :=
  hc.still rfl h.journal hlog

theorem Drift.exists_logged {d : Controller ω σ} (h : Drift path disk c.unlogged d) :
    ∃ c', Drift path disk c c' ∧ c.SameLog c' ∧ c'.unlogged = d := by
  cases h with
  | outside w => exact ⟨_, .outside (w, c.outside.2), rfl, rfl⟩
  | store x h => exact ⟨_, .store x h, rfl, rfl⟩
  | refreshed now => exact ⟨_, .refreshed now, rfl, rfl⟩
  | shutdown => exact ⟨_, .shutdown, rfl, rfl⟩

namespace Session

/-- A run of a session in which the calls of the bridge are written down. -/
abbrev RecordedRun (k : Charter ω σ) (path : String) (disk : σ → Disk) :
    Session (ω × List BridgeCall) σ → Session (ω × List BridgeCall) σ → Prop :=
  ReflTransGen (StepWhen (fun _ => True) Controller.SameLog k.recorded path disk)

/-- The session without the log of calls. -/
def unlogged (s : Session (ω × List BridgeCall) σ) : Session ω σ :=
  ⟨s.controller.unlogged, s.stage⟩

theorem kept_matches (k : Charter ω σ) (path : String) (disk : σ → Disk)
    (c : Controller (ω × List BridgeCall) σ) :
    KeptWhen (fun _ => True) Controller.SameLog k.recorded path disk fun g c' =>
      c.Matches k g c' where
  drift hdrift hlog h := hdrift.matches hlog h
  ready h := h.still rfl rfl rfl
  start _ _ h := Tick.start_matches h rfl
  poll _ h := Tick.poll_matches h
  recoveryStart _ _ h := Recovery.start_matches h rfl
  recoveryPoll _ _ h := Recovery.poll_matches h rfl

/-- Each step is one in which calls are written down, seen without the log. -/
theorem exists_logged_step {s : Session (ω × List BridgeCall) σ} {s' : Session ω σ}
    (h : Step k path disk s.unlogged s') : ∃ u,
      StepWhen (fun _ => True) Controller.SameLog k.recorded path disk s u ∧ u.unlogged = s' := by
  obtain ⟨c, g⟩ := s
  generalize hs : unlogged ⟨c, g⟩ = s at h
  cases h with
  | drifts h _ =>
    cases hs
    obtain ⟨c', hdrift, hlog, rfl⟩ := h.exists_logged
    exact ⟨_, .drifts hdrift hlog, rfl⟩
  | recovers t _ =>
    cases hs
    refine ⟨_, .recovers t trivial, ?_⟩
    rw [← Recovery.start_unlogged]
    rfl
  | recovery t _ =>
    cases hs
    refine ⟨_, .recovery t trivial, ?_⟩
    rw [← Recovery.poll_unlogged]
    rfl
  | ready =>
    cases hs
    exact ⟨_, .ready, rfl⟩
  | ticks t _ =>
    cases hs
    refine ⟨_, .ticks t trivial, ?_⟩
    rw [← Tick.start_unlogged]
    rfl
  | tick t _ =>
    cases hs
    refine ⟨_, .tick t trivial, ?_⟩
    rw [← Tick.poll_unlogged]
    rfl

theorem exists_logged_run {s : Session (ω × List BridgeCall) σ} {s' : Session ω σ}
    (h : Run k path disk s.unlogged s') : ∃ u, RecordedRun k path disk s u ∧ u.unlogged = s' := by
  induction h with
  | refl => exact ⟨s, .refl, rfl⟩
  | tail _ hstep ih =>
    obtain ⟨u, hrun, rfl⟩ := ih
    obtain ⟨v, hlast, hv⟩ := exists_logged_step hstep
    exact ⟨v, hrun.tail hlast, hv⟩

/-- Every run of a session is one in which the calls of the bridge are written down, seen without
them; and its journal tells of the bridge what these calls tell. -/
theorem run_tells_calls {staleAfter : Nat} {outside : ω} {store : σ} {s : Session ω σ}
    (h : Run k path disk (start staleAfter outside store) s) :
    ∃ u, RecordedRun k path disk (start staleAfter (outside, []) store) u ∧ u.unlogged = s ∧
      dealings s.controller.journal = BridgeCall.tell u.controller.outside.2 := by
  obtain ⟨u, hrun, rfl⟩ := exists_logged_run (s := start staleAfter (outside, []) store) h
  obtain ⟨-, news, calls, hjournal, hlog, htell, -⟩ :=
    (kept_matches k path disk (.initial staleAfter (outside, []) store)).run hrun rfl
      (Controller.matches_refl rfl)
  have hnews : u.controller.journal = news := hjournal.trans (List.append_nil _)
  have hcalls : u.controller.outside.2 = calls := hlog.trans (List.append_nil _)
  refine ⟨u, hrun, rfl, ?_⟩
  rw [hcalls, ← htell, ← hnews]
  rfl

end Session
end Reserve
end Paymaster

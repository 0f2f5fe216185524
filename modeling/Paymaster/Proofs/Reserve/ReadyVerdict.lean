import Mathlib.Data.List.Induction
import Paymaster.Proofs.Json.CompactTables
import Paymaster.Proofs.Metrics.Samples
import Paymaster.Reserve.Ops
/-!
# One verdict in all views

Whether the controller is ready follows from what happened to it: whether its shutdown began, what
its checks of the balance came to, and how long ago the last of them was. The clock of the checks
may step back. An operator who asks learns the verdict from the status and the body of a reply, or
from a gauge among the metrics, and all of them say the same.
-/

namespace Paymaster.Reserve

open Metrics (Family readValues)

/-! ## The verdict -/

/-- What can happen to the readiness state. -/
inductive Happening where
  /-- A check of the balance ends at a time, well or not. -/
  | checked (now : UInt64) (ok : Bool)
  | bridged (e : BridgeEvent)
  /-- The flag for a deposit is asked for, or given back. -/
  | flight (taken : Bool)
  | shutdown
  deriving DecidableEq, Repr

def Readiness.meet (r : Readiness) : Happening → Readiness
  | .checked now true => r.recordOk now.toNat
  | .checked now false => r.recordError now.toNat
  | .bridged e => r.recordEvent e
  | .flight true => r.beginFlight?.getD r
  | .flight false => r.endFlight
  | .shutdown => r.beginShutdown

/-- The readiness state after all that happened, in order. -/
def Readiness.after (staleAfter : Nat) (history : List Happening) : Readiness :=
  history.foldl Readiness.meet (.initial staleAfter)

/-- The time of a check, and whether it went well. -/
def Happening.check? : Happening → Option (UInt64 × Bool)
  | .checked now ok => some (now, ok)
  | _ => none

def checksOf (history : List Happening) : List (UInt64 × Bool) := history.filterMap (·.check?)

/-- The verdict that a history calls for at a time. -/
def verdict (staleAfter : Nat) (history : List Happening) (now : UInt64) : Except NotReady Unit :=
  if .shutdown ∈ history then .error .shutdown
  else if ¬(checksOf history).any (·.2) then .error .noSuccessfulChecks
  else match (checksOf history).getLast? with
    | some (time, true) =>
      if time.toNat + staleAfter < now.toNat then .error .staleChecks else .ok ()
    | _ => .error .lastCheckFailed

/-- The readiness state knows what counts of a history. -/
structure Readiness.Knows (staleAfter : Nat) (r : Readiness) (history : List Happening) :
    Prop where
  staleAfter_eq : r.staleAfter = min staleAfter maxStaleAfter
  shuttingDown_iff : r.shuttingDown = true ↔ .shutdown ∈ history
  checksOk_eq : r.checksOk = (checksOf history).countP (·.2)
  checksFailed_eq : r.checksFailed = (checksOf history).countP (!·.2)
  last_eq : ∀ time ok, (checksOf history).getLast? = some (time, ok) →
    r.lastCheck = time.toNat ∧ r.lastCheckOk = ok
  never_eq : checksOf history = [] → r.lastCheck = 0

namespace Readiness.Knows

variable {staleAfter : Nat} {r : Readiness} {history : List Happening}

theorem initial (staleAfter : Nat) : Knows staleAfter (.initial staleAfter) [] where
  staleAfter_eq := rfl
  shuttingDown_iff := by simp [Readiness.initial]
  checksOk_eq := rfl
  checksFailed_eq := rfl
  last_eq _ _ h := by cases h
  never_eq _ := rfl

theorem checksOf_append (history : List Happening) (x : Happening) :
    checksOf (history ++ [x]) = checksOf history ++ x.check?.toList := by
  rw [checksOf, List.filterMap_append]
  cases x <;> rfl

theorem meet_of_check?_eq_none (h : r.Knows staleAfter history) {x : Happening} {r' : Readiness}
    (hx : x.check? = none)
    (hsame : { r' with events := r.events, inFlight := r.inFlight, shuttingDown := r.shuttingDown } = r)
    (hshut : r'.shuttingDown = true ↔ r.shuttingDown = true ∨ x = .shutdown) :
    r'.Knows staleAfter (history ++ [x]) := by
  have hchecks : checksOf (history ++ [x]) = checksOf history := by
    rw [checksOf_append, hx, Option.toList_none, List.append_nil]
  rw [← hsame] at h
  refine ⟨h.staleAfter_eq, ?_, ?_, ?_, ?_, ?_⟩
  · rw [hshut, ← hsame, h.shuttingDown_iff, List.mem_append, List.mem_singleton, eq_comm (a := x)]
  · rw [hchecks]
    exact h.checksOk_eq
  · rw [hchecks]
    exact h.checksFailed_eq
  · rw [hchecks]
    exact h.last_eq
  · rw [hchecks]
    exact h.never_eq

theorem meet_checked_eq (r : Readiness) (now : UInt64) (ok : Bool) : r.meet (.checked now ok) =
    { r with
      checksOk := r.checksOk + if ok then 1 else 0
      checksFailed := r.checksFailed + if !ok then 1 else 0
      lastCheck := now.toNat
      lastCheckOk := ok } := by
  cases ok <;> rfl

/-- A check is counted, and becomes the last one, whatever its time. -/
theorem meet_checked (h : r.Knows staleAfter history) (now : UInt64) (ok : Bool) :
    (r.meet (.checked now ok)).Knows staleAfter (history ++ [.checked now ok]) := by
  have hchecks : checksOf (history ++ [.checked now ok]) = checksOf history ++ [(now, ok)] :=
    checksOf_append history _
  rw [meet_checked_eq]
  refine ⟨h.staleAfter_eq, ?_, ?_, ?_, fun time ok' hlast => ?_, fun hnone => ?_⟩
  · simpa using h.shuttingDown_iff
  · rw [hchecks, List.countP_append, ← h.checksOk_eq, List.countP_singleton]
  · rw [hchecks, List.countP_append, ← h.checksFailed_eq, List.countP_singleton]
  · rw [hchecks, List.getLast?_concat, Option.some.injEq, Prod.mk.injEq] at hlast
    obtain ⟨rfl, rfl⟩ := hlast
    exact ⟨rfl, rfl⟩
  · rw [hchecks] at hnone
    exact absurd hnone (by simp)

/-- Whatever happens, the readiness state knows what counts of it. -/
theorem meet (h : r.Knows staleAfter history) (x : Happening) :
    (r.meet x).Knows staleAfter (history ++ [x]) := by
  cases x with
  | checked now ok => exact h.meet_checked now ok
  | bridged e => exact h.meet_of_check?_eq_none rfl rfl (by simp [Readiness.meet, recordEvent])
  | flight taken =>
    cases taken with
    | true =>
      have hflight : r.beginFlight?.getD r = { r with inFlight := true } := by
        rw [beginFlight?]
        split
        · rename_i htaken
          simp [← htaken]
        · rfl
      rw [Readiness.meet, hflight]
      exact h.meet_of_check?_eq_none rfl rfl (by simp)
    | false => exact h.meet_of_check?_eq_none rfl rfl (by simp [Readiness.meet, endFlight])
  | shutdown => exact h.meet_of_check?_eq_none rfl rfl (by simp [Readiness.meet, beginShutdown])

theorem after (staleAfter : Nat) (history : List Happening) :
    (Readiness.after staleAfter history).Knows staleAfter history := by
  induction history using List.reverseRecOn with
  | nil => exact initial staleAfter
  | append_singleton history x ih =>
    rw [Readiness.after, List.foldl_append]
    exact ih.meet x

/-- The readiness state gives the verdict that the history calls for. -/
theorem evaluate_eq (h : r.Knows staleAfter history) (now : UInt64) :
    r.evaluate now.toNat = verdict staleAfter history now := by
  have hnow : now.toNat < UInt64.size := now.toNat_lt_size
  rw [evaluate, verdict]
  by_cases hshut : Happening.shutdown ∈ history
  · rw [if_pos (h.shuttingDown_iff.mpr hshut), if_pos hshut]
  have hnone : r.checksOk = 0 ↔ ¬(checksOf history).any (·.2) := by
    rw [h.checksOk_eq, List.countP_eq_zero, List.any_eq_true, not_exists]
    simp only [not_and]
  rw [if_neg (mt h.shuttingDown_iff.mp hshut), if_neg hshut]
  by_cases hfirst : ¬(checksOf history).any (·.2)
  · rw [if_pos (hnone.mpr hfirst), if_pos hfirst]
  rw [if_neg (mt hnone.mp hfirst), if_neg hfirst]
  cases hlast : (checksOf history).getLast? with
  | none =>
    rw [List.getLast?_eq_none_iff] at hlast
    exact absurd (by simp [hlast]) hfirst
  | some check =>
    obtain ⟨time, ok⟩ := check
    obtain ⟨htime, hok⟩ := h.last_eq time ok hlast
    have hstale : r.staleAfter < now.toNat - r.lastCheck ↔
        time.toNat + staleAfter < now.toNat := by
      rw [h.staleAfter_eq, htime, maxStaleAfter]
      omega
    cases ok with
    | true => simp only [hok, hstale, Bool.not_true, Bool.false_eq_true, if_false]
    | false => simp only [hok, Bool.not_false, if_true]

end Readiness.Knows

/-! ## The views -/

/-- A request for a path, with or without a query. -/
def Asks (path url : String) : Prop := url = path ∨ ∃ query, url = path ++ "?" ++ query

/-- The reason that a verdict gives against the controller. -/
def reasonOf : Except NotReady Unit → Option NotReady
  | .ok () => none
  | .error why => some why

/-- A reply about the readiness tells a verdict by its status and by its body. -/
structure Tells (reply : Http.Reply) (verdict : Except NotReady Unit) : Prop where
  status_eq : reply.status = if verdict.isOk then 200 else 503
  exists_body : ∃ body, Json.parse (Text.Utf8.encode reply.body) = .ok body ∧
    body.get? "ready" = some (.bool verdict.isOk) ∧
    body.get? "reason" = (reasonOf verdict).map fun why => .text why.name

theorem splitTarget_of_asks {path url : String} (h : Asks path url) (hpath : '?' ∉ path.toList) :
    (Http.splitTarget url).1 = path := by
  rcases h with rfl | ⟨query, rfl⟩
  · rw [Http.splitTarget_of_not_mem hpath]
  · rw [Http.splitTarget_append hpath]

theorem NotReady.isPlainText_name (why : NotReady) : Json.isPlainText why.name = true := by
  cases why <;> decide

/-- The fields of a reply about the readiness that any verdict leaves as they are. -/
def Readiness.counts (r : Readiness) : List (String × Json) :=
  [("balance_checks_ok", .nat r.checksOk), ("balance_checks_failed", .nat r.checksFailed),
    ("last_balance_check_ms", .nat r.lastCheck), ("bridge_in_flight", .bool r.inFlight)]

theorem Readiness.areFlat_counts {r : Readiness} (hok : r.checksOk < UInt64.size)
    (hfailed : r.checksFailed < UInt64.size) (hlast : r.lastCheck < UInt64.size) :
    Json.areFlat r.counts = true := by
  have hkeys : ["balance_checks_ok", "balance_checks_failed", "last_balance_check_ms",
      "bridge_in_flight"].all Json.isPlainText = true := by decide
  have hnat : ∀ n : Nat, n < UInt64.size → Json.isFlat (.nat n) = true := by
    intro n hn
    have hbound : Json.significandBound = UInt64.size := rfl
    simp only [Json.isFlat, Json.nat, hbound, Bool.and_eq_true, decide_eq_true_eq]
    exact ⟨Int.natCast_nonneg n, Int.ofNat_lt.mpr hn⟩
  simp only [List.all_cons, List.all_nil, Bool.and_true, Bool.and_eq_true] at hkeys
  simp only [counts, Json.areFlat, List.all_cons, List.all_nil, hkeys, hnat _ hok, hnat _ hfailed,
    hnat _ hlast]
  rfl

theorem Readiness.snapshot_of_ok {r : Readiness} {now : Nat} (h : r.evaluate now = .ok ()) :
    r.snapshot now = .table (("ready", .bool true) :: r.counts) := by
  have hready : r.isReady now = true := by
    rw [isReady, h]
    rfl
  have hreason : r.reason? now = none := by rw [reason?, h]
  rw [snapshot, hready, hreason]
  rfl

theorem Readiness.snapshot_of_error {r : Readiness} {now : Nat} {why : NotReady}
    (h : r.evaluate now = .error why) :
    r.snapshot now = .table (("ready", .bool false) :: ("reason", .text why.name) :: r.counts) := by
  have hready : r.isReady now = false := by
    rw [isReady, h]
    rfl
  have hreason : r.reason? now = some why := by rw [reason?, h]
  rw [snapshot, hready, hreason]
  rfl

/-- What a reply about the readiness holds is what the readiness state says. -/
theorem Readiness.exists_parse_snapshot {r : Readiness} (hok : r.checksOk < UInt64.size)
    (hfailed : r.checksFailed < UInt64.size) (hlast : r.lastCheck < UInt64.size) (now : Nat) :
    ∃ body, Json.parse (Text.Utf8.encode (r.snapshot now).compact) = .ok body ∧
      body.get? "ready" = some (.bool (r.evaluate now).isOk) ∧
      body.get? "reason" = (reasonOf (r.evaluate now)).map fun why => .text why.name := by
  have hcounts : Json.areFlat r.counts = true := areFlat_counts hok hfailed hlast
  have hready : ∀ b, (Json.isPlainText "ready" && Json.isFlat (.bool b)) = true := by decide
  cases hverdict : r.evaluate now with
  | ok =>
    have hflat : Json.areFlat (("ready", .bool true) :: r.counts) = true := by
      rw [Json.areFlat_cons, hready true, hcounts, Bool.true_and]
    obtain ⟨body, hbody, hget⟩ := Json.exists_parse_compact hflat (by simp [counts])
    rw [snapshot_of_ok hverdict]
    refine ⟨body, hbody, ?_, ?_⟩
    · rw [hget, List.lookup_cons_self]
      rfl
    · rw [hget]
      simp [counts, List.lookup_cons, reasonOf]
  | error why =>
    have hreason : (Json.isPlainText "reason" && Json.isFlat (.text why.name)) = true := by
      have hkey : Json.isPlainText "reason" = true := by decide
      rw [hkey, Json.isFlat, why.isPlainText_name]
      rfl
    have hflat : Json.areFlat (("ready", .bool false) :: ("reason", .text why.name) :: r.counts) =
        true := by
      rw [Json.areFlat_cons, hready false, Json.areFlat_cons, hreason, hcounts, Bool.true_and,
        Bool.true_and]
    obtain ⟨body, hbody, hget⟩ := Json.exists_parse_compact hflat (by simp [counts])
    rw [snapshot_of_error hverdict]
    refine ⟨body, hbody, ?_, ?_⟩
    · rw [hget, List.lookup_cons_self]
      rfl
    · rw [hget]
      simp [List.lookup_cons, reasonOf]

theorem Readiness.tells {r : Readiness} {now : Nat} {url : String} (hok : r.checksOk < UInt64.size)
    (hfailed : r.checksFailed < UInt64.size) (hlast : r.lastCheck < UInt64.size)
    (m : ControllerMetrics) (enabled : Bool) (hurl : Asks "/ready" url) :
    Tells (OpsView.route enabled ⟨r, m⟩ "GET" url now).1 (r.evaluate now) := by
  have hpath : (Http.splitTarget url).1 = "/ready" := splitTarget_of_asks hurl (by decide)
  have hreply : (OpsView.route enabled ⟨r, m⟩ "GET" url now).1 =
      .json (if r.isReady now then 200 else 503) (r.snapshot now) := by
    simp only [OpsView.route, hpath, OpsView.refresh]
    rfl
  rw [hreply]
  exact ⟨rfl, exists_parse_snapshot hok hfailed hlast now⟩

/-! ## The gauge -/

namespace ControllerMetrics

theorem lineBreak_positional (x : Decimal.Scientific) : '\n' ∉ x.positional.toList := by
  have hdigits : '\n' ∉ x.text := fun h => absurd (Text.isDigit_of_mem_toDigits h) (by decide)
  have hzeros : ∀ n, '\n' ∉ List.replicate n '0' := fun n h =>
    absurd (List.eq_of_mem_replicate h) (by decide)
  have htake : ∀ n, '\n' ∉ x.text.take n := fun n h => hdigits (List.mem_of_mem_take h)
  have hdrop : ∀ n, '\n' ∉ x.text.drop n := fun n h => hdigits (List.mem_of_mem_drop h)
  rw [Decimal.Scientific.positional]
  split
  · simp [hdigits, hzeros]
  extract_lets point
  split
  · simp [htake, hdrop]
  · simp [hdigits, hzeros]

theorem lineBreak_gauge (a : Amount) : '\n' ∉ (gauge a).toList := by
  rw [gauge]
  cases Decimal.Binary64.ofNat a.toNat with
  | finite negative m e =>
    have hsign : '\n' ∉ (Decimal.sign negative).toList := by cases negative <;> decide
    simp [Decimal.Binary64.plain, hsign, lineBreak_positional]
  | infinite negative => cases negative <;> decide
  | nan => decide

theorem neat (m : ControllerMetrics) : ∀ f ∈ m.families, f.Neat := by
  intro f hf
  simp only [families, List.mem_cons, List.not_mem_nil, or_false] at hf
  rcases hf with rfl | rfl | rfl | rfl | rfl
  · refine ⟨by simp, by simp, m.checks.neat_samples _ fun k => ?_⟩
    cases k <;> decide
  · refine ⟨by simp, by simp, m.events.neat_samples _ fun k => ?_⟩
    cases k <;> decide
  · refine ⟨by simp, by simp, ?_⟩
    cases m.ready <;> simp
  · refine ⟨by simp, by simp, ?_⟩
    simpa using lineBreak_gauge m.balance
  · exact ⟨by decide, by decide, fun s hs => by cases hs⟩

/-- The gauge of the readiness is the only sample of its name. -/
theorem readValues_ready (m : ControllerMetrics) :
    readValues "fpc_topup_ready" m.text = [if m.ready then "1" else "0"] := by
  have hgauge (value : String) : Family.values "fpc_topup_ready" ⟨"fpc_topup_ready",
      "1 if the top-up controller reports ready", .gauge, [("", value)], false⟩ = [value] := by
    simp [Family.values]
  rw [text, Metrics.readValues_exposition m.neat (by decide), families]
  simp only [List.flatMap_cons, List.flatMap_nil, List.append_nil]
  rw [Family.values_eq_nil, Family.values_eq_nil, hgauge, Family.values_eq_nil,
    Family.values_eq_nil]
  · rfl
  · decide
  all_goals
    dsimp only
    decide

end ControllerMetrics

/-! ## All views agree -/

theorem Readiness.Knows.lastCheck_lt {staleAfter : Nat} {r : Readiness} {history : List Happening}
    (h : r.Knows staleAfter history) : r.lastCheck < UInt64.size := by
  cases hlast : (checksOf history).getLast? with
  | none =>
    rw [h.never_eq (List.getLast?_eq_none_iff.mp hlast)]
    decide
  | some check =>
    rw [(h.last_eq check.1 check.2 hlast).1]
    exact check.1.toNat_lt_size

/-- Whatever happened, and whatever the other metrics are, all views give the verdict that the
history calls for. -/
theorem OpsView.tells_verdict (staleAfter : Nat) (history : List Happening)
    (hfew : (checksOf history).length < UInt64.size) (m : ControllerMetrics) (now : UInt64) :
    let v : OpsView := ⟨.after staleAfter history, m⟩
    let called := verdict staleAfter history now
    v.readiness.evaluate now.toNat = called ∧
      (∀ enabled url, Asks "/ready" url → Tells (v.route enabled "GET" url now.toNat).1 called) ∧
      (∀ url, Asks "/metrics" url →
        (v.route true "GET" url now.toNat).1.status = 200 ∧
        readValues "fpc_topup_ready" (v.route true "GET" url now.toNat).1.body =
          [if called.isOk then "1" else "0"]) := by
  intro v called
  have hknows : v.readiness.Knows staleAfter history := .after staleAfter history
  have hcalled : v.readiness.evaluate now.toNat = called := hknows.evaluate_eq now
  refine ⟨hcalled, fun enabled url hurl => ?_, fun url hurl => ?_⟩
  · have hok : v.readiness.checksOk < UInt64.size := by
      rw [hknows.checksOk_eq]
      exact Nat.lt_of_le_of_lt List.countP_le_length hfew
    have hfailed : v.readiness.checksFailed < UInt64.size := by
      rw [hknows.checksFailed_eq]
      exact Nat.lt_of_le_of_lt List.countP_le_length hfew
    rw [← hcalled]
    exact Readiness.tells hok hfailed hknows.lastCheck_lt m enabled hurl
  · have hpath : (Http.splitTarget url).1 = "/metrics" := splitTarget_of_asks hurl (by decide)
    have hreply : (v.route true "GET" url now.toNat).1 =
        .text 200 Http.Reply.metricsType (v.refresh now.toNat).metrics.text := by
      simp [OpsView.route, hpath]
    rw [hreply, ← hcalled]
    exact ⟨rfl, (v.refresh now.toNat).metrics.readValues_ready⟩

/-- A check after which the clock steps back, a failed one, a good one, and one more in the past:
the controller is ready until the last of them is too old. -/
theorem OpsView.tells_verdict_stepped_back :
    let history : List Happening :=
      [.checked 5000 true, .checked 3000 false, .bridged .submitted, .checked 1000 true]
    (checksOf history).length < UInt64.size ∧
      (⟨.after 500 history, .initial⟩ : OpsView).readiness.evaluate 1501 = .error .staleChecks ∧
      Tells (OpsView.route true ⟨.after 500 history, .initial⟩ "GET"
        ("/ready" ++ "?" ++ "verbose=1") 1500).1 (.ok ()) := by
  intro history
  have hfew : (checksOf history).length < UInt64.size := by decide
  have hasks : Asks "/ready" ("/ready" ++ "?" ++ "verbose=1") := .inr ⟨"verbose=1", rfl⟩
  have hchecks : checksOf history = [(5000, true), (3000, false), (1000, true)] := rfl
  have hstale : verdict 500 history 1501 = .error .staleChecks := by
    simp [verdict, hchecks, history]
  have hready : verdict 500 history 1500 = .ok () := by
    simp [verdict, hchecks, history]
  have hlate := (OpsView.tells_verdict 500 history hfew .initial 1501).1
  have hintime := (OpsView.tells_verdict 500 history hfew .initial 1500).2.1 true _ hasks
  exact ⟨hfew, hlate.trans hstale, hready ▸ hintime⟩

end Paymaster.Reserve

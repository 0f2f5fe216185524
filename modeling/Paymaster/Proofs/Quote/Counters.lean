import Paymaster.Proofs.Metrics.Samples
import Paymaster.Proofs.Quote.TurnedAway
/-!
# Every request is counted once

The status of a reply, the outcome that it is counted under and the further count of the rate limit
come from a refusal in three different ways. Here they are held against each other: whatever is
asked of a desk, its counts are those of the replies that it has given to requests for a quote.
-/

namespace Paymaster.Quote

open Metrics (Family Tally label readValues)

/-! ## One reply -/

/-- The status of the replies that are counted under an outcome. -/
def Outcome.status : Outcome → Nat
  | .ok => 200
  | .badRequest => 400
  | .unauthorized => 401
  | .rateLimited => 429
  | .internalError => 500

theorem Outcome.status_inj {o o' : Outcome} : o.status = o'.status ↔ o = o' := by
  cases o <;> cases o' <;> simp [status]

theorem Outcome.label_inj (o o' : Outcome) (h : o.label = o'.label) : o = o' := by
  cases o <;> cases o' <;> first | rfl | exact absurd h (by decide)

theorem Desk.status_quoteReply (answer : Except Refusal Signed) :
    (quoteReply answer).status = (outcomeOf answer).status := by
  cases answer with
  | ok q => rfl
  | error r => cases r <;> rfl

instance (r : Request) (path : String) : Decidable (r.IsFor path) :=
  inferInstanceAs (Decidable (_ ∧ _))

/-! ## The log -/

/-- The visits with the replies to them. -/
def Desk.log (d : Desk) (s : DeskState) : List Visit → List (Visit × Http.Reply)
  | [] => []
  | v :: visits => (v, d.reply s v) :: d.log (d.next s v) visits

/-- How many requests for a quote were answered with a status. -/
def answered (log : List (Visit × Http.Reply)) (status : Nat) : Nat :=
  log.countP fun x => x.1.request.IsFor "/quote" ∧ x.2.status = status

/-- The counts of all outcomes together. -/
def total (t : Tally Outcome) : Nat :=
  t.count .ok + t.count .badRequest + t.count .unauthorized + t.count .rateLimited +
    t.count .internalError

variable {log : List (Visit × Http.Reply)} {v : Visit} {reply : Http.Reply}

theorem Desk.log_snoc (d : Desk) (s : DeskState) (visits : List Visit) (v : Visit) :
    d.log s (visits ++ [v]) = d.log s visits ++ [(v, d.reply (d.after s visits) v)] := by
  induction visits generalizing s with
  | nil => rfl
  | cons w visits ih =>
    rw [List.cons_append, log, log, ih]
    rfl

theorem Desk.map_log (d : Desk) (s : DeskState) (visits : List Visit) :
    (d.log s visits).map (·.1) = visits := by
  induction visits generalizing s with
  | nil => rfl
  | cons v visits ih => rw [log, List.map_cons, ih]

theorem answered_snoc (hv : v.request.IsFor "/quote") {o : Outcome}
    (hreply : reply.status = o.status) (o' : Outcome) : answered (log ++ [(v, reply)]) o'.status =
      answered log o'.status + if o' = o then 1 else 0 := by
  have hsame : reply.status = o'.status ↔ o' = o := by
    rw [hreply, Outcome.status_inj]
    exact eq_comm
  rw [answered, List.countP_append, List.countP_singleton, answered]
  simp [hv, hsame]

theorem answered_snoc_of_not (hv : ¬v.request.IsFor "/quote") (status : Nat) :
    answered (log ++ [(v, reply)]) status = answered log status := by
  rw [answered, List.countP_append, List.countP_singleton, answered]
  simp [hv]

theorem total_bump (t : Tally Outcome) (o : Outcome) : total (t.bump o) = total t + 1 := by
  simp only [total, Tally.count_bump]
  cases o <;> simp <;> omega

/-! ## The counts -/

/-- The counts are those of a log. -/
structure DeskMetrics.Tells (m : DeskMetrics) (log : List (Visit × Http.Reply)) : Prop where
  requests : ∀ o, m.requests.count o = answered log o.status
  latencies : ∀ o, m.latencies.count o = answered log o.status
  rateLimited : m.rateLimited = answered log Outcome.rateLimited.status
  total : total m.requests = log.countP fun x => x.1.request.IsFor "/quote"
  requests_bare : m.requests.Bare
  latencies_bare : m.latencies.Bare

namespace DeskMetrics

variable {m : DeskMetrics}

theorem tells_initial : initial.Tells [] where
  requests _ := rfl
  latencies _ := rfl
  rateLimited := rfl
  total := rfl
  requests_bare := Tally.bare_empty
  latencies_bare := Tally.bare_empty

/-- A request for a quote is counted under the outcome of its reply. -/
theorem Tells.observe (h : m.Tells log) (hv : v.request.IsFor "/quote") {o : Outcome}
    (hreply : reply.status = o.status) : (m.observe o).Tells (log ++ [(v, reply)]) where
  requests o' := by
    rw [answered_snoc hv hreply, ← h.requests]
    exact Tally.count_bump _ _ _
  latencies o' := by
    rw [answered_snoc hv hreply, ← h.latencies]
    exact Tally.count_bump _ _ _
  rateLimited := by
    rw [answered_snoc hv hreply, ← h.rateLimited]
    cases o <;> rfl
  total := by
    rw [List.countP_append, List.countP_singleton, ← h.total]
    simp only [hv, decide_true, if_true]
    exact total_bump _ _
  requests_bare := h.requests_bare.bump o
  latencies_bare := h.latencies_bare.bump o

theorem Tells.other (h : m.Tells log) (hv : ¬v.request.IsFor "/quote") :
    m.Tells (log ++ [(v, reply)]) where
  requests o := by rw [answered_snoc_of_not hv, h.requests]
  latencies o := by rw [answered_snoc_of_not hv, h.latencies]
  rateLimited := by rw [answered_snoc_of_not hv, h.rateLimited]
  total := by
    rw [List.countP_append, List.countP_singleton, h.total]
    simp [hv]
  requests_bare := h.requests_bare
  latencies_bare := h.latencies_bare

end DeskMetrics

namespace Desk

variable {d : Desk} {s : DeskState}

theorem next_of_not_quote (hv : ¬v.request.IsFor "/quote") : d.next s v = s :=
  (route_of_not_quote hv s s).1

/-- One visit: it is counted if it asks for a quote, and else nothing changes. -/
theorem tells_next (h : s.metrics.Tells log) (v : Visit) :
    (d.next s v).metrics.Tells (log ++ [(v, d.reply s v)]) := by
  by_cases hv : v.request.IsFor "/quote"
  · have hreply : (d.reply s v).status =
        (outcomeOf (d.judge v.now v.request.credentials v.request.query s.table).1).status := by
      rw [reply, route_quote hv]
      exact status_quoteReply _
    have hnext : (d.next s v).metrics = s.metrics.observe
        (outcomeOf (d.judge v.now v.request.credentials v.request.query s.table).1) := by
      rw [next, route_quote hv]
    rw [hnext]
    exact h.observe hv hreply
  · rw [next_of_not_quote hv]
    exact h.other hv

theorem tells_after (d : Desk) (visits : List Visit) :
    (d.after .initial visits).metrics.Tells (d.log .initial visits) := by
  -- From the end, since a visit meets the state that all visits before it have left.
  induction visits using List.reverseRecOn with
  | nil => exact DeskMetrics.tells_initial
  | append_singleton visits v ih =>
    rw [after_snoc, log_snoc]
    exact tells_next ih v

theorem route_metrics {r : Request} (h : r.IsFor "/metrics") (henabled : d.metricsEnabled = true)
    (now : ClockReadings) (s : DeskState) :
    d.route now r s = (.text 200 Http.Reply.metricsType s.metrics.text, s) := by
  obtain ⟨hmethod, hpath⟩ := h
  rw [route]
  simp only [hmethod, hpath, henabled]
  rfl

end Desk

/-! ## The published counts -/

/-- The values of a sample with a count; a label that was never counted has no sample. -/
def shown (n : Nat) : List String := if n = 0 then [] else [toString n]

namespace DeskMetrics

theorem neat (m : DeskMetrics) : ∀ f ∈ m.families, f.Neat := by
  intro f hf
  simp only [families, List.mem_cons, List.not_mem_nil, or_false] at hf
  rcases hf with rfl | rfl | rfl | rfl
  · refine ⟨by simp, by simp, m.latencies.neat_samples _ fun o => ?_⟩
    cases o <;> decide
  · refine ⟨by simp, by simp, m.requests.neat_samples _ fun o => ?_⟩
    cases o <;> decide
  · refine ⟨by simp, by simp, ?_⟩
    simpa using Metrics.lineBreak_toString m.rateLimited
  · exact ⟨by decide, by decide, fun s hs => by cases hs⟩

theorem mem_sorted (o : Outcome) : o ∈ Outcome.sorted := by
  cases o <;> decide

theorem nodup_sorted : Outcome.sorted.Nodup := by decide

theorem shown_of_bare {t : Tally Outcome} (h : t.Bare) (o : Outcome) :
    (if o ∈ Outcome.sorted ∧ t.lists o = true then [toString (t.count o)] else []) =
      shown (t.count o) := by
  have hlisted := h o
  rw [shown]
  by_cases hzero : t.count o = 0
  · simp [hlisted, hzero]
  · simp [hlisted, hzero, mem_sorted]

theorem readValues_requests {m : DeskMetrics} (h : m.requests.Bare) (o : Outcome) :
    readValues ("fpc_quote_requests_total" ++ label "outcome" o.label) m.text =
      shown (m.requests.count o) := by
  have hvalues : Family.values
      ("fpc_quote_requests_total" ++ ("" ++ label "outcome" o.label)) _ = _ :=
    m.requests.values_samples nodup_sorted Outcome.label_inj "fpc_quote_requests_total"
      "Quote requests by outcome" .counter o
  have hkey : "fpc_quote_requests_total" ++ label "outcome" o.label ≠ "#" := by
    cases o <;> decide
  rw [String.empty_append, shown_of_bare h] at hvalues
  -- No sample of the other three families has a name that begins like this one.
  rw [text, Metrics.readValues_exposition m.neat hkey, families]
  simp only [List.flatMap_cons, List.flatMap_nil, List.append_nil, Metrics.uptime]
  rw [Family.values_eq_nil, hvalues, Family.values_eq_nil, Family.values_eq_nil]
  · simp
  all_goals
    dsimp only
    cases o <;> decide

theorem readValues_latencies {m : DeskMetrics} (h : m.latencies.Bare) (o : Outcome) :
    readValues ("fpc_quote_latency_seconds_count" ++ label "outcome" o.label) m.text =
      shown (m.latencies.count o) := by
  have hvalues : Family.values
      ("fpc_quote_latency_seconds" ++ ("_count" ++ label "outcome" o.label)) _ = _ :=
    m.latencies.values_samples nodup_sorted Outcome.label_inj "fpc_quote_latency_seconds"
      "Quote request handling latency by outcome" .histogram o
  have hname : "fpc_quote_latency_seconds_count" = "fpc_quote_latency_seconds" ++ "_count" := by
    decide
  have hkey : "fpc_quote_latency_seconds_count" ++ label "outcome" o.label ≠ "#" := by
    cases o <;> decide
  rw [shown_of_bare h, ← String.append_assoc, ← hname] at hvalues
  rw [text, Metrics.readValues_exposition m.neat hkey, families]
  simp only [List.flatMap_cons, List.flatMap_nil, List.append_nil, Metrics.uptime]
  rw [hvalues, Family.values_eq_nil, Family.values_eq_nil, Family.values_eq_nil]
  · simp
  all_goals
    dsimp only
    cases o <;> decide

theorem readValues_rateLimited (m : DeskMetrics) :
    readValues "fpc_rate_limited_total" m.text = [toString m.rateLimited] := by
  have hvalues (value : String) : Family.values "fpc_rate_limited_total" ⟨"fpc_rate_limited_total",
      "Quote requests rejected by the rate limiter", .counter, [("", value)], false⟩ = [value] := by
    simp [Family.values]
  rw [text, Metrics.readValues_exposition m.neat (by decide), families]
  simp only [List.flatMap_cons, List.flatMap_nil, List.append_nil, Metrics.uptime]
  rw [Family.values_eq_nil, Family.values_eq_nil, hvalues, Family.values_eq_nil]
  · rfl
  all_goals
    dsimp only
    decide

end DeskMetrics

namespace Desk

/-- Whatever is asked of a desk, in any order: the count of an outcome is the number of requests for
a quote that were answered with its status, and so is the count of its latencies; all counts
together are the number of requests for a quote; and the further count of the rate limit agrees. A
request for anything else changes no count. Whoever asks for the counts is told them. -/
theorem counted_once (d : Desk) (visits : List Visit) :
    let metrics := (d.after .initial visits).metrics
    let log := d.log .initial visits
    (∀ o : Outcome, metrics.requests.count o = answered log o.status) ∧
    total metrics.requests = (visits.countP fun v => v.request.IsFor "/quote") ∧
    metrics.rateLimited = metrics.requests.count .rateLimited ∧
    (∀ o, metrics.latencies.count o = metrics.requests.count o) ∧
    (∀ (s : DeskState) (v : Visit), ¬v.request.IsFor "/quote" → (d.next s v).metrics = s.metrics) ∧
    ∀ v : Visit, d.metricsEnabled = true → v.request.IsFor "/metrics" →
      let body := (d.reply (d.after .initial visits) v).body
      (∀ o : Outcome, readValues ("fpc_quote_requests_total" ++ label "outcome" o.label) body =
        shown (answered log o.status)) ∧
      (∀ o : Outcome,
        readValues ("fpc_quote_latency_seconds_count" ++ label "outcome" o.label) body =
          shown (answered log o.status)) ∧
      readValues "fpc_rate_limited_total" body = [toString (answered log 429)] := by
  intro metrics log
  have h : metrics.Tells log := tells_after d visits
  refine ⟨h.requests, ?_, ?_, ?_, ?_, ?_⟩
  · have hvisits : log.map (·.1) = visits := map_log d .initial visits
    rw [h.total, ← hvisits, List.countP_map]
    rfl
  · rw [h.rateLimited, h.requests]
  · intro o
    rw [h.latencies, h.requests]
  · intro s v hv
    rw [next_of_not_quote hv]
  · intro v henabled hv
    have hbody : (d.reply (d.after .initial visits) v).body = metrics.text := by
      rw [reply, route_metrics hv henabled]
      rfl
    rw [hbody]
    refine ⟨?_, ?_, ?_⟩
    · intro o
      rw [DeskMetrics.readValues_requests h.requests_bare, h.requests]
    · intro o
      rw [DeskMetrics.readValues_latencies h.latencies_bare, h.latencies]
    · rw [DeskMetrics.readValues_rateLimited, h.rateLimited]
      rfl

/-- The price of the first request is too large, the second one comes too soon, and the last one
asks for nothing that there is. -/
example : (silentDesk.log .initial [⟨⟨0, 0⟩, largeRequest, false⟩,
    ⟨⟨1000, 1000⟩, largeRequest, false⟩,
    ⟨⟨2000, 2000⟩, { largeRequest with method := "POST" }, false⟩]).map (·.2.status) =
      [400, 429, 404] := by
  decide +kernel

end Desk
end Paymaster.Quote

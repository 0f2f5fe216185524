import Paymaster.Proofs.Quote.Precedence
/-!
# Callers who are not let in

Two runs of a desk are compared: the one that was, and one without some of the requests for a quote
that were turned away for their credentials. Such a request touches nothing but the counts of its
own outcome, so the runs cannot be told apart by anything else: not by the table of calls, and not
by a reply that does not show the counts.
-/

namespace Paymaster

/-! ## Counts that are ahead -/

namespace Metrics.Tally

variable {κ : Type} [DecidableEq κ] {t u : Tally κ} {k : κ} {n : Nat}

/-- A tally has counted some more events than another one, all of them with one label. -/
structure Ahead (u : Tally κ) (k : κ) (n : Nat) (t : Tally κ) : Prop where
  count : ∀ l, u.count l = t.count l + if l = k then n else 0
  lists : ∀ l, l ≠ k → u.lists l = t.lists l

theorem Ahead.refl (t : Tally κ) (k : κ) : t.Ahead k 0 t where
  count l := by rw [ite_self, Nat.add_zero]
  lists _ _ := rfl

/-- An event in both tallies. -/
theorem Ahead.bump (h : u.Ahead k n t) (l : κ) : (u.bump l).Ahead k n (t.bump l) where
  count m := by
    rw [count_bump, count_bump, h.count]
    exact Nat.add_right_comm _ _ _
  lists m hm := by rw [lists_bump, lists_bump, h.lists m hm]

/-- An event of the label in the tally that is ahead. -/
theorem Ahead.bump_left (h : u.Ahead k n t) : (u.bump k).Ahead k (n + 1) t where
  count l := by
    rw [count_bump, h.count]
    by_cases hl : l = k
    · rw [if_pos hl, if_pos hl, if_pos hl, Nat.add_assoc]
    · rw [if_neg hl, if_neg hl, if_neg hl]
  lists l hl := by rw [lists_bump, if_neg hl, h.lists l hl]

end Metrics.Tally

namespace Quote

/-- The counts are those of another desk, but for some more requests without credentials. -/
structure DeskMetrics.Ahead (m : DeskMetrics) (n : Nat) (m' : DeskMetrics) : Prop where
  requests : m.requests.Ahead .unauthorized n m'.requests
  latencies : m.latencies.Ahead .unauthorized n m'.latencies
  rateLimited : m.rateLimited = m'.rateLimited

theorem DeskMetrics.Ahead.observe {m m' : DeskMetrics} {n : Nat} (h : m.Ahead n m') (o : Outcome) :
    (m.observe o).Ahead n (m'.observe o) where
  requests := h.requests.bump o
  latencies := h.latencies.bump o
  rateLimited := by rw [DeskMetrics.observe, DeskMetrics.observe, h.rateLimited]

theorem DeskMetrics.Ahead.observe_left {m m' : DeskMetrics} {n : Nat} (h : m.Ahead n m') :
    (m.observe .unauthorized).Ahead (n + 1) m' where
  requests := h.requests.bump_left
  latencies := h.latencies.bump_left
  rateLimited := h.rateLimited

/-- The tables are equal, and the counts but for some more requests without credentials. -/
structure DeskState.Ahead (s : DeskState) (n : Nat) (t : DeskState) : Prop where
  table : s.table = t.table
  metrics : s.metrics.Ahead n t.metrics

theorem DeskState.Ahead.refl (s : DeskState) : s.Ahead 0 s :=
  ⟨rfl, .refl _ _, .refl _ _, rfl⟩

/-! ## Runs of a desk -/

/-- A request, with what the clock shows. One of the two runs that are compared goes without the
visits that are taken out. -/
structure Visit where
  now : ClockReadings
  request : Request
  out : Bool

/-- The visits that are not taken out. -/
def Visit.left (visits : List Visit) : List Visit := visits.filter fun v => !v.out

namespace Desk

variable {d : Desk} {s t : DeskState} {v : Visit} {n : Nat} {visits later : List Visit}

/-- The reply to a visit. -/
def reply (d : Desk) (s : DeskState) (v : Visit) : Http.Reply := (d.route v.now v.request s).1

/-- The state after a visit. -/
def next (d : Desk) (s : DeskState) (v : Visit) : DeskState := (d.route v.now v.request s).2

/-- The state after some visits. -/
def after (d : Desk) (s : DeskState) (visits : List Visit) : DeskState := visits.foldl d.next s

theorem after_snoc (d : Desk) (s : DeskState) (visits : List Visit) (v : Visit) :
    d.after s (visits ++ [v]) = d.next (d.after s visits) v := by
  rw [after, List.foldl_append]
  rfl

/-- A visit asks for a quote and is told that its credentials are wrong. -/
def TurnedAway (d : Desk) (s : DeskState) (v : Visit) : Prop :=
  v.request.IsFor "/quote" ∧ (d.reply s v).status = 401

/-- All visits that are taken out are turned away in the whole run. -/
def OutTurnedAway (d : Desk) (s : DeskState) (visits : List Visit) : Prop :=
  ∀ before v later, visits = before ++ v :: later → v.out = true →
    d.TurnedAway (d.after s before) v

instance : Decidable (d.TurnedAway s v) :=
  inferInstanceAs (Decidable ((_ ∧ _) ∧ _))

theorem outTurnedAway_cons : d.OutTurnedAway s (v :: visits) ↔
    (v.out = true → d.TurnedAway s v) ∧ d.OutTurnedAway (d.next s v) visits := by
  constructor
  · intro h
    refine ⟨h [] v visits rfl, ?_⟩
    intro before w later hvisits hout
    exact h (v :: before) w later (by rw [hvisits, List.cons_append]) hout
  · rintro ⟨hv, hlater⟩ before w later hvisits hout
    cases before with
    | nil =>
      cases hvisits
      exact hv hout
    | cons u before =>
      cases hvisits
      exact hlater before w later rfl hout

/-- Whether only visits that are turned away are taken out shows when the run is gone through. -/
instance decidableOutTurnedAway (d : Desk) :
    (s : DeskState) → (visits : List Visit) → Decidable (d.OutTurnedAway s visits)
  | _, [] => .isTrue fun before _ _ hvisits => by cases before <;> cases hvisits
  | s, v :: visits =>
    have := decidableOutTurnedAway d (d.next s v) visits
    decidable_of_iff _ outTurnedAway_cons.symm

theorem OutTurnedAway.of_append (h : d.OutTurnedAway s (visits ++ later)) :
    d.OutTurnedAway s visits := by
  intro before v between hvisits
  apply h before v (between ++ later)
  rw [hvisits, List.append_assoc]
  rfl

/-! ## One visit -/

/-- Only a request for a quote changes the state, and of the others only one for the counts depends
on it. -/
theorem route_of_not_quote {now : ClockReadings} {r : Request} (h : ¬r.IsFor "/quote")
    (s t : DeskState) :
    (d.route now r s).2 = s ∧
      (¬r.IsFor "/metrics" → (d.route now r t).1 = (d.route now r s).1) := by
  rw [route, route]
  dsimp only
  split_ifs with hmethod hhealth hasset hquote hmetrics hshown
  · exact ⟨rfl, fun _ => rfl⟩
  · exact ⟨rfl, fun _ => rfl⟩
  · exact ⟨rfl, fun _ => rfl⟩
  · exact absurd ⟨not_not.mp hmethod, hquote⟩ h
  · exact ⟨rfl, fun hcounts => absurd ⟨not_not.mp hmethod, hmetrics⟩ hcounts⟩
  · exact ⟨rfl, fun hcounts => absurd ⟨not_not.mp hmethod, hmetrics⟩ hcounts⟩
  · exact ⟨rfl, fun _ => rfl⟩

/-- A visit that is turned away is counted, and nothing else. -/
theorem TurnedAway.next_eq (h : d.TurnedAway s v) :
    d.next s v = ⟨s.table, s.metrics.observe .unauthorized⟩ := by
  obtain ⟨hquote, hstatus⟩ := h
  rw [reply, route_quote hquote] at hstatus
  have hending := judge_ending d v.now v.request.credentials v.request.query s.table
  obtain ⟨⟨why, hanswer⟩, htable⟩ := hending.of_unauthorized hstatus
  rw [next, route_quote hquote, hanswer, htable]
  rfl

end Desk

namespace DeskState.Ahead

variable {d : Desk} {s t : DeskState} {v : Visit} {n : Nat}

/-- A reply that does not show the counts is the same in both states. -/
theorem reply_eq (h : s.Ahead n t) (hmetrics : ¬v.request.IsFor "/metrics") :
    d.reply t v = d.reply s v := by
  by_cases hquote : v.request.IsFor "/quote"
  · rw [Desk.reply, Desk.reply, Desk.route_quote hquote, Desk.route_quote hquote, h.table]
  · exact (Desk.route_of_not_quote hquote s t).2 hmetrics

/-- A visit in both runs. -/
theorem next (h : s.Ahead n t) (v : Visit) : (d.next s v).Ahead n (d.next t v) := by
  by_cases hquote : v.request.IsFor "/quote"
  · rw [Desk.next, Desk.next, Desk.route_quote hquote, Desk.route_quote hquote, h.table]
    exact ⟨rfl, h.metrics.observe _⟩
  · rw [Desk.next, Desk.next, (Desk.route_of_not_quote hquote s t).1,
      (Desk.route_of_not_quote hquote t s).1]
    exact h

/-- A visit that is turned away in one run and taken out of the other. -/
theorem next_left (h : s.Ahead n t) (haway : d.TurnedAway s v) : (d.next s v).Ahead (n + 1) t := by
  rw [haway.next_eq]
  exact ⟨h.table, h.metrics.observe_left⟩

end DeskState.Ahead

namespace Desk

variable {d : Desk} {s : DeskState} {visits : List Visit}

/-! ## Two runs -/

/-- The whole run is ahead of the other one by the requests that were taken out. -/
theorem OutTurnedAway.ahead (h : d.OutTurnedAway s visits) :
    (d.after s visits).Ahead (visits.countP Visit.out) (d.after s (Visit.left visits)) := by
  -- From the end, since a visit is turned away in the state that all visits before it have led to.
  induction visits using List.reverseRecOn with
  | nil => exact .refl s
  | append_singleton before v ih =>
    have hbefore := ih h.of_append
    rw [after_snoc, Visit.left, List.filter_append, List.countP_append]
    by_cases hout : v.out = true
    · have haway : d.TurnedAway (d.after s before) v := h before v [] rfl hout
      rw [List.filter_cons_of_neg (by simpa using hout), List.filter_nil, List.append_nil,
        List.countP_singleton, if_pos hout]
      exact hbefore.next_left haway
    · rw [List.filter_cons_of_pos (by simpa using hout), List.filter_nil, after_snoc,
        List.countP_singleton, if_neg hout]
      exact hbefore.next v

/-- Requests for a quote that are turned away for their credentials can be taken out of a run, and
nobody else notices: all other replies stay the same, but for the counts if they are asked for, and
so does the table of calls at the end. Only the requests without credentials and their latencies are
counted that many times less. -/
theorem turned_away_unseen (h : d.OutTurnedAway s visits) :
    (∀ before v later, visits = before ++ v :: later → ¬v.request.IsFor "/metrics" →
      d.reply (d.after s (Visit.left before)) v = d.reply (d.after s before) v) ∧
    (d.after s visits).Ahead (visits.countP Visit.out) (d.after s (Visit.left visits)) := by
  constructor
  · intro before v later hvisits hmetrics
    rw [hvisits] at h
    exact h.of_append.ahead.reply_eq hmetrics
  · exact h.ahead

/-- A desk that wants an API key. It grants its holder one request in a minute. -/
def guardedDesk : Desk where
  binder := silentDesk.binder
  assetName := "coin"
  gate := ⟨.apiKey, some (Access.digest "secret"), "x-internal", none⟩
  limits := ⟨true, 1, 60, 1⟩
  metricsEnabled := true

/-- A request for a quote with an API key, if there is one. -/
def requestWith (key : Option String) : Request :=
  ⟨"GET", "/quote?user=0x5&fj_amount=101", ⟨key, none, "10.0.0.7"⟩⟩

/-- Of the callers without the right key, the first two are taken out. -/
def guardedVisits : List Visit :=
  [⟨⟨0, 0⟩, requestWith none, true⟩, ⟨⟨1000, 1001⟩, requestWith (some "secret"), false⟩,
    ⟨⟨2000, 2000⟩, requestWith (some "guess"), true⟩, ⟨⟨3000, 3000⟩, requestWith none, false⟩]

/-- The second request of the holder of the key. -/
def guardedLast : Visit := ⟨⟨4000, 4000⟩, requestWith (some "secret"), false⟩

/-- The last request is refused by the limit, with the two callers and without them. -/
theorem turned_away_unseen_guarded :
    (guardedDesk.reply (guardedDesk.after .initial (Visit.left guardedVisits)) guardedLast).status =
      429 ∧
    (guardedDesk.after .initial (guardedVisits ++ [guardedLast])).metrics.requests.count
        .unauthorized =
      (guardedDesk.after .initial
        (Visit.left (guardedVisits ++ [guardedLast]))).metrics.requests.count .unauthorized + 2 := by
  have hout : guardedDesk.OutTurnedAway .initial (guardedVisits ++ [guardedLast]) := by
    decide +kernel
  obtain ⟨hreply, hahead⟩ := turned_away_unseen hout
  have hlimit :
      (guardedDesk.reply (guardedDesk.after .initial guardedVisits) guardedLast).status = 429 := by
    decide +kernel
  have hcount := hahead.metrics.requests.count .unauthorized
  have htwo : (guardedVisits ++ [guardedLast]).countP Visit.out = 2 := rfl
  rw [if_pos rfl, htwo] at hcount
  rw [hreply guardedVisits guardedLast [] rfl (fun h => absurd h.2 (by decide))]
  exact ⟨hlimit, hcount⟩

end Desk
end Quote
end Paymaster

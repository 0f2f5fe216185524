/-!
# Tallies

A tally counts events by a label. A label is listed once it has been counted or declared.
-/

namespace Paymaster.Metrics

/-- Counts by label, in the order in which the labels came up. -/
structure Tally (κ : Type) where
  /-- The labels with their counts. -/
  counts : List (κ × Nat)
  deriving Repr

namespace Tally

variable {κ : Type} [DecidableEq κ]

/-- The tally without labels. -/
def empty : Tally κ := ⟨[]⟩

/-- The tally with some labels at zero. -/
def declared (labels : List κ) : Tally κ := ⟨labels.map fun k => (k, 0)⟩

/-- The count of a label. -/
def count (t : Tally κ) (k : κ) : Nat := (t.counts.lookup k).getD 0

/-- The label is listed. -/
def lists (t : Tally κ) (k : κ) : Bool := (t.counts.lookup k).isSome

/-- Counts with one more event. -/
def bumpIn (k : κ) : List (κ × Nat) → List (κ × Nat)
  | [] => [(k, 1)]
  | (l, n) :: rest => if k = l then (l, n + 1) :: rest else (l, n) :: bumpIn k rest

/-- The tally after one more event. -/
def bump (t : Tally κ) (k : κ) : Tally κ := ⟨bumpIn k t.counts⟩

theorem lookup_bumpIn (k l : κ) (counts : List (κ × Nat)) : (bumpIn k counts).lookup l =
    if l = k then some ((counts.lookup k).getD 0 + 1) else counts.lookup l := by
  induction counts with
  | nil =>
    rw [bumpIn, List.lookup_cons]
    by_cases h : l = k
    · subst h
      simp
    · have hl : (l == k) = false := beq_false_of_ne h
      rw [hl, if_neg h]
  | cons x rest ih =>
    obtain ⟨m, n⟩ := x
    rw [bumpIn]
    by_cases hk : k = m
    · subst hk
      rw [if_pos rfl, List.lookup_cons, List.lookup_cons, List.lookup_cons]
      by_cases h : l = k
      · subst h
        simp
      · have hl : (l == k) = false := beq_false_of_ne h
        rw [hl, if_neg h]
    · have hm : (k == m) = false := beq_false_of_ne hk
      rw [if_neg hk, List.lookup_cons, List.lookup_cons, List.lookup_cons, ih, hm]
      by_cases h : l = k
      · subst h
        rw [hm]
      · rw [if_neg h, if_neg h]

/-- Counting an event adds one to its label and nothing to the others. -/
theorem count_bump (t : Tally κ) (k l : κ) :
    (t.bump k).count l = t.count l + if l = k then 1 else 0 := by
  rw [count, count, bump, lookup_bumpIn]
  by_cases h : l = k
  · simp [h]
  · simp [h]

/-- Counting an event lists its label. -/
theorem lists_bump (t : Tally κ) (k l : κ) :
    (t.bump k).lists l = if l = k then true else t.lists l := by
  rw [lists, lists, bump, lookup_bumpIn]
  by_cases h : l = k
  · simp [h]
  · simp [h]

end Tally
end Paymaster.Metrics

/-!
# Progress

Work that waits for answers is looked at again and again. Each look either ends it or leaves it to
be looked at later.
-/

namespace Paymaster

/-- Where some work stands after a look at it. -/
inductive Progress (π α : Type) where
  /-- There is more to do, from here. -/
  | pending (rest : π)
  /-- It is done. -/
  | done (result : α)
  deriving DecidableEq, Repr

namespace Progress

variable {π ρ α β : Type}

/-- The same progress with the rest and the result renamed. -/
def map (f : π → ρ) (g : α → β) : Progress π α → Progress ρ β
  | .pending p => .pending (f p)
  | .done a => .done (g a)

/-- The result, if the work is done. -/
def result? : Progress π α → Option α
  | .pending _ => none
  | .done a => some a

/-- One property of the rest, if there is more to do, and another of the result otherwise. -/
def Meets (P : π → Prop) (Q : α → Prop) : Progress π α → Prop
  | .pending p => P p
  | .done a => Q a

@[simp] theorem map_pending (f : π → ρ) (g : α → β) (p : π) :
    (pending p : Progress π α).map f g = .pending (f p) := rfl

@[simp] theorem map_done (f : π → ρ) (g : α → β) (a : α) :
    (done a : Progress π α).map f g = .done (g a) := rfl

/-! ## Looks one after the other -/

/-- What is done stays as it is. -/
def StaysDone (f : Nat → Progress π α) : Prop := ∀ n a, f n = .done a → f (n + 1) = .done a

variable {f : Nat → Progress π α} {n k : Nat} {a : α}

theorem StaysDone.done_of_le (hf : StaysDone f) (h : f n = .done a) (hle : n ≤ k) :
    f k = .done a := by
  induction hle with
  | refl => exact h
  | step _ ih => exact hf _ a ih

/-- What goes on has gone on before. -/
theorem StaysDone.exists_pending_of_le {p : π} (hf : StaysDone f) (h : f n = .pending p)
    (hle : k ≤ n) : ∃ q, f k = .pending q := by
  cases hk : f k with
  | pending q => exact ⟨q, rfl⟩
  | done a =>
    rw [hf.done_of_le hk hle] at h
    cases h

/-- What is done was ended by one look. -/
theorem StaysDone.exists_last_pending {p : π} (hf : StaysDone f) (hstart : f 0 = .pending p)
    (h : f n = .done a) : ∃ k < n, ∃ q, f k = .pending q ∧ f (k + 1) = .done a := by
  induction n with
  | zero =>
    rw [hstart] at h
    cases h
  | succ n ih =>
    cases hn : f n with
    | pending q => exact ⟨n, Nat.lt_succ_self n, q, hn, h⟩
    | done b =>
      rw [hf n b hn] at h
      obtain ⟨k, hk, hlast⟩ := ih (hn.trans h)
      exact ⟨k, Nat.lt_succ_of_lt hk, hlast⟩

end Progress
end Paymaster

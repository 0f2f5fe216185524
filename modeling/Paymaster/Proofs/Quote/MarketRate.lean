import Mathlib.Order.Bounds.Basic
import Paymaster.Proofs.Quote.Terms
/-!
# Prices at the market rate

The rate of a desk is the market rate raised by a margin, and it is kept as two whole numbers. So a
price is first a product of four numbers and then one division, rounded up once. Each product either
fits an amount or is reported as too large.
-/

namespace Paymaster

/-- A quotient that is rounded up is the least number that covers the dividend. -/
theorem isLeast_ceilDiv {n d : ℕ} (hd : 0 < d) : IsLeast {k : ℕ | n ≤ k * d} (n ⌈/⌉ d) := by
  have hiff (k : ℕ) : n ⌈/⌉ d ≤ k ↔ n ≤ k * d := by
    rw [Nat.mul_comm]
    exact ceilDiv_le_iff_le_mul hd
  constructor
  · show n ≤ (n ⌈/⌉ d) * d
    exact (hiff _).mp le_rfl
  · intro k hk
    exact (hiff k).mpr hk

namespace Rate

variable {num den n d fj : Amount} {bips : UInt32} {r : Rate}

theorem of_eq_ok : of n d = .ok r ↔ r.num = n ∧ r.den = d := by
  constructor
  · intro h
    rw [of] at h
    split_ifs at h
    cases h
    exact ⟨rfl, rfl⟩
  · rintro ⟨rfl, rfl⟩
    rw [of, dif_neg r.num_ne_zero, dif_neg r.den_ne_zero]

/-- The parts of the final rate are the parts of the market rate, multiplied out. -/
theorem fromMarket_eq_ok : fromMarket num den bips = .ok r ↔
    r.num.toNat = num.toNat * (basisPoints + bips.toNat) ∧
      r.den.toNat = den.toNat * basisPoints := by
  rw [fromMarket]
  constructor
  · intro h
    obtain ⟨n, hn, h⟩ := Except.bind_eq_ok.mp h
    obtain ⟨d, hd, h⟩ := Except.bind_eq_ok.mp h
    obtain ⟨rfl, rfl⟩ := of_eq_ok.mp h
    exact ⟨checkedMul_eq_ok.mp hn, checkedMul_eq_ok.mp hd⟩
  · rintro ⟨hn, hd⟩
    have hof : of r.num r.den = .ok r := of_eq_ok.mpr ⟨rfl, rfl⟩
    exact Except.bind_eq_ok.mpr ⟨r.num, checkedMul_eq_ok.mpr hn,
      Except.bind_eq_ok.mpr ⟨r.den, checkedMul_eq_ok.mpr hd, hof⟩⟩

/-- A market rate whose parts fit an amount when they are multiplied out is a rate, unless one of
its parts is zero. -/
theorem exists_fromMarket_iff : (∃ r, fromMarket num den bips = .ok r) ↔
    num ≠ 0 ∧ den ≠ 0 ∧ num.toNat * (basisPoints + bips.toNat) < Amount.bound ∧
      den.toNat * basisPoints < Amount.bound := by
  have hbasis : 0 < basisPoints := by decide
  constructor
  · rintro ⟨r, hr⟩
    obtain ⟨hn, hd⟩ := fromMarket_eq_ok.mp hr
    have hnum := Amount.ne_zero_iff.mp r.num_ne_zero
    have hden := Amount.ne_zero_iff.mp r.den_ne_zero
    rw [hn] at hnum
    rw [hd] at hden
    refine ⟨Amount.ne_zero_iff.mpr ?_, Amount.ne_zero_iff.mpr ?_, ?_, ?_⟩
    · exact Nat.ne_zero_of_mul_ne_zero_left hnum
    · exact Nat.ne_zero_of_mul_ne_zero_left hden
    · rw [← hn]
      exact r.num.toNat_lt_bound
    · rw [← hd]
      exact r.den.toNat_lt_bound
  · rintro ⟨hnum, hden, hn, hd⟩
    have hn' := Amount.toNat_ofNat hn
    have hd' := Amount.toNat_ofNat hd
    have hnum' : BitVec.ofNat 128 (num.toNat * (basisPoints + bips.toNat)) ≠ 0 := by
      rw [Amount.ne_zero_iff, hn']
      exact Nat.mul_ne_zero (Amount.ne_zero_iff.mp hnum) (by omega)
    have hden' : BitVec.ofNat 128 (den.toNat * basisPoints) ≠ 0 := by
      rw [Amount.ne_zero_iff, hd']
      exact Nat.mul_ne_zero (Amount.ne_zero_iff.mp hden) (by omega)
    exact ⟨⟨_, _, hnum', hden'⟩, fromMarket_eq_ok.mpr ⟨hn', hd'⟩⟩

/-- A part that is too large is reported, and the numerator comes first. -/
theorem fromMarket_eq_overflow {quantity : String} :
    fromMarket num den bips = .error (.overflow quantity) ↔
      (Amount.bound ≤ num.toNat * (basisPoints + bips.toNat) ∧ quantity = "rate numerator") ∨
        (num.toNat * (basisPoints + bips.toNat) < Amount.bound ∧
          Amount.bound ≤ den.toNat * basisPoints ∧ quantity = "rate denominator") := by
  rw [fromMarket]
  cases hn : checkedMul num.toNat (basisPoints + bips.toNat) "rate numerator" with
  | error why =>
    obtain ⟨hlarge, rfl⟩ := checkedMul_eq_error.mp hn
    have hfits : ¬num.toNat * (basisPoints + bips.toNat) < Amount.bound := Nat.not_lt.mpr hlarge
    simp [bind, Except.bind, hlarge, hfits, eq_comm]
  | ok n =>
    have hfits := checkedMul_eq_ok.mp hn ▸ n.toNat_lt_bound
    have hsmall : ¬Amount.bound ≤ num.toNat * (basisPoints + bips.toNat) := Nat.not_le.mpr hfits
    cases hd : checkedMul den.toNat basisPoints "rate denominator" with
    | error why =>
      obtain ⟨hlarge, rfl⟩ := checkedMul_eq_error.mp hd
      simp [bind, Except.bind, hfits, hsmall, hlarge, eq_comm]
    | ok d =>
      have hsmall' : ¬Amount.bound ≤ den.toNat * basisPoints :=
        Nat.not_le.mpr (checkedMul_eq_ok.mp hd ▸ d.toNat_lt_bound)
      have hof : of n d ≠ .error (.overflow quantity) := by
        rw [of]
        split_ifs
        · exact nofun
        · exact nofun
        · exact nofun
      simp [bind, Except.bind, hsmall, hsmall', hof]

theorem paymentFor_eq_overflow : (∃ quantity, r.paymentFor fj = .error (.overflow quantity)) ↔
    Amount.bound ≤ fj.toNat * r.num.toNat := by
  constructor
  · rintro ⟨quantity, h⟩
    exact ((payment_eq_error r.den_ne_zero).mp h).1
  · intro h
    exact ⟨_, (payment_eq_error r.den_ne_zero).mpr ⟨h, rfl⟩⟩

theorem exists_paymentFor (hfits : fj.toNat * r.num.toNat < Amount.bound) : ∃ p,
    r.paymentFor fj = .ok p ∧
      IsLeast {k : ℕ | fj.toNat * r.num.toNat ≤ k * r.den.toNat} p.toNat := by
  have hpayment := payment_of_fits r.den_ne_zero hfits
  refine ⟨_, hpayment, ?_⟩
  rw [((payment_eq_ok r.den_ne_zero).mp hpayment).2]
  exact isLeast_ceilDiv (Amount.one_le r.den_ne_zero)

/-- A market rate gives a final rate exactly if neither part is zero and both parts fit an amount
when they are multiplied out, and a part that does not fit is reported. At the final rate a price
that does not fit is reported, and any other price is the least whole amount that covers the fee
juice at the market rate with the margin. -/
theorem market_price_exact (num den fj : Amount) (bips : UInt32) :
    ((∃ r, fromMarket num den bips = .ok r) ↔ num ≠ 0 ∧ den ≠ 0 ∧
      num.toNat * (10000 + bips.toNat) < Amount.bound ∧ den.toNat * 10000 < Amount.bound) ∧
    ((∃ quantity, fromMarket num den bips = .error (.overflow quantity)) ↔
      Amount.bound ≤ num.toNat * (10000 + bips.toNat) ∨ Amount.bound ≤ den.toNat * 10000) ∧
    ∀ r, fromMarket num den bips = .ok r →
      r.num.toNat = num.toNat * (10000 + bips.toNat) ∧ r.den.toNat = den.toNat * 10000 ∧
      ((∃ quantity, r.paymentFor fj = .error (.overflow quantity)) ↔
        Amount.bound ≤ fj.toNat * num.toNat * (10000 + bips.toNat)) ∧
      (fj.toNat * num.toNat * (10000 + bips.toNat) < Amount.bound →
        ∃ p, r.paymentFor fj = .ok p ∧
          IsLeast {k : ℕ | fj.toNat * num.toNat * (10000 + bips.toNat) ≤ k * den.toNat * 10000}
            p.toNat) := by
  refine ⟨exists_fromMarket_iff, ?_, ?_⟩
  · constructor
    · rintro ⟨quantity, h⟩
      rcases fromMarket_eq_overflow.mp h with ⟨hnum, -⟩ | ⟨-, hden, -⟩
      · exact .inl hnum
      · exact .inr hden
    · intro h
      by_cases hnum : Amount.bound ≤ num.toNat * (basisPoints + bips.toNat)
      · exact ⟨_, fromMarket_eq_overflow.mpr (.inl ⟨hnum, rfl⟩)⟩
      · have hden : Amount.bound ≤ den.toNat * basisPoints := h.resolve_left hnum
        exact ⟨_, fromMarket_eq_overflow.mpr (.inr ⟨Nat.not_le.mp hnum, hden, rfl⟩)⟩
  · intro r hr
    obtain ⟨hnum, hden⟩ := fromMarket_eq_ok.mp hr
    have hprice : fj.toNat * r.num.toNat = fj.toNat * num.toNat * (10000 + bips.toNat) := by
      rw [hnum, Nat.mul_assoc, basisPoints]
    refine ⟨hnum, hden, ?_, ?_⟩
    · rw [← hprice]
      exact paymentFor_eq_overflow
    · intro hfits
      rw [← hprice] at hfits
      obtain ⟨p, hp, hleast⟩ := exists_paymentFor hfits
      have hset (k : ℕ) : k * r.den.toNat = k * den.toNat * 10000 := by
        rw [hden, Nat.mul_assoc, basisPoints]
      simp only [hprice, hset] at hleast
      exact ⟨p, hp, hleast⟩

/-- At a third with a margin of a quarter of a percent, seven units are sold at a price that is
rounded up, and the largest amount has no price. -/
theorem market_price_exact_third : ∃ r p, fromMarket 1 3 25 = .ok r ∧ r.paymentFor 7 = .ok p ∧
    IsLeast {k : ℕ | 7 * 1 * (10000 + 25) ≤ k * 3 * 10000} p.toNat ∧
      ∃ quantity, r.paymentFor Amount.max = .error (.overflow quantity) := by
  obtain ⟨hexists, -, hprice⟩ := market_price_exact 1 3 7 25
  obtain ⟨r, hr⟩ := hexists.mpr (by decide)
  obtain ⟨-, -, -, hfits⟩ := hprice r hr
  obtain ⟨p, hp, hleast⟩ := hfits (by decide)
  obtain ⟨-, -, hlarge, -⟩ := (market_price_exact 1 3 Amount.max 25).2.2 r hr
  exact ⟨r, p, hr, hp, hleast, hlarge.mpr (by decide)⟩

end Rate
end Paymaster

import Paymaster.Proofs.Quote.MarketRate
/-!
# Prices of different purchases

A price is rounded up once, so a purchase that is cut in two is rounded up twice. Here prices are
compared with each other: those of the parts with that of the whole, those of less and of more fee
juice, and those at a lower and at a higher margin. Whoever can be told the price of the whole can be
told the prices of the parts, and no other way of buying the same is cheaper.
-/

namespace Paymaster

/-! ## Quotients rounded up -/

section CeilDiv

variable {m n d : ℕ}

theorem ceilDiv_mono (hd : 0 < d) (h : m ≤ n) : m ⌈/⌉ d ≤ n ⌈/⌉ d :=
  (gc_mul_ceilDiv hd).monotone_l h

/-- A quotient that is rounded up is less than one too large. -/
theorem mul_ceilDiv_lt (hd : 0 < d) : d * (n ⌈/⌉ d) < n + d := by
  rw [Nat.ceilDiv_eq_add_pred_div]
  have hle := Nat.mul_div_le (n + d - 1) d
  omega

/-- A sum is covered by what covers its parts. -/
theorem add_ceilDiv_le (hd : 0 < d) : (m + n) ⌈/⌉ d ≤ m ⌈/⌉ d + n ⌈/⌉ d := by
  rw [ceilDiv_le_iff_le_mul hd, Nat.mul_add]
  have hm : m ≤ d * (m ⌈/⌉ d) := le_smul_ceilDiv hd
  have hn : n ≤ d * (n ⌈/⌉ d) := le_smul_ceilDiv hd
  exact Nat.add_le_add hm hn

/-- Rounding up twice costs at most one more than rounding up once. -/
theorem ceilDiv_add_ceilDiv_le (hd : 0 < d) : m ⌈/⌉ d + n ⌈/⌉ d ≤ (m + n) ⌈/⌉ d + 1 := by
  have hm := mul_ceilDiv_lt (n := m) hd
  have hn := mul_ceilDiv_lt (n := n) hd
  have hsum : m + n ≤ d * ((m + n) ⌈/⌉ d) := le_smul_ceilDiv hd
  -- each of the two roundings adds less than `d`
  have hlt : d * (m ⌈/⌉ d + n ⌈/⌉ d) < d * ((m + n) ⌈/⌉ d + 2) := by
    rw [Nat.mul_add, Nat.mul_add]
    omega
  have := Nat.lt_of_mul_lt_mul_left hlt
  omega

end CeilDiv

/-! ## Prices at one rate -/

namespace Rate

variable {r s : Rate} {a b c p q : Amount}

theorem den_pos (r : Rate) : 0 < r.den.toNat := Amount.one_le r.den_ne_zero

theorem paymentFor_eq_ok : r.paymentFor a = .ok p ↔ a.toNat * r.num.toNat < Amount.bound ∧
    p.toNat = (a.toNat * r.num.toNat) ⌈/⌉ r.den.toNat :=
  payment_eq_ok r.den_ne_zero

theorem exists_paymentFor_iff :
    (∃ p, r.paymentFor a = .ok p) ↔ a.toNat * r.num.toNat < Amount.bound := by
  constructor
  · rintro ⟨p, hp⟩
    exact (paymentFor_eq_ok.mp hp).1
  · intro hfits
    obtain ⟨p, hp, -⟩ := exists_paymentFor hfits
    exact ⟨p, hp⟩

/-- Less fee juice has a price if more has one, and it is no higher. -/
theorem paymentFor_mono (hle : a.toNat ≤ b.toNat) (hb : r.paymentFor b = .ok q) :
    ∃ p, r.paymentFor a = .ok p ∧ p.toNat ≤ q.toNat := by
  obtain ⟨hfits, hq⟩ := paymentFor_eq_ok.mp hb
  have hprice : a.toNat * r.num.toNat ≤ b.toNat * r.num.toNat := Nat.mul_le_mul_right _ hle
  obtain ⟨p, hp⟩ := exists_paymentFor_iff.mpr (Nat.lt_of_le_of_lt hprice hfits)
  refine ⟨p, hp, ?_⟩
  rw [(paymentFor_eq_ok.mp hp).2, hq]
  exact ceilDiv_mono r.den_pos hprice

/-- The parts of a purchase have prices if the whole has one; together they cost as much as the
whole, or one more. -/
theorem paymentFor_split (hsum : c.toNat = a.toNat + b.toNat) {whole : Amount}
    (hc : r.paymentFor c = .ok whole) : ∃ p q, r.paymentFor a = .ok p ∧ r.paymentFor b = .ok q ∧
      whole.toNat ≤ p.toNat + q.toNat ∧ p.toNat + q.toNat ≤ whole.toNat + 1 := by
  have ha : a.toNat ≤ c.toNat := hsum ▸ Nat.le_add_right _ _
  have hb : b.toNat ≤ c.toNat := hsum ▸ Nat.le_add_left _ _
  obtain ⟨p, hp, -⟩ := paymentFor_mono ha hc
  obtain ⟨q, hq, -⟩ := paymentFor_mono hb hc
  refine ⟨p, q, hp, hq, ?_⟩
  rw [(paymentFor_eq_ok.mp hp).2, (paymentFor_eq_ok.mp hq).2, (paymentFor_eq_ok.mp hc).2, hsum,
    Nat.add_mul]
  exact ⟨add_ceilDiv_le r.den_pos, ceilDiv_add_ceilDiv_le r.den_pos⟩

/-! ## Prices at two margins -/

/-- A higher margin has a higher numerator and the same denominator. -/
theorem fromMarket_mono {num den : Amount} {f g : UInt32} (hle : f ≤ g)
    (hf : fromMarket num den f = .ok r) (hg : fromMarket num den g = .ok s) :
    r.num.toNat ≤ s.num.toNat ∧ r.den = s.den := by
  obtain ⟨hnum, hden⟩ := fromMarket_eq_ok.mp hf
  obtain ⟨hnum', hden'⟩ := fromMarket_eq_ok.mp hg
  have hbips : f.toNat ≤ g.toNat := UInt32.le_iff_toNat_le.mp hle
  constructor
  · rw [hnum, hnum']
    exact Nat.mul_le_mul_left _ (Nat.add_le_add_left hbips _)
  · exact BitVec.eq_of_toNat_eq (hden.trans hden'.symm)

theorem paymentFor_le_of_margin {num den : Amount} {f g : UInt32} (hle : f ≤ g)
    (hf : fromMarket num den f = .ok r) (hg : fromMarket num den g = .ok s)
    (hp : r.paymentFor a = .ok p) (hq : s.paymentFor a = .ok q) : p.toNat ≤ q.toNat := by
  obtain ⟨hnum, hden⟩ := fromMarket_mono hle hf hg
  rw [(paymentFor_eq_ok.mp hp).2, (paymentFor_eq_ok.mp hq).2, hden]
  exact ceilDiv_mono s.den_pos (Nat.mul_le_mul_left _ hnum)

/-! ## Ways to buy -/

/-- Nothing is gained by buying in other portions: whenever a whole has a price, its two parts have
prices that add up to that of the whole or to one more; less fee juice costs no more than more, and
any fee juice costs something. Of two margins on one market rate the higher one asks no less. -/
theorem no_gain_by_portions :
    (∀ (r : Rate) (a b c whole : Amount), c.toNat = a.toNat + b.toNat →
      r.paymentFor c = .ok whole → ∃ p q, r.paymentFor a = .ok p ∧ r.paymentFor b = .ok q ∧
        whole.toNat ≤ p.toNat + q.toNat ∧ p.toNat + q.toNat ≤ whole.toNat + 1) ∧
    (∀ (r : Rate) (a b q : Amount), a.toNat ≤ b.toNat → r.paymentFor b = .ok q →
      ∃ p, r.paymentFor a = .ok p ∧ p.toNat ≤ q.toNat) ∧
    (∀ (r : Rate) (a p : Amount), 1 ≤ a.toNat → r.paymentFor a = .ok p → 1 ≤ p.toNat) ∧
    ∀ (num den : Amount) (f g : UInt32) (r s : Rate) (a p q : Amount), f ≤ g →
      fromMarket num den f = .ok r → fromMarket num den g = .ok s →
      r.paymentFor a = .ok p → s.paymentFor a = .ok q → p.toNat ≤ q.toNat := by
  refine ⟨?_, ?_, ?_, ?_⟩
  · intro r a b c whole hsum hc
    exact paymentFor_split hsum hc
  · intro r a b q hle hb
    exact paymentFor_mono hle hb
  · intro r a p hone hp
    have hne : a ≠ 0 := Amount.ne_zero_iff.mpr (Nat.one_le_iff_ne_zero.mp hone)
    exact one_le_payment hne r.num_ne_zero r.den_ne_zero hp
  · intro num den f g r s a p q hle hf hg hp hq
    exact paymentFor_le_of_margin hle hf hg hp hq

/-- At a third, eight units cost three, and one more if seven and one are bought; with a margin of
half the price they cost four. -/
theorem no_gain_by_portions_thirds : ∃ r s p q,
    fromMarket 1 3 0 = .ok r ∧ fromMarket 1 3 5000 = .ok s ∧ r.paymentFor 8 = .ok 3 ∧
      r.paymentFor 7 = .ok p ∧ r.paymentFor 1 = .ok q ∧ s.paymentFor 8 = .ok 4 ∧
      3 ≤ p.toNat + q.toNat ∧ p.toNat + q.toNat ≤ 3 + 1 ∧ q.toNat ≤ p.toNat ∧ 1 ≤ q.toNat ∧
      (3 : Amount).toNat ≤ (4 : Amount).toNat := by
  obtain ⟨hsplit, hmono, hone, hmargin⟩ := no_gain_by_portions
  have hr : fromMarket 1 3 0 = .ok ⟨10000, 30000, by decide, by decide⟩ :=
    fromMarket_eq_ok.mpr ⟨rfl, rfl⟩
  have hs : fromMarket 1 3 5000 = .ok ⟨15000, 30000, by decide, by decide⟩ :=
    fromMarket_eq_ok.mpr ⟨rfl, rfl⟩
  have hwhole : Rate.paymentFor ⟨10000, 30000, by decide, by decide⟩ 8 = .ok 3 :=
    paymentFor_eq_ok.mpr ⟨by decide, by decide⟩
  have hdear : Rate.paymentFor ⟨15000, 30000, by decide, by decide⟩ 8 = .ok 4 :=
    paymentFor_eq_ok.mpr ⟨by decide, by decide⟩
  obtain ⟨p, q, hp, hq, hle, hle'⟩ := hsplit _ 7 1 8 3 rfl hwhole
  obtain ⟨q', hq', hqp⟩ := hmono _ 1 7 p (by decide) hp
  cases hq.symm.trans hq'
  exact ⟨_, _, p, q, hr, hs, hwhole, hp, hq, hdear, hle, hle', hqp,
    hone _ 1 q (by decide) hq, hmargin 1 3 0 5000 _ _ 8 3 4 (by decide) hr hs hwhole hdear⟩

end Rate
end Paymaster

import Paymaster.Signer
/-!
# Exchange rates

A quote sells fee juice for another asset. The rate is a fraction of two amounts; it is the market
rate raised by the operator's margin in basis points. A payment is the smallest whole amount that
covers the price, so it is rounded up. Every product is checked against the width of an amount.
-/

namespace Paymaster

/-- Why there is no quote. -/
inductive QuoteError where
  /-- The numerator of the rate is zero. -/
  | zeroRate
  /-- The denominator of the rate is zero. -/
  | zeroDenominator
  /-- No fee juice is asked for. -/
  | zeroAmount
  /-- The user is the zero address. -/
  | zeroUser
  /-- The named party is the zero address. -/
  | zeroAddress (party : String)
  /-- The quote would be valid for no time at all. -/
  | zeroValidity
  /-- The named quantity does not fit its width. -/
  | overflow (quantity : String)
  /-- The signer failed. -/
  | signing (cause : SigningError)
  deriving DecidableEq, Repr

/-- The wording of a quote error. -/
def QuoteError.message : QuoteError → String
  | .zeroRate => "rate numerator must be > 0"
  | .zeroDenominator => "rate denominator must be > 0"
  | .zeroAmount => "fj_amount must be > 0"
  | .zeroUser => "user address must not be zero"
  | .zeroAddress party => s!"{party} address must not be zero"
  | .zeroValidity => "quote validity must be > 0 seconds"
  | .overflow quantity => s!"arithmetic overflow computing {quantity}"
  | .signing e => s!"signing failed: {e.message}"

/-- The number of basis points in one. -/
def basisPoints : Nat := 10000

/-- The product of two numbers, if it fits an amount. -/
def checkedMul (a b : Nat) (quantity : String) : Except QuoteError Amount :=
  match Amount.ofNat? (a * b) with
  | some p => .ok p
  | none => .error (.overflow quantity)

/-- The least number whose product with `d` is at least `n`. -/
def ceilDiv (n d : Nat) : Nat := (n + d - 1) / d

/-- The payment for some fee juice at the rate `num / den`, rounded up. -/
def payment (fj num den : Amount) : Except QuoteError Amount :=
  if den = 0 then .error .zeroDenominator
  else match checkedMul fj.toNat num.toNat "fj_amount * rate_num" with
    | .error e => .error e
    | .ok p => .ok (BitVec.ofNat 128 (ceilDiv p.toNat den.toNat))

/-- A rate at which quotes are given. -/
structure Rate where
  /-- What is paid, -/
  num : Amount
  /-- for how much fee juice. -/
  den : Amount
  /-- Something is paid. -/
  num_ne_zero : num ≠ 0
  /-- Something is sold. -/
  den_ne_zero : den ≠ 0

namespace Rate

/-- The rate `num / den`. -/
def of (num den : Amount) : Except QuoteError Rate :=
  if hn : num = 0 then .error .zeroRate
  else if hd : den = 0 then .error .zeroDenominator
  else .ok ⟨num, den, hn, hd⟩

/-- The market rate raised by a margin in basis points. -/
def fromMarket (num den : Amount) (bips : UInt32) : Except QuoteError Rate := do
  let n ← checkedMul num.toNat (basisPoints + bips.toNat) "rate numerator"
  let d ← checkedMul den.toNat basisPoints "rate denominator"
  of n d

/-- The payment for some fee juice at this rate. -/
def paymentFor (r : Rate) (fj : Amount) : Except QuoteError Amount := payment fj r.num r.den

end Rate
end Paymaster

import Paymaster.Quote.Preimage
import Paymaster.Quote.Rate
/-!
# Issuing quotes

A binder holds what all quotes of one facility share: the accepted asset, the rate, the time of
validity and the signer. It binds a request to them and has the result signed.
-/

namespace Paymaster.Quote

/-- The longest time for which a quote may hold, in seconds. -/
def maxValidity : UInt64 := 3600

/-- A quote with its signature. -/
structure Signed where
  /-- The asset the user pays with. -/
  acceptedAsset : Address
  /-- The fee juice the user gets. -/
  feeJuice : Amount
  /-- What the user pays. -/
  payment : Amount
  /-- The last second at which the quote holds. -/
  validUntil : UInt64
  /-- The user the quote is for. -/
  user : Address
  /-- The signature of the terms. -/
  signature : List UInt8

/-- The signature as `0x` and digits. -/
def Signed.signatureHex (q : Signed) : String := "0x" ++ Text.Hex.encode q.signature

/-- What all quotes of a facility share. -/
structure Binder where
  /-- The facility that pays the fees. -/
  facility : Address
  /-- The asset that users pay with. -/
  acceptedAsset : Address
  /-- The rate of exchange. -/
  rate : Rate
  /-- For how many seconds a quote holds. -/
  validity : UInt64
  signer : Signer

namespace Binder

/-- The binder for some parties; a longer validity is cut to the longest allowed. -/
def of (facility acceptedAsset : Address) (rate : Rate) (validity : UInt64) (signer : Signer) :
    Except QuoteError Binder :=
  if facility.isZero then .error (.zeroAddress "facility")
  else if acceptedAsset.isZero then .error (.zeroAddress "accepted asset")
  else if validity = 0 then .error .zeroValidity
  else .ok ⟨facility, acceptedAsset, rate, min validity maxValidity, signer⟩

/-- The terms of a quote that is asked for at a second of Unix time. -/
def preimage (b : Binder) (user : Address) (feeJuice : Amount) (issuedAt : UInt64) :
    Except QuoteError Preimage := do
  if user.isZero then throw .zeroUser
  if feeJuice = 0 then throw .zeroAmount
  let payment ← b.rate.paymentFor feeJuice
  if issuedAt.toNat + b.validity.toNat < UInt64.size then
    return ⟨b.facility, b.acceptedAsset, feeJuice, payment, issuedAt + b.validity, user⟩
  else throw (.overflow "valid_until")

/-- A signed quote. -/
def issue (b : Binder) (user : Address) (feeJuice : Amount) (issuedAt : UInt64) :
    Except QuoteError Signed := do
  let p ← b.preimage user feeJuice issuedAt
  match b.signer.sign p.hash with
  | .ok signature =>
    return ⟨p.acceptedAsset, p.feeJuice, p.payment, p.validUntil, p.user, signature⟩
  | .error e => throw (.signing e)

end Binder
end Paymaster.Quote

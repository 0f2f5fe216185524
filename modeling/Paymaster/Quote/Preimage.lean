import Paymaster.Address
import Paymaster.Digest.Blake3
/-!
# What is signed

The signature of a quote covers the BLAKE3 hash of seven words in a fixed order: a domain separator,
the facility, the accepted asset, the fee juice, the payment, the end of validity and the user. A
contract on the rollup rebuilds the same bytes.
-/

namespace Paymaster.Quote

/-- The terms of one quote. -/
structure Preimage where
  /-- The facility that pays the fee. -/
  facility : Address
  /-- The asset the user pays with. -/
  acceptedAsset : Address
  /-- The fee juice the user gets. -/
  feeJuice : Amount
  /-- What the user pays in the accepted asset. -/
  payment : Amount
  /-- The last second at which the quote holds, in Unix time. -/
  validUntil : UInt64
  /-- The user the quote is for. -/
  user : Address
  deriving DecidableEq

/-- The text that keeps quotes apart from all else that is signed. -/
def domainTag : String := "fpc-quote-v1"

/-- The domain separator: the tag at the end of a word. -/
def domainSeparator : Word := Word.ofBytes domainTag.toUTF8.data.toList

namespace Preimage

/-- The seven words that are signed, in order. -/
def words (p : Preimage) : List Word :=
  [domainSeparator, p.facility.word, p.acceptedAsset.word, Word.ofAmount p.feeJuice,
    Word.ofAmount p.payment, Word.ofUInt64 p.validUntil, p.user.word]

/-- The bytes of the seven words. -/
def toBytes (p : Preimage) : List UInt8 := p.words.flatMap Word.toBytes

/-- The hash that is signed. -/
def hash (p : Preimage) : Word := Word.ofBytes (Digest.Blake3.hash p.toBytes)

end Preimage
end Paymaster.Quote

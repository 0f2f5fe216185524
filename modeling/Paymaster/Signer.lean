import Paymaster.Ed25519.Signature
import Paymaster.Text.Blank
/-!
# Signers of quotes

A signer turns the hash of a quote into a signature. The local signer holds an Ed25519 key and never
fails; a signer behind a service may.
-/

namespace Paymaster

/-- Why there is no signature. -/
inductive SigningError where
  /-- The text of the key is not a key. -/
  | invalidKey (cause : String)
  /-- The signer does not answer. -/
  | unavailable (cause : String)
  deriving DecidableEq, Repr

/-- The wording of a signing error. -/
def SigningError.message : SigningError → String
  | .invalidKey e => s!"invalid signing key: {e}"
  | .unavailable e => s!"signer unavailable: {e}"

/-- A signer of quote hashes. -/
structure Signer where
  /-- The public key as hexadecimal digits, empty if it has none. -/
  publicKey : String
  /-- The signature of a hash. -/
  sign : Word → Except SigningError (List UInt8)

namespace Signer

/-- The signer that holds a local key. -/
def ofKey (k : Ed25519.SecretKey) : Signer where
  publicKey := Text.Hex.encode k.publicKey.bytes
  sign hash := .ok (k.sign hash.toBytes)

/-- A signer that fails in the same way each time. -/
def failing (e : SigningError) : Signer where
  publicKey := ""
  sign _ := .error e

/-- Reads a key of 32 bytes from hexadecimal digits; blanks anywhere and a leading `0x` are
ignored. -/
def keyOfText (s : String) : Except SigningError Ed25519.SecretKey :=
  let cleaned := Text.withoutBlanks s
  match Text.Hex.decode ((Text.stripPrefix? "0x" cleaned).getD cleaned) with
  | .error e => .error (.invalidKey e.message)
  | .ok raw =>
    if raw.length = 32 then .ok ⟨raw⟩
    else .error (.invalidKey s!"expected 32-byte key, got {raw.length}")

/-- The local signer with the key that a text denotes. -/
def ofText (s : String) : Except SigningError Signer := (keyOfText s).map ofKey

/-- A local signer as it is shown in a log; the secret is left out. -/
def display (s : Signer) : String :=
  "Ed25519QuoteSigner \x7b public_key: " ++ Text.quote s.publicKey ++ " \x7d"

end Signer
end Paymaster

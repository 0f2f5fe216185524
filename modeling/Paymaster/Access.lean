import Paymaster.Digest.Sha256
import Paymaster.Document.Decode
import Paymaster.Text.Blank
import Paymaster.Text.Hex
import Paymaster.Text.Utf8
/-!
# Access to quotes

A gate lets a caller in by an API key, by a header that a trusted proxy sets, by either, by both, or
without any credential, and says who the caller is: the digest of the key, or the remote address.
Credentials are only ever compared by their SHA-256 digests.
-/

namespace Paymaster.Access

/-- Which credentials a caller needs. -/
inductive Mode where
  /-- None. -/
  | disabled
  | apiKey
  | trustedHeader
  /-- One of the two. -/
  | either
  | both
  deriving DecidableEq, Repr

namespace Mode

/-- The API key matters. -/
def usesApiKey : Mode → Bool
  | .apiKey | .either | .both => true
  | _ => false

/-- The trusted header matters. -/
def usesTrustedHeader : Mode → Bool
  | .trustedHeader | .either | .both => true
  | _ => false

/-- The name of a mode in settings. -/
def name : Mode → String
  | .disabled => "disabled"
  | .apiKey => "api_key"
  | .trustedHeader => "trusted_header"
  | .either => "api_key_or_trusted_header"
  | .both => "api_key_and_trusted_header"

/-- All modes. -/
def all : List Mode := [.disabled, .apiKey, .trustedHeader, .either, .both]

/-- Decodes a mode from its name. -/
def decoder : Document.Decoder Mode := .variant (all.map fun m => (m.name, m))

/-- The name of a mode in a log. -/
def display : Mode → String
  | .disabled => "Disabled"
  | .apiKey => "ApiKey"
  | .trustedHeader => "TrustedHeader"
  | .either => "ApiKeyOrTrustedHeader"
  | .both => "ApiKeyAndTrustedHeader"

end Mode

/-- Who a caller is. -/
inductive Identity where
  /-- The holder of the API key with this digest. -/
  | key (digest : String)
  /-- Somebody at this address. -/
  | remote (address : String)
  deriving DecidableEq, Repr

/-- The key under which the calls of an identity are counted. -/
def Identity.rateKey : Identity → String
  | .key digest => "key:" ++ digest
  | .remote address => "addr:" ++ address

/-- Why a caller is not let in. -/
inductive Refusal where
  | missingApiKey
  /-- The API key is wrong. -/
  | invalidApiKey
  | missingTrustedHeader
  /-- The trusted header is wrong. -/
  | invalidTrustedHeader
  /-- One of two credentials would do, and neither is right. -/
  | noValidCredential
  deriving DecidableEq, Repr

/-- The wording of a refusal. -/
def Refusal.message : Refusal → String
  | .missingApiKey => "missing API key"
  | .invalidApiKey => "invalid API key"
  | .missingTrustedHeader => "missing trusted header"
  | .invalidTrustedHeader => "invalid trusted header"
  | .noValidCredential => "neither a valid API key nor a valid trusted header was presented"

/-- What a caller presents. -/
structure Credentials where
  apiKey : Option String
  trustedHeader : Option String
  /-- Where the caller calls from. -/
  remote : String
  deriving DecidableEq, Repr

/-- The SHA-256 digest of a text. -/
def digest (s : String) : List UInt8 := Digest.Sha256.hash (Text.Utf8.encode s)

/-- A gate. -/
structure Gate where
  /-- Which credentials are needed. -/
  mode : Mode
  /-- The digest of the API key, if it matters. -/
  keyDigest : Option (List UInt8)
  /-- The name of the trusted header. -/
  headerName : String
  /-- The digest of the trusted header's value, if it matters. -/
  valueDigest : Option (List UInt8)
  deriving DecidableEq, Repr

/-- Why there is no gate. -/
inductive GateError where
  | needsApiKey (mode : Mode)
  /-- The mode needs the value of the trusted header. -/
  | needsTrustedValue (mode : Mode)
  deriving DecidableEq, Repr

/-- The wording of a gate error. -/
def GateError.message : GateError → String
  | .needsApiKey m => s!"auth.mode = {m.name} needs an API key"
  | .needsTrustedValue m => s!"auth.mode = {m.name} needs a trusted header value"

/-- The digest of a credential that has to be there if it matters. -/
def digestIf {ε : Type} (needed : Bool) (value : Option String) (missing : ε) :
    Except ε (Option (List UInt8)) :=
  if needed then
    match value with
    | some v => if v.isEmpty then .error missing else .ok (some (digest v))
    | none => .error missing
  else .ok none

/-- A presented text has the expected digest. -/
def matchesDigest (expected : Option (List UInt8)) (presented : String) : Bool :=
  expected == some (digest presented)

namespace Gate

/-- The gate with some credentials; an empty credential counts as none. -/
def of (mode : Mode) (apiKey : Option String) (headerName : String) (value : Option String) :
    Except GateError Gate := do
  let keyDigest ← digestIf mode.usesApiKey apiKey (.needsApiKey mode)
  let valueDigest ← digestIf mode.usesTrustedHeader value (.needsTrustedValue mode)
  return ⟨mode, keyDigest, Text.asciiLower (Text.trim headerName), valueDigest⟩

/-- The gate that lets everybody in. -/
def disabled : Gate := ⟨.disabled, none, "", none⟩

/-- A gate as it is shown in a log; digests are left out. -/
def display (g : Gate) : String :=
  "AccessGate \x7b mode: " ++ g.mode.display ++ ", trusted_header_name: " ++
    Text.quote g.headerName ++ ", .. \x7d"

/-- Judges the API key. -/
def checkKey (g : Gate) (c : Credentials) : Except Refusal Identity :=
  match c.apiKey with
  | none => .error .missingApiKey
  | some key =>
    if matchesDigest g.keyDigest key then .ok (.key (Text.Hex.encode (digest key)))
    else .error .invalidApiKey

/-- Judges the trusted header. -/
def checkTrusted (g : Gate) (c : Credentials) : Except Refusal Unit :=
  match c.trustedHeader with
  | none => .error .missingTrustedHeader
  | some value => if matchesDigest g.valueDigest value then .ok () else .error .invalidTrustedHeader

/-- Lets a caller in or refuses. -/
def authenticate (g : Gate) (c : Credentials) : Except Refusal Identity :=
  match g.mode with
  | .disabled => .ok (.remote c.remote)
  | .apiKey => g.checkKey c
  | .trustedHeader => (g.checkTrusted c).map fun _ => .remote c.remote
  | .either =>
    match g.checkKey c with
    | .ok i => .ok i
    | .error _ =>
      match g.checkTrusted c with
      | .ok () => .ok (.remote c.remote)
      | .error _ => .error .noValidCredential
  | .both =>
    match g.checkKey c with
    | .error e => .error e
    | .ok i => (g.checkTrusted c).map fun _ => i

end Gate
end Paymaster.Access

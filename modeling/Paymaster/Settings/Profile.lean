import Paymaster.Secret.Resolver
import Paymaster.Text.Unsigned
import Paymaster.Word
/-!
# Settings both services share

The profile says whether a service runs for real; for real, no secret may stand in the settings. The
log settings say how much is logged and in which form. Mounted directories serve secrets by name.
-/

namespace Paymaster.Settings

open Document (Decoder Fields)

/-- Whether a service runs for real. -/
inductive Profile where
  /-- It does not. -/
  | development
  /-- It does. -/
  | production
  deriving DecidableEq, Repr

namespace Profile

/-- The name of a profile in settings. -/
def name : Profile → String
  | .development => "development"
  | .production => "production"

/-- Decodes a profile from its name. -/
def decoder : Decoder Profile :=
  .variant ([Profile.development, .production].map fun p => (p.name, p))

/-- Decodes the section that holds the profile. -/
def sectionDecoder : Decoder Profile :=
  .record "struct RuntimeConfig" (.defaulted "profile" decoder .development)

end Profile

/-- How a service logs. -/
structure Logging where
  /-- How much is logged. -/
  level : String := "info"
  format : String := "json"
  deriving DecidableEq, Repr

namespace Logging

/-- Decodes the section on logging. -/
def decoder : Decoder Logging :=
  .record "struct LoggingConfig"
    (Logging.mk <$> .defaulted "level" .text "info" <*> .defaulted "format" .text "json")

/-- The log is JSON. -/
def isJson (l : Logging) : Bool := Text.asciiLower l.format == "json"

/-- The form is a known one. -/
def validate (l : Logging) : Except String Unit :=
  let f := Text.asciiLower l.format
  if f = "json" ∨ f = "text" then .ok ()
  else .error s!"logging.format must be \"json\" or \"text\", got {Text.quote l.format}"

end Logging

/-- A directory that serves secrets. -/
structure Mount where
  /-- The name of the provider. -/
  name : String
  dir : String
  deriving DecidableEq, Repr

namespace Mount

/-- Decodes a mounted directory. -/
def decoder : Decoder Mount :=
  .record "struct MountedProviderConfig" (Mount.mk <$> .required "name" .text <*> .required "dir" .text)

/-- Decodes the section on secrets. -/
def sectionDecoder : Decoder (List Mount) :=
  .record "struct SecretsConfig" (.defaulted "mounted" (.list decoder) [])

end Mount

/-- Registers mounted directories one after the other. -/
def registerMounts : Secret.Resolver → List Mount → Except String Secret.Resolver
  | r, [] => .ok r
  | r, m :: rest =>
    if Text.isBlankText m.name then .error "secrets.mounted[].name is empty"
    else
      match r.register (.mounted (Text.trim m.name) m.dir) with
      | .error e => .error s!"invalid [secrets] config: {e.message}"
      | .ok r => registerMounts r rest

/-- The resolver for a profile and its mounted directories. -/
def resolverFor (p : Profile) (mounts : List Mount) : Except String Secret.Resolver :=
  registerMounts (.initial (p != .production)) mounts

/-- Decodes an amount from a whole number or from a decimal string. -/
def amountDecoder : Decoder Amount
  | .int n =>
    if 0 ≤ n ∧ n < UInt64.size then .ok (BitVec.ofNat 128 n.toNat)
    else .error (.of (.custom "data did not match any variant of untagged enum Raw"))
  | .text s | .datetime s =>
    match Text.readUnsigned Amount.bound (Text.trim s) with
    | .ok n => .ok (BitVec.ofNat 128 n)
    | .error e => .error (.of (.custom s!"invalid amount {Text.quote s}: {e.message}"))
  | .broken why => .error (.of (.fault why))
  | .unreadable why => .error (.of (.fault why))
  | _ => .error (.of (.custom "data did not match any variant of untagged enum Raw"))

end Paymaster.Settings

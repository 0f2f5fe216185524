import Paymaster.Quote.Desk
import Paymaster.Settings.Environment
import Paymaster.Settings.Profile
/-!
# Settings of the quote desk

What an operator writes down to run a quote desk, how it is decoded, and which settings are refused.
Settings that pass are good enough to open a desk, given that the secrets they refer to are there.
-/

namespace Paymaster.Quote

open Document (Decoder Fields)
open Settings (Profile Logging Mount)

/-- Where the desk listens. -/
structure ServerSettings where
  /-- The address to listen at. -/
  bindAddress : String := "0.0.0.0:3000"
  /-- Metrics are published. -/
  metricsEnabled : Bool := true
  /-- How many requests are served at once. -/
  workers : UInt64 := 4
  deriving DecidableEq, Repr

/-- The terms of all quotes. -/
structure TermsSettings where
  /-- The facility that pays the fees. -/
  facility : Address
  /-- The asset that users pay with. -/
  acceptedAsset : Address
  assetName : String
  /-- The numerator of the market rate. -/
  rateNum : Amount
  /-- The denominator of the market rate. -/
  rateDen : Amount
  /-- The margin in basis points. -/
  feeBips : UInt32
  /-- For how many seconds a quote holds. -/
  validity : UInt64
  deriving DecidableEq, Repr

/-- Who is let in. -/
structure AuthSettings where
  /-- Which credentials a caller needs. -/
  mode : Access.Mode := .disabled
  /-- Where the API key comes from. -/
  apiKey : Option Secret.Source := none
  headerName : String := "x-fpc-trusted"
  /-- Where the value of the trusted header comes from. -/
  headerValue : Option Secret.Source := none
  deriving DecidableEq, Repr

/-- The limits unless the settings say otherwise. -/
def defaultLimits : RateLimit.Policy := ⟨true, 60, 60, 10000⟩

/-- The settings of a quote desk. -/
structure Settings where
  /-- Whether the desk runs for real. -/
  profile : Profile
  /-- Where it listens. -/
  server : ServerSettings
  /-- The terms of all quotes. -/
  terms : TermsSettings
  /-- Where the signing key comes from. -/
  signer : Secret.Source
  /-- Who is let in. -/
  auth : AuthSettings
  /-- How often. -/
  limits : RateLimit.Policy
  /-- Directories that serve secrets. -/
  mounts : List Mount
  /-- How the desk logs. -/
  logging : Logging
  deriving DecidableEq, Repr

namespace Settings

/-- Decodes where the desk listens. -/
def serverDecoder : Decoder ServerSettings :=
  .record "struct ServerConfig" (ServerSettings.mk
    <$> .defaulted "bind_address" .text "0.0.0.0:3000"
    <*> .defaulted "metrics_enabled" .bool true
    <*> .defaulted "workers" .count 4)

/-- Decodes the terms of all quotes. -/
def termsDecoder : Decoder TermsSettings :=
  .record "struct QuoteConfig" (TermsSettings.mk
    <$> .required "facility_address" Address.decoder
    <*> .required "accepted_asset_address" Address.decoder
    <*> .defaulted "accepted_asset_name" .text "accepted-asset"
    <*> .required "market_rate_num" Settings.amountDecoder
    <*> .required "market_rate_den" Settings.amountDecoder
    <*> .defaulted "fee_bips" .uint32 0
    <*> .defaulted "validity_seconds" .uint64 300)

/-- Decodes where the signing key comes from. -/
def signerDecoder : Decoder Secret.Source :=
  .record "struct SignerConfig" (.required "key" Secret.Source.decoder)

/-- Decodes who is let in. -/
def authDecoder : Decoder AuthSettings :=
  .record "struct AuthConfig" (AuthSettings.mk
    <$> .defaulted "mode" Access.Mode.decoder .disabled
    <*> .defaulted "api_key" (.nullable Secret.Source.decoder) none
    <*> .defaulted "trusted_header_name" .text "x-fpc-trusted"
    <*> .defaulted "trusted_header_value" (.nullable Secret.Source.decoder) none)

/-- Decodes the limits. -/
def limitsDecoder : Decoder RateLimit.Policy :=
  .record "struct RateLimitConfig" (RateLimit.Policy.mk
    <$> .defaulted "enabled" .bool true
    <*> .defaulted "max_requests" .uint32 60
    <*> .defaulted "window_seconds" .uint64 60
    <*> .defaulted "max_tracked_keys" .count 10000)

/-- Decodes the settings of a quote desk. -/
def decoder : Decoder Settings :=
  .record "struct QuoteNodeConfig" (Settings.mk
    <$> .defaulted "runtime" Profile.sectionDecoder .development
    <*> .defaulted "server" serverDecoder {}
    <*> .required "quote" termsDecoder
    <*> .required "signer" signerDecoder
    <*> .defaulted "auth" authDecoder {}
    <*> .defaulted "rate_limit" limitsDecoder defaultLimits
    <*> .defaulted "secrets" Mount.sectionDecoder []
    <*> .defaulted "logging" Logging.decoder {})

/-- Refuses with a message unless a condition holds. -/
def require (condition : Bool) (message : String) : Except String Unit :=
  if condition then .ok () else .error message

/-- The largest margin in basis points. -/
def maxFeeBips : UInt32 := 10000

/-- Judges where the desk listens. -/
def validateServer (s : ServerSettings) : Except String Unit := do
  require (!Text.isBlankText s.bindAddress) "server.bind_address is empty"
  require (s.workers != 0) "server.workers must be >= 1"

/-- Judges the terms of all quotes. -/
def validateTerms (t : TermsSettings) : Except String Unit := do
  require (!t.facility.isZero) "quote.facility_address must not be zero"
  require (!t.acceptedAsset.isZero) "quote.accepted_asset_address must not be zero"
  require (!Text.isBlankText t.assetName) "quote.accepted_asset_name is empty"
  require (t.rateNum != 0) "quote.market_rate_num must be > 0"
  require (t.rateDen != 0) "quote.market_rate_den must be > 0"
  require (t.feeBips ≤ maxFeeBips) "quote.fee_bips must be <= 10000"
  require (t.validity != 0) "quote.validity_seconds must be > 0"

/-- Judges who is let in. -/
def validateAuth (a : AuthSettings) : Except String Unit := do
  require (!a.mode.usesApiKey || a.apiKey.isSome)
    s!"auth.api_key is required for auth.mode = {a.mode.name}"
  require (!a.mode.usesTrustedHeader || a.headerValue.isSome)
    s!"auth.trusted_header_value is required for auth.mode = {a.mode.name}"
  require (!a.mode.usesTrustedHeader || !Text.isBlankText a.headerName)
    "auth.trusted_header_name is empty"

/-- Judges the limits; limits that are off may be anything. -/
def validateLimits (l : RateLimit.Policy) : Except String Unit := do
  require (!l.enabled || l.maxRequests != 0) "rate_limit.max_requests must be >= 1"
  require (!l.enabled || l.windowSeconds != 0) "rate_limit.window_seconds must be >= 1"
  require (!l.enabled || l.maxKeys != 0) "rate_limit.max_tracked_keys must be >= 1"

/-- The secrets with the keys of their sources. -/
def secretSources (s : Settings) : List (String × Secret.Source) :=
  ("signer.key", s.signer) ::
    ((s.auth.apiKey.map fun x => ("auth.api_key", x)).toList ++
      (s.auth.headerValue.map fun x => ("auth.trusted_header_value", x)).toList)

/-- The keys of the secrets that stand in the settings. -/
def inlineSecrets (s : Settings) : List String :=
  (s.secretSources.filter fun x => x.2.isInline).map (·.1)

/-- What holds for a desk that runs for real. -/
def validateProduction (s : Settings) : Except String Unit := do
  require (s.auth.mode != .disabled) "auth.mode = disabled is not allowed in the production profile"
  require s.inlineSecrets.isEmpty
    ("inline secrets are not allowed in the production profile: " ++
      ", ".intercalate s.inlineSecrets)

/-- Judges the settings of a quote desk; the first flaw counts. -/
def validate (s : Settings) : Except String Unit := do
  s.logging.validate
  validateServer s.server
  validateTerms s.terms
  validateAuth s.auth
  validateLimits s.limits
  if s.profile = .production then s.validateProduction

/-- For how many seconds quotes hold: no longer than the longest validity. -/
def effectiveValidity (s : Settings) : UInt64 := min s.terms.validity maxValidity

/-- The optional secret a source leads to; `key` names it in messages. -/
def resolveOptional (r : Secret.Resolver) (env : Environment) (disk : Disk) (key : String) :
    Option Secret.Source → Except String (Option String)
  | none => .ok none
  | some source =>
    match r.resolve env disk source with
    | .ok x => .ok (some x.value)
    | .error e => .error s!"failed to resolve {key}: {e.message}"

/-- Opens a desk with some settings. -/
def openDesk (s : Settings) (env : Environment) (disk : Disk) : Except String Desk := do
  let resolver ← Settings.resolverFor s.profile s.mounts
  let key ← (resolver.resolve env disk s.signer).mapError fun e =>
    s!"failed to resolve signer.key: {e.message}"
  let signer ← (Signer.ofText key.value).mapError fun e => s!"invalid signer.key: {e.message}"
  let apiKey ← resolveOptional resolver env disk "auth.api_key" s.auth.apiKey
  let headerValue ← resolveOptional resolver env disk "auth.trusted_header_value" s.auth.headerValue
  let gate ← (Access.Gate.of s.auth.mode apiKey s.auth.headerName headerValue).mapError
    Access.GateError.message
  let rate ← (Rate.fromMarket s.terms.rateNum s.terms.rateDen s.terms.feeBips).mapError fun e =>
    s!"invalid [quote] rate: {e.message}"
  let binder ← (Binder.of s.terms.facility s.terms.acceptedAsset rate s.terms.validity signer).mapError
    fun e => s!"invalid [quote] config: {e.message}"
  return ⟨binder, s.terms.assetName, gate, s.limits, s.server.metricsEnabled⟩

end Settings
end Paymaster.Quote

import Paymaster.Document.Decode
/-!
# Sources of secrets

Settings never need to hold a secret. They say where it comes from: an environment variable, a file,
an external provider, or, for trials, the settings themselves. Only the provenance of a secret is
logged.
-/

namespace Paymaster.Secret

/-- Where a secret comes from. -/
inductive Source where
  /-- An environment variable. -/
  | env (name : String)
  /-- The settings themselves. -/
  | inline (value : String)
  | file (path : String)
  /-- A provider, by its name, with a reference that it understands. -/
  | provider (name reference : String)
  deriving DecidableEq, Repr

namespace Source

/-- The secret stands in the settings. -/
def isInline : Source → Bool
  | .inline _ => true
  | _ => false

open Document (Decoder Fields)

/-- Decodes a source; the text under `source` tells which. -/
def decoder : Decoder Source :=
  .tagged "internally tagged enum SecretSource" "source"
    [ ("env", "struct variant SecretSource::Env", .env <$> .required "var" .text),
      ("inline", "struct variant SecretSource::Inline", .inline <$> .required "value" .text),
      ("file", "struct variant SecretSource::File",
        .file <$> .required "path" (.textAs "path string")),
      ("provider", "struct variant SecretSource::Provider",
        .provider <$> .required "provider" .text <*> .required "reference" .text) ]

end Source

/-- Where a secret came from. -/
inductive Provenance where
  /-- An environment variable. -/
  | env (name : String)
  /-- The settings themselves. -/
  | inline
  | file (path : String)
  | provider (name reference : String)
  deriving DecidableEq, Repr

namespace Provenance

/-- A provenance in one line. -/
def text : Provenance → String
  | .env name => "env:" ++ name
  | .inline => "inline"
  | .file path => "file:" ++ path
  | .provider name reference => "provider:" ++ name ++ "/" ++ reference

/-- A provenance as it is shown inside a larger value. -/
def display : Provenance → String
  | .env name => "Env(" ++ Text.quote name ++ ")"
  | .inline => "Inline"
  | .file path => "File(" ++ Text.quote path ++ ")"
  | .provider name reference =>
    "Provider \x7b provider: " ++ Text.quote name ++ ", reference: " ++ Text.quote reference ++ " \x7d"

end Provenance
end Paymaster.Secret

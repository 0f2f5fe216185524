import Paymaster.Disk
import Paymaster.Secret.Source
import Paymaster.Text.Blank
import Paymaster.Text.Utf8
/-!
# Resolving secrets

A resolver turns the source of a secret into its value, with the blanks at the ends removed; a value
of nothing but blanks is refused. Providers are found by their names. A mounted provider serves the
files directly inside one directory: a reference is a plain file name, so it cannot lead elsewhere.
-/

namespace Paymaster

/-- The environment variables of the process whose values are texts. -/
abbrev Environment := List (String × String)

/-- The environment of some variables with any bytes as values. Of several variables with one name
the first counts, also if its value is no text. -/
def Environment.ofVariables : List (String × List UInt8) → Environment
  | [] => []
  | (name, bytes) :: rest =>
    match Text.Utf8.decode? bytes with
    | some value => (name, value) :: ofVariables rest
    | none => (ofVariables rest).filter fun x => x.1 != name

/-- The value of an environment variable. -/
def Environment.get? (e : Environment) (name : String) : Option String := e.lookup name

namespace Secret

/-- Why there is no secret. -/
inductive SecretError where
  /-- The environment variable is not set. -/
  | missingEnv (name : String)
  /-- The file cannot be read. -/
  | file (path reason : String)
  /-- The value is blank. -/
  | empty (origin : String)
  | unknownProvider (name : String)
  /-- Another provider has the name. -/
  | duplicateProvider (name : String)
  /-- The provider refuses. -/
  | provider (name reference reason : String)
  /-- Secrets must not stand in the settings. -/
  | inlineForbidden
  deriving DecidableEq, Repr

/-- The wording of a secret error. -/
def SecretError.message : SecretError → String
  | .missingEnv name => s!"missing environment variable {name}"
  | .file path reason => s!"failed to read secret file {path}: {reason}"
  | .empty origin => s!"secret from {origin} is empty"
  | .unknownProvider name => s!"unknown secret provider: {name}"
  | .duplicateProvider name => s!"secret provider {name} is already registered"
  | .provider name reference reason => s!"provider {name} failed for {reference}: {reason}"
  | .inlineForbidden => "inline secrets are not allowed in this profile"

/-- Reads a file that holds a secret. -/
def readFile (d : Disk) (path : String) : Except SecretError String :=
  match d.readText path with
  | .ok s => .ok s
  | .error e => .error (.file path e.message)

/-- An external source of secrets. -/
structure Provider where
  /-- The name it is found by. -/
  name : String
  /-- The text it holds under a reference. -/
  fetch : Disk → String → Except SecretError String

/-- The reference is a plain file name. -/
def isPlainName (reference : String) : Bool :=
  !reference.isEmpty && !reference.toList.contains '/' && !reference.toList.contains '\\' &&
    reference != ".."

/-- The provider that serves the files of a directory. -/
def Provider.mounted (name dir : String) : Provider where
  name := name
  fetch d reference :=
    if isPlainName reference then readFile d (Path.join dir reference)
    else .error (.provider name reference "reference must be a plain file name")

/-- A secret and where it came from. -/
structure Resolved where
  /-- The secret. -/
  value : String
  /-- Where it came from. -/
  provenance : Provenance
  deriving DecidableEq

/-- A secret as it is shown in a log; its value is left out. -/
def Resolved.display (r : Resolved) : String :=
  "ResolvedSecret \x7b value: \"<redacted>\", provenance: " ++ r.provenance.display ++ " \x7d"

/-- A resolver. -/
structure Resolver where
  /-- The providers in the order of their names. -/
  providers : List (String × Provider)
  /-- Secrets may stand in the settings. -/
  allowInline : Bool

namespace Resolver

/-- The resolver without providers. -/
def initial (allowInline : Bool) : Resolver := ⟨[], allowInline⟩

/-- Providers with one more, in the order of their names. -/
def insertProvider (p : Provider) : List (String × Provider) → List (String × Provider)
  | [] => [(p.name, p)]
  | x :: rest => if p.name < x.1 then (p.name, p) :: x :: rest else x :: insertProvider p rest

/-- The resolver with one more provider. -/
def register (r : Resolver) (p : Provider) : Except SecretError Resolver :=
  if (r.providers.lookup p.name).isSome then .error (.duplicateProvider p.name)
  else .ok { r with providers := insertProvider p r.providers }

/-- The names of the providers. -/
def names (r : Resolver) : List String := r.providers.map (·.1)

/-- The text a source leads to, and where it came from. -/
def lookUp (r : Resolver) (env : Environment) (d : Disk) :
    Source → Except SecretError (String × Provenance)
  | .env name =>
    let name := Text.trim name
    match env.get? name with
    | some v => .ok (v, .env name)
    | none => .error (.missingEnv name)
  | .inline value => if r.allowInline then .ok (value, .inline) else .error .inlineForbidden
  | .file path => (readFile d path).map fun v => (v, .file path)
  | .provider name reference =>
    match r.providers.lookup name with
    | none => .error (.unknownProvider name)
    | some p => (p.fetch d reference).map fun v => (v, .provider name reference)

/-- The secret a source leads to. -/
def resolve (r : Resolver) (env : Environment) (d : Disk) (s : Source) :
    Except SecretError Resolved := do
  let (raw, provenance) ← r.lookUp env d s
  let value := Text.trim raw
  if value.isEmpty then throw (.empty provenance.text)
  return ⟨value, provenance⟩

end Resolver
end Secret
end Paymaster

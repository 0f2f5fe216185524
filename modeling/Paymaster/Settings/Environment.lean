import Paymaster.Secret.Resolver
import Paymaster.Toml.Reader
/-!
# Environment references

A text in the settings of the form `env:NAME` stands for the value of an environment variable,
wherever it is. The value is taken as it is, even if it looks like a reference. The first reference
that leads nowhere, in the order of the document with sorted keys, is the error.
-/

namespace Paymaster.Settings

open Toml (Value)

/-- Why a reference leads nowhere. -/
inductive ReferenceError where
  /-- The reference names no variable. -/
  | noName
  /-- The variable is not set. -/
  | missing (name : String)
  deriving DecidableEq, Repr

/-- The wording of a reference error. -/
def ReferenceError.message : ReferenceError → String
  | .noName => "invalid env: reference (empty var name)"
  | .missing name => s!"missing required environment variable: {name}"

/-- The beginning of a reference. -/
def referenceMark : String := "env:"

/-- The variable that a text refers to, if it is a reference. -/
def reference? (s : String) : Option String := (Text.stripPrefix? referenceMark s).map Text.trim

/-- The text that a text stands for. -/
def resolveText (env : Environment) (s : String) : Except ReferenceError String :=
  match reference? s with
  | none => .ok s
  | some name =>
    if name.isEmpty then .error .noName
    else match env.get? name with
      | some v => .ok v
      | none => .error (.missing name)

mutual

/-- The value with all references resolved. -/
def resolve (env : Environment) : Value → Except ReferenceError Value
  | .text s => (resolveText env s).map .text
  | .list items => (resolveItems env items).map .list
  | .table fields => (resolveFields env fields).map .table
  | v => .ok v

/-- Items with all references resolved. -/
def resolveItems (env : Environment) : List Value → Except ReferenceError (List Value)
  | [] => .ok []
  | v :: rest =>
    match resolve env v with
    | .error e => .error e
    | .ok v => (resolveItems env rest).map (v :: ·)

/-- Fields with all references resolved. -/
def resolveFields (env : Environment) :
    List (String × Value) → Except ReferenceError (List (String × Value))
  | [] => .ok []
  | (k, v) :: rest =>
    match resolve env v with
    | .error e => .error e
    | .ok v => (resolveFields env rest).map ((k, v) :: ·)

end

/-- Why settings cannot be used. -/
inductive LoadError where
  /-- The file cannot be read. -/
  | read (path : String) (why : OsError)
  /-- The file is no TOML document. -/
  | parse (path : String)
  /-- A reference leads nowhere. -/
  | reference (why : ReferenceError)
  /-- The settings have the wrong form. -/
  | decode (path : String) (why : Document.DecodeError)
  deriving DecidableEq, Repr

/-- The wording of a loading error; what exactly breaks the rules of TOML is left open. -/
def LoadError.message : LoadError → String
  | .read path why => s!"failed to read config {path}: {why.message}"
  | .parse path => s!"failed to parse config {path}"
  | .reference why => why.message
  | .decode path why => s!"failed to decode config {path}: {why.message .toml}\n"

/-- Loads settings from a file. -/
def load {α : Type} (d : Document.Decoder α) (env : Environment) (disk : Disk) (path : String) :
    Except LoadError α := do
  let text ← (disk.readText path).mapError (.read path)
  let some v := Toml.parse text | throw (.parse path)
  let v ← (resolve env v).mapError .reference
  (d v.toTree).mapError (.decode path)

end Paymaster.Settings

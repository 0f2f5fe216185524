import Paymaster.Document.Tree
import Paymaster.Text.Quoted
/-!
# Decoding documents

A decoder reads a value of the domain off a document tree or says what is wrong. A record is decoded
from a table, whose fields are judged in the order of the document and only then missed in the order
of the record; it may also be given as a list of its fields. Unknown fields are skipped.
-/

namespace Paymaster.Document

/-- What stands where something else is expected. -/
inductive Found where
  /-- The absent value. -/
  | null
  /-- A truth value. -/
  | bool (b : Bool)
  /-- A whole number. -/
  | int (n : Int)
  /-- A number with a fraction or a power. -/
  | float (x : Decimal.Binary64)
  | text (s : String)
  /-- A date or a time. -/
  | datetime (s : String)
  | list
  | table
  deriving DecidableEq, Repr

/-- What is wrong with one value. -/
inductive Flaw where
  /-- The value has the wrong type. -/
  | invalidType (found : Found) (expected : String)
  /-- The value is out of range. -/
  | invalidValue (found : Found) (expected : String)
  /-- The list has the wrong length. -/
  | invalidLength (length : Nat) (expected : String)
  /-- The list goes on after the last field of a record. -/
  | tooManyItems (length : Nat)
  /-- A field is absent. -/
  | missingField (key : String)
  /-- A field is there twice. -/
  | duplicateField (key : String)
  /-- The choice is none of the known ones. -/
  | unknownVariant (given : String) (known : List String)
  /-- The choice is neither a name nor a table with a name. -/
  | noChoice (found : Found)
  /-- The table for a choice has no key, or several. -/
  | notOneKey (several : Bool)
  /-- Something stands under the name of a choice. -/
  | filledChoice (found : Found)
  /-- The value breaks a rule of its own. -/
  | custom (text : String)
  /-- The text of the document is faulty. -/
  | fault (why : Fault)
  deriving DecidableEq, Repr

/-- A flaw with the keys that lead to it. -/
structure DecodeError where
  /-- The keys from the root of the document. -/
  path : List String
  /-- What is wrong. -/
  flaw : Flaw
  deriving DecidableEq, Repr

/-- The kinds of documents; they differ in the wording of errors. -/
inductive Dialect where
  /-- JSON, decoded while it is read. -/
  | jsonText
  /-- JSON that was read before. -/
  | jsonValue
  | toml
  deriving DecidableEq, Repr

/-- What is found, as a message names it. -/
def Found.describe (d : Dialect) : Found → String
  | .null => "null"
  | .bool b => s!"boolean `{b}`"
  | .int n => s!"integer `{n}`"
  | .float x => s!"floating point `{if d = .toml then x.pointed else x.json}`"
  | .text s | .datetime s => s!"string {Text.quote s}"
  | .list => "sequence"
  | .table => "map"

/-- What is found, in one word. -/
def Found.kind : Found → String
  | .null => "null"
  | .bool _ => "boolean"
  | .int _ => "integer"
  | .float _ => "float"
  | .text _ => "string"
  | .datetime _ => "datetime"
  | .list => "array"
  | .table => "table"

/-- What is wrong with a table that stands for a choice. -/
def keyCount (several : Bool) : String :=
  if several then "wanted exactly 1 element, more than 1 element"
  else "wanted exactly 1 element, found 0 elements"

/-- What is wrong with what stands under the name of a choice. -/
def unfilled : Found → String
  | .list => "expected empty array"
  | .table => "expected empty table"
  | found => s!"expected table, found {found.kind}"

/-- Some names in backquotes, as alternatives. -/
def oneOf (names : List String) : String :=
  match names.map fun n => s!"`{n}`" with
  | [] => ""
  | [a] => s!"expected {a}"
  | [a, b] => s!"expected {a} or {b}"
  | all => "expected one of " ++ ", ".intercalate all

/-- The wording of a flaw. -/
def Flaw.message (d : Dialect) : Flaw → String
  | .invalidType found expected => s!"invalid type: {found.describe d}, expected {expected}"
  | .invalidValue found expected => s!"invalid value: {found.describe d}, expected {expected}"
  | .invalidLength n expected => s!"invalid length {n}, expected {expected}"
  | .tooManyItems n =>
    if d = .jsonText then Fault.trailingText.message
    else s!"invalid length {n}, expected fewer elements in array"
  | .missingField key => s!"missing field `{key}`"
  | .duplicateField key => s!"duplicate field `{key}`"
  | .unknownVariant given known => s!"unknown variant `{given}`, {oneOf known}"
  | .noChoice found =>
    if d = .toml then "invalid type: unit variant, expected string only"
    else s!"invalid type: {found.describe d}, expected string or map"
  | .notOneKey several =>
    if d = .toml then keyCount several else "invalid value: map, expected map with a single key"
  | .filledChoice found =>
    if d = .toml then unfilled found else s!"invalid type: {found.describe d}, expected unit"
  | .custom text => text
  | .fault why => why.message

/-- The flaw lies in the text of the document and not in its content. -/
def Flaw.isTextual : Flaw → Bool
  | .fault _ => true
  | .tooManyItems _ => true
  | _ => false

/-- The wording of a decoding error; in TOML a second line names the place. -/
def DecodeError.message (d : Dialect) (e : DecodeError) : String :=
  if d = .toml ∧ e.path ≠ [] then
    e.flaw.message d ++ "\nin `" ++ ".".intercalate e.path ++ "`"
  else e.flaw.message d

/-- A decoding error at the root. -/
def DecodeError.of (flaw : Flaw) : DecodeError := ⟨[], flaw⟩

/-- The error as seen from the table in which the value has a key. -/
def DecodeError.under (key : String) (e : DecodeError) : DecodeError := ⟨key :: e.path, e.flaw⟩

/-- Reads a value off a tree. -/
abbrev Decoder (α : Type) := Tree → Except DecodeError α

namespace Tree

/-- What stands here, unless the text is faulty. -/
def found : Tree → Except DecodeError Found
  | .null => .ok .null
  | .bool b => .ok (.bool b)
  | .int n => .ok (.int n)
  | .float x => .ok (.float x)
  | .text s => .ok (.text s)
  | .datetime s => .ok (.datetime s)
  | .list _ => .ok .list
  | .table _ => .ok .table
  | .broken why | .unreadable why => .error (.of (.fault why))

/-- The error for a tree with a flaw; a fault of the text comes first. -/
def flawed (flaw : Found → Flaw) (t : Tree) : DecodeError :=
  match t.found with
  | .ok found => .of (flaw found)
  | .error e => e

/-- The error for a tree that is not what is expected. -/
def mismatch (expected : String) : Tree → DecodeError := flawed (.invalidType · expected)

/-- Skips over a tree. -/
def skip (t : Tree) : Except DecodeError Unit :=
  match t.fault? with
  | some why => .error (.of (.fault why))
  | none => .ok ()

end Tree

namespace Decoder

/-- A string, named as `expected` in messages. -/
def textAs (expected : String) : Decoder String
  | .text s | .datetime s => .ok s
  | t => .error (t.mismatch expected)

/-- A string. -/
def text : Decoder String := textAs "a string"

/-- A truth value. -/
def bool : Decoder Bool
  | .bool b => .ok b
  | t => .error (t.mismatch "a boolean")

/-- A whole number from zero up to a bound, named as `expected` in messages. -/
def unsigned (bound : Nat) (expected : String) : Decoder Nat
  | .int n =>
    if 0 ≤ n ∧ n < bound then .ok n.toNat else .error (.of (.invalidValue (.int n) expected))
  | t => .error (t.mismatch expected)

/-- A number of 64 bits. -/
def uint64 : Decoder UInt64 := fun t => (unsigned UInt64.size "u64" t).map UInt64.ofNat

/-- A number of 32 bits. -/
def uint32 : Decoder UInt32 := fun t => (unsigned UInt32.size "u32" t).map UInt32.ofNat

/-- A count. -/
def count : Decoder UInt64 := fun t => (unsigned UInt64.size "usize" t).map UInt64.ofNat

/-- The value, or nothing where the document holds the absent value. -/
def nullable {α : Type} (d : Decoder α) : Decoder (Option α)
  | .null => .ok none
  | t => (d t).map some

/-- The items of a list, each decoded alike. -/
def items {α : Type} (d : Decoder α) : List Tree → Except DecodeError (List α)
  | [] => .ok []
  | .broken why :: _ => .error (.of (.fault why))
  | t :: rest => do
    let a ← d t
    let more ← items d rest
    return a :: more

/-- A list. -/
def list {α : Type} (d : Decoder α) : Decoder (List α)
  | .list ts => items d ts
  | t => .error (t.mismatch "a sequence")

/-- The choice that a text names. -/
def choose {α : Type} (known : List (String × α)) (s : String) : Except DecodeError α :=
  match known.lookup s with
  | some a => .ok a
  | none => .error (.of (.unknownVariant s (known.map (·.1))))

/-- One of some named choices; a table with the name as its only key and nothing inside will do. -/
def variant {α : Type} (known : List (String × α)) : Decoder α
  | .text s => choose known s
  | .table [(key, inside)] => do
    let a ← choose known key
    match inside with
    | .null | .list [] | .table [] => return a
    | t => throw (t.flawed .filledChoice)
  | .table [] => .error (.of (.notOneKey false))
  | .table _ => .error (.of (.notOneKey true))
  | t => .error (t.flawed .noChoice)

end Decoder

/-- The fields of a record: how each is judged, how the record is put together from a table, and how
it is read off a list. -/
structure Fields (α : Type) where
  /-- The known keys in the order of the record, each with the judgement of its value. -/
  checks : List (String × (Tree → Except DecodeError Unit))
  /-- The record from the values by key. -/
  build : (String → Option Tree) → Except DecodeError α
  /-- The record from the items of a list that starts at an index; also what is left of it. -/
  take : Nat → List Tree → Except DecodeError (α × Nat × List Tree)

namespace Fields

instance : Applicative Fields where
  pure a := ⟨[], fun _ => .ok a, fun i ts => .ok (a, i, ts)⟩
  seq f x :=
    let y := x ()
    { checks := f.checks ++ y.checks
      build := fun get => do
        let g ← f.build get
        let a ← y.build get
        return g a
      take := fun i ts => do
        let (g, i, ts) ← f.take i ts
        let (a, i, ts) ← y.take i ts
        return (g a, i, ts) }

/-- Reads the next item of a list, or what stands for it at the end of the list. -/
def next {α : Type} (d : Decoder α) (atEnd : Nat → Except DecodeError α) (i : Nat) :
    List Tree → Except DecodeError (α × Nat × List Tree)
  | [] => (atEnd i).map fun a => (a, i, [])
  | .broken why :: _ => .error (.of (.fault why))
  | t :: rest => (d t).map fun a => (a, i + 1, rest)

/-- A field with a rule for its absence from a table and one for its absence from a list. -/
def field {α : Type} (key : String) (d : Decoder α) (absent : Except DecodeError α)
    (atEnd : Nat → Except DecodeError α) : Fields α where
  checks := [(key, fun t => (d t).map fun _ => ())]
  build get :=
    match get key with
    | some t => d t
    | none => absent
  take := next d atEnd

/-- The error for a list that ends too early; the record's decoder fills in what is expected. -/
def tooShort {α : Type} (i : Nat) : Except DecodeError α := .error (.of (.invalidLength i ""))

/-- A field that has to be there. -/
def required {α : Type} (key : String) (d : Decoder α) : Fields α :=
  field key d (.error (.of (.missingField key))) tooShort

/-- A field with a value that stands for its absence. -/
def defaulted {α : Type} (key : String) (d : Decoder α) (a : α) : Fields α :=
  field key d (.ok a) fun _ => .ok a

/-- A field that may be absent from a table but not from a list. -/
def optional {α : Type} (key : String) (d : Decoder α) : Fields (Option α) :=
  field key (Decoder.nullable d) (.ok none) tooShort

end Fields

/-- Judges the fields of a table in order; `seen` are the known keys met before. -/
def checkFields (checks : List (String × (Tree → Except DecodeError Unit))) :
    List String → List (String × Tree) → Except DecodeError Unit
  | _, [] => .ok ()
  | seen, (key, t) :: rest =>
    match checks.lookup key with
    | none =>
      match t.skip with
      | .error e => .error (e.under key)
      | .ok () => checkFields checks seen rest
    | some check =>
      if seen.contains key then .error (.of (.duplicateField key))
      else match check t with
        | .error e => .error (e.under key)
        | .ok () => checkFields checks (key :: seen) rest

/-- A number of elements in words. -/
def elements (n : Nat) : String := if n = 1 then "1 element" else s!"{n} elements"

/-- What a list for a record is expected to be. -/
def expectedElements (name : String) (n : Nat) : String := s!"{name} with {elements n}"

namespace Decoder

/-- A record from the fields of a table. -/
def ofFields {α : Type} (fields : Fields α) (entries : List (String × Tree)) :
    Except DecodeError α := do
  checkFields fields.checks [] entries
  fields.build fun key => entries.lookup key

/-- A record from the items of a list. -/
def ofItems {α : Type} (name : String) (fields : Fields α) (items : List Tree) :
    Except DecodeError (α × Nat × List Tree) :=
  match fields.take 0 items with
  | .error ⟨path, .invalidLength n ""⟩ =>
    .error ⟨path, .invalidLength n (expectedElements name fields.checks.length)⟩
  | r => r

/-- A record, from a table or from a list of its fields. -/
def record {α : Type} (name : String) (fields : Fields α) : Decoder α
  | .table entries => ofFields fields entries
  | .list items => do
    match ← ofItems name fields items with
    | (a, _, []) => return a
    | (_, _, .broken .endInList :: _) => throw (.of (.fault .endInList))
    | (_, _, .broken .trailingComma :: _) => throw (.of (.fault .trailingComma))
    | _ => throw (.of (.tooManyItems items.length))
  | t => .error (t.mismatch name)

/-- Splits off the fields that carry the choice; the others keep their order. -/
def splitTag {α : Type} (key : String) (choice : Decoder α) :
    Option α → List (String × Tree) → Except DecodeError (α × List (String × Tree))
  | none, [] => .error (.of (.missingField key))
  | some a, [] => .ok (a, [])
  | tag, (k, t) :: rest =>
    if k = key then
      match tag with
      | some _ => .error (.of (.duplicateField key))
      | none =>
        match choice t with
        | .error e => .error (e.under key)
        | .ok a => splitTag key choice (some a) rest
    else
      match t.skip with
      | .error e => .error (e.under k)
      | .ok () => (splitTag key choice tag rest).map fun (a, more) => (a, (k, t) :: more)

/-- One of several records, told apart by the text under a key. Each choice has a name for messages
and its fields. -/
def tagged {α : Type} (name key : String) (known : List (String × String × Fields α)) : Decoder α :=
  let choice : Decoder (String × Fields α)
    | .text s | .datetime s => choose known s
    | t => .error (t.mismatch "variant identifier")
  fun
  | .table entries => do
    let ((_, fields), rest) ← splitTag key choice none entries
    match ofFields fields rest with
    | .ok a => return a
    | .error e => throw ⟨[], e.flaw⟩
  | .list [] => .error (.of (.missingField key))
  | .list (t :: rest) => do
    let (variantName, fields) ← choice t
    let (a, used, left) ← ofItems variantName fields rest
    if left.isEmpty then return a
    else throw (.of (.invalidLength rest.length (elements used ++ " in sequence")))
  | t => .error (t.mismatch name)

/-- A value read off a text by a reader with errors of its own. -/
def parsed {α ε : Type} (read : String → Except ε α) (message : ε → String) : Decoder α := fun t => do
  match read (← text t) with
  | .ok a => return a
  | .error e => throw (.of (.custom (message e)))

end Decoder
end Paymaster.Document

import Paymaster.Metrics.Tally
/-!
# The exposition of metrics

Metrics are published as lines of text, family by family: what the family is, of which kind it is,
and its samples. A family without samples is left out, unless its samples are for the server to fill
in, as those that only a clock knows.
-/

namespace Paymaster.Metrics

/-- The kinds of families. -/
inductive Kind where
  /-- A number that only grows. -/
  | counter
  /-- A number that goes up and down. -/
  | gauge
  /-- A distribution. -/
  | histogram
  deriving DecidableEq, Repr

/-- The name of a kind. -/
def Kind.name : Kind → String
  | .counter => "counter"
  | .gauge => "gauge"
  | .histogram => "histogram"

/-- A family of samples. -/
structure Family where
  /-- The name all samples begin with. -/
  name : String
  /-- What is measured. -/
  help : String
  /-- The kind of the family. -/
  kind : Kind
  /-- The samples: what follows the name, and the value. -/
  samples : List (String × String)
  /-- The server adds samples. -/
  external : Bool := false

/-- The lines of a family. -/
def Family.lines (f : Family) : List String :=
  if f.samples.isEmpty && !f.external then []
  else s!"# HELP {f.name} {f.help}" :: s!"# TYPE {f.name} {f.kind.name}" ::
    f.samples.map fun s => f.name ++ s.1 ++ " " ++ s.2

/-- The text of some families in the given order. -/
def exposition (families : List Family) : String :=
  String.join ((families.flatMap Family.lines).map (· ++ "\n"))

/-- A label behind a sample's name. -/
def label (key value : String) : String :=
  "\x7b" ++ key ++ "=\"" ++ value ++ "\"\x7d"

/-- The samples of a tally, for the labels in their order. -/
def Tally.samples {κ : Type} [DecidableEq κ] (t : Tally κ) (order : List κ) (suffix key : String)
    (name : κ → String) : List (String × String) :=
  (order.filter t.lists).map fun k => (suffix ++ label key (name k), toString (t.count k))

/-- The time since the process began, which only the server knows. -/
def uptime : Family := ⟨"process_uptime_seconds", "Process uptime in seconds", .gauge, [], true⟩

end Paymaster.Metrics

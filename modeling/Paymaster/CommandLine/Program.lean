import Paymaster.CommandLine.Arguments
import Paymaster.Quote.Settings
import Paymaster.Reserve.Startup
/-!
# The two programs

One program runs a quote desk, the other a top-up controller. Both read their settings from a file
that is named by an option or by the environment, refuse settings that make no sense, and can say
what the settings are instead of doing the work.
-/

namespace Paymaster.CommandLine

/-- The programs. -/
inductive Program where
  /-- The quote desk. -/
  | quote
  /-- The top-up controller. -/
  | topup
  deriving DecidableEq, Repr

/-- What a program leaves behind. -/
structure Outcome where
  /-- The exit status. -/
  status : Nat
  /-- The lines it prints. -/
  output : List String
  /-- The message it ends with. -/
  message : Option String
  deriving DecidableEq, Repr

/-- The outcome of a program that prints some lines. -/
def Outcome.ok (output : List String) : Outcome := ⟨0, output, none⟩

/-- The outcome of a program that gives up. -/
def Outcome.failed (message : String) : Outcome := ⟨2, [], some message⟩

/-- The message about arguments that make no sense. -/
def usage : String := "usage"

namespace Program

/-- The option that names the file with the settings. -/
def configOption (source : String) : OptionSpec :=
  ⟨"config", "CONFIG", s!"Path to a TOML config file. If omitted, uses `{source}`", []⟩

/-- The option that names the backend. -/
def backendOption : OptionSpec :=
  ⟨"backend", "BACKEND",
    "Collaborators to use [default: live] [possible values: mock, live]", ["mock", "live"]⟩

/-- The variable that names the file with the settings. -/
def configVariable : Program → String
  | .quote => "FPC_QUOTE_CONFIG"
  | .topup => "FPC_TOPUP_CONFIG"

/-- What a program understands. -/
def grammar (p : Program) : Grammar :=
  match p with
  | .quote =>
    ⟨"quote-node", "FPC quote issuer", "0.1.0", [configOption p.configVariable], fun
      | .run => "Serve quotes (default)"
      | .check => "Validate config, resolve secrets and print a summary"⟩
  | .topup =>
    ⟨"topup-node", "FPC reserve top-up controller", "0.1.0",
      [configOption p.configVariable, backendOption], fun
      | .run => "Reconcile, then run the top-up loop (default)"
      | .check => "Validate config, inspect the bridge state file and print a summary"⟩

/-- The path of the file with the settings. -/
def configPath (p : Program) (i : Invocation) (env : Environment) : Except String String :=
  match i.get? "config" with
  | some path => .ok path
  | none =>
    match env.get? p.configVariable with
    | some path => .ok path
    | none => .error s!"missing config: pass --config or set {p.configVariable}"

end Program

/-- A message about settings that are refused. -/
def invalid (e : String) : String := s!"invalid config: {e}"

/-- The settings of a quote desk, and the desk. -/
def openDesk (path : String) (env : Environment) (disk : Disk) :
    Except String (Quote.Settings × Quote.Desk) := do
  let s ← (Settings.load Quote.Settings.decoder env disk path).mapError Settings.LoadError.message
  s.validate.mapError invalid
  let desk ← s.openDesk env disk
  return (s, desk)

/-- The lines that say what the settings of a quote desk are. -/
def deskSummary (path : String) (s : Quote.Settings) (desk : Quote.Desk) : List String :=
  [ s!"config ok: {path}",
    s!"  profile            {s.profile.name}",
    s!"  facility           {s.terms.facility.toHex}",
    s!"  accepted asset     {s.terms.assetName} ({s.terms.acceptedAsset.toHex})",
    s!"  final rate         {desk.binder.rate.num.toDecimal}/{desk.binder.rate.den.toDecimal}",
    s!"  validity           {s.effectiveValidity.toNat}s",
    s!"  auth mode          {s.auth.mode.name}",
    s!"  signer public key  {desk.binder.signer.publicKey}" ]

/-- The backend that an invocation asks for. -/
def backendOf (i : Invocation) : Reserve.Backend :=
  if i.get? "backend" == some "mock" then .mock else .live

/-- The settings of a top-up controller. -/
def loadController (path : String) (b : Reserve.Backend) (env : Environment) (disk : Disk) :
    Except String Reserve.Settings := do
  let s ← (Settings.load Reserve.Settings.decoder env disk path).mapError Settings.LoadError.message
  (s.validate b).mapError invalid
  return s

/-- What a state file keeps, in words. -/
def pendingSummary : Option Reserve.BridgeRecord → String
  | none => "none"
  | some r =>
    s!"message {r.messageHash.toHex} (amount {r.amount.toDecimal}, " ++
      s!"baseline {r.baseline.toDecimal}, submitted {r.submittedAt.toNat}ms)"

/-- The lines that say what the settings of a top-up controller are. -/
def controllerSummary (path : String) (b : Reserve.Backend) (s : Reserve.Settings)
    (pending : Option Reserve.BridgeRecord) : List String :=
  [ s!"config ok: {path}",
    s!"  profile            {s.profile.name}",
    s!"  backend            {b.name}",
    s!"  facility           {s.facility.toHex}",
    s!"  threshold          {s.topup.threshold.toDecimal}",
    s!"  amount             {s.topup.amount.toDecimal}",
    s!"  check interval     {s.topup.checkInterval.toNat}ms",
    s!"  confirm timeout    {s.topup.timeout.toNat}ms",
    s!"  ready stale after  {s.staleAfter}ms",
    s!"  state file         {s.statePath}",
    s!"  pending bridge     {pendingSummary pending}" ]

/-- Says what the settings of a quote desk are. -/
def checkDesk (path : String) (env : Environment) (disk : Disk) : Except String (List String) := do
  let (s, desk) ← openDesk path env disk
  return deskSummary path s desk

/-- Says what the settings of a top-up controller are. -/
def checkController (path : String) (b : Reserve.Backend) (env : Environment) (disk : Disk) :
    Except String (List String) := do
  let s ← loadController path b env disk
  let pending ← (Reserve.StateFile.load s.statePath disk).mapError fun e =>
    s!"bridge state unreadable: {e.message}"
  return controllerSummary path b s pending

namespace Program

/-- What a program does before it begins its work: an outcome, if it ends there. -/
def prepare (p : Program) (args : List String) : Outcome ⊕ Invocation :=
  match p.grammar.read args with
  | .mistake => .inl (.failed usage)
  | .version => .inl (.ok [s!"{p.grammar.name} {p.grammar.version}"])
  | .help none => .inl (.ok p.grammar.helpLines)
  | .help (some c) => .inl (.ok (p.grammar.commandHelpLines c))
  | .invocation i => .inr i

/-- Says what the settings are, or why they cannot be used. -/
def check (p : Program) (i : Invocation) (env : Environment) (disk : Disk) :
    Except String (List String) := do
  let path ← p.configPath i env
  match p with
  | .quote => checkDesk path env disk
  | .topup => checkController path (backendOf i) env disk

/-- Why a program cannot begin its work, if it cannot. -/
def refusal? (p : Program) (i : Invocation) (env : Environment) (disk : Disk) : Option String :=
  let judged : Except String Unit := do
    let path ← p.configPath i env
    match p with
    | .quote => (openDesk path env disk).map fun _ => ()
    | .topup => do
      let s ← loadController path (backendOf i) env disk
      s.prepare (backendOf i) env disk
  match judged with
  | .ok () => none
  | .error e => some e

/-- The outcome of a program, unless it goes to work. -/
def outcome? (p : Program) (args : List String) (env : Environment) (disk : Disk) : Option Outcome :=
  match p.prepare args with
  | .inl o => some o
  | .inr i =>
    match i.command with
    | .check => some <| match p.check i env disk with
      | .ok lines => .ok lines
      | .error e => .failed e
    | .run => (p.refusal? i env disk).map .failed

end Program
end Paymaster.CommandLine

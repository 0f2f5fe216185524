/-!
# Arguments

How the arguments of a program are read. Options come first, each with a value; then at most one
command, which takes no arguments of its own. Whoever asks for help gets it, unless a mistake comes
before the question.
-/

namespace Paymaster.CommandLine

/-- What a program can be told to do. -/
inductive Command where
  /-- Do the work. -/
  | run
  /-- Look at the settings and say what they are. -/
  | check
  deriving DecidableEq, Repr

/-- The name of a command. -/
def Command.name : Command → String
  | .run => "run"
  | .check => "check"

/-- An option of a program. -/
structure OptionSpec where
  name : String
  /-- What its value is called. -/
  value : String
  /-- What it means. -/
  about : String
  /-- The values it may have; any that is not empty if there are none. -/
  choices : List String

/-- What a program understands. -/
structure Grammar where
  /-- The name of the program. -/
  name : String
  about : String
  version : String
  options : List OptionSpec
  /-- What its commands mean. -/
  aboutCommand : Command → String

/-- What some arguments say. -/
structure Invocation where
  /-- The options with their values. -/
  options : List (String × String)
  command : Command
  deriving DecidableEq, Repr

/-- The value of an option. -/
def Invocation.get? (i : Invocation) (name : String) : Option String := i.options.lookup name

/-- What comes of some arguments. -/
inductive Reading where
  /-- They say what to do. -/
  | invocation (i : Invocation)
  /-- They ask for help with the program, or with a command. -/
  | help (about : Option Command)
  /-- They ask for the version. -/
  | version
  /-- They make no sense. -/
  | mistake
  deriving DecidableEq, Repr

/-- The value may be given to the option. -/
def OptionSpec.accepts (o : OptionSpec) (value : String) : Bool :=
  if o.choices.isEmpty then !value.isEmpty else o.choices.contains value

/-- The command with a name. -/
def command? : String → Option Command
  | "run" => some .run
  | "check" => some .check
  | _ => none

/-- The argument looks like an option. -/
def isOption (arg : String) : Bool := arg.startsWith "-" && arg != "-"

/-- Reads what follows a command. -/
def readTail (c : Command) (options : List (String × String)) : List String → Reading
  | [] => .invocation ⟨options, c⟩
  | ["--"] => .invocation ⟨options, c⟩
  | arg :: _ => if arg == "--help" || arg.startsWith "-h" then .help (some c) else .mistake

/-- Reads what follows the question for help. -/
def readTopic : List String → Reading
  | [] => .help none
  | ["help"] => .help none
  | [topic] =>
    match command? topic with
    | some c => .help (some c)
    | none => .mistake
  | _ => .mistake

/-- The name and the value of a long option. -/
def cutValue (arg : String) : String × Option String :=
  let cs := (arg.toList.drop 2)
  match cs.dropWhile (· != '=') with
  | '=' :: value => (String.ofList (cs.takeWhile (· != '=')), some (String.ofList value))
  | _ => (String.ofList cs, none)

namespace Grammar

/-- Reads arguments; `options` are those read before. -/
def readFrom (g : Grammar) (options : List (String × String)) : List String → Reading
  | [] => .invocation ⟨options, .run⟩
  | arg :: rest =>
    if arg == "--" then if rest.isEmpty then .invocation ⟨options, .run⟩ else .mistake
    else if arg == "--help" || arg.startsWith "-h" then .help none
    else if arg == "--version" || arg.startsWith "-V" then .version
    else if arg.startsWith "--" then
      let (name, inline) := cutValue arg
      match g.options.find? fun o => o.name == name, inline, rest with
      | none, _, _ => .mistake
      | some o, some value, rest =>
        if o.accepts value && (options.lookup name).isNone then
          g.readFrom (options ++ [(name, value)]) rest
        else .mistake
      | some o, none, value :: rest =>
        if !isOption value && o.accepts value && (options.lookup name).isNone then
          g.readFrom (options ++ [(name, value)]) rest
        else .mistake
      | some _, none, [] => .mistake
    else if arg == "help" then readTopic rest
    else match command? arg with
      | some c => readTail c options rest
      | none => .mistake

/-- Reads the arguments of a program. -/
def read (g : Grammar) (args : List String) : Reading := g.readFrom [] args

/-- A text filled up with blanks to a width. -/
def pad (width : Nat) (s : String) : String := s ++ String.ofList (List.replicate (width - s.length) ' ')

/-- Two columns of text. -/
def columns (rows : List (String × String)) : List String :=
  let width := rows.foldl (fun w (left, _) => max w left.length) 0
  rows.map fun (left, right) => s!"  {pad width left}  {right}"

/-- The lines of the help for a program. -/
def helpLines (g : Grammar) : List String :=
  [g.about, "", s!"Usage: {g.name} [OPTIONS] [COMMAND]", "", "Commands:"] ++
    columns ([Command.run, .check].map (fun c => (c.name, g.aboutCommand c)) ++
      [("help", "Print this message or the help of the given subcommand(s)")]) ++
    ["", "Options:"] ++
    columns ((g.options.map fun o => (s!"    --{o.name} <{o.value}>", o.about)) ++
      [("-h, --help", "Print help"), ("-V, --version", "Print version")])

/-- The lines of the help for a command. -/
def commandHelpLines (g : Grammar) (c : Command) : List String :=
  [g.aboutCommand c, "", s!"Usage: {g.name} {c.name}", "", "Options:", "  -h, --help  Print help"]

end Grammar
end Paymaster.CommandLine

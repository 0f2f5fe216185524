import Std.Time.DateTime.Timestamp
import Paymaster.CommandLine.Files
import Paymaster.Http.Wire
/-!
# The command line

`paymaster quote` runs a quote desk and `paymaster topup` a top-up controller; what follows the
first word are the arguments of that program. The desk answers the requests that arrive on standard
input, one after the other, so that any listener can hand its connections over. All decisions are
made by the library; here files are read and written, clocks are looked at, and lines are printed.
-/

namespace Paymaster.Shell

open CommandLine (Invocation Outcome Program)

/-- The environment of this process. -/
def environment : IO Environment := do
  let bytes ← try IO.FS.readBinFile "/proc/self/environ" catch _ => pure ByteArray.empty
  let entries := (bytes.toList.splitBy fun a _ => a != 0).map fun part => part.filter (· != 0)
  return .ofVariables <| entries.filterMap fun entry =>
    match entry.span (· != 0x3d) with
    | (name, _ :: value) => (Text.Utf8.decode? name).map fun name => (name, value)
    | (_, []) => none

/-- The disk with what is at a path of the real one. -/
def fetch (d : Disk) (path : String) : IO Disk := do
  try
    let real ← IO.FS.realPath path
    if ← real.isDir then
      return (d.makeDirectories path).toOption.getD d
    else
      return d.place path (← IO.FS.readBinFile path).toList
  catch _ => return d

/-- The part of the disk that a program reads. -/
def snapshot (p : Program) (path : String) (env : Environment) : IO Disk := do
  let here := (← IO.currentDir).toString
  let base := (Disk.empty.makeDirectories here).toOption.getD Disk.empty
  let d ← fetch { base with here := Path.steps here } path
  (p.files path env d).foldlM fetch d

/-- Prints an outcome; its status is the answer. -/
def report (o : Outcome) : IO UInt32 := do
  for line in o.output do
    IO.println line
  if let some message := o.message then
    IO.eprintln message
  return UInt32.ofNat o.status

/-- The wall clock in milliseconds of Unix time. -/
def wallMillis : IO UInt64 := do
  let now ← Std.Time.Timestamp.now
  return UInt64.ofNat now.toMillisecondsSinceUnixEpoch.toInt.toNat

/-- This moment. -/
def moment : IO Reserve.Moment := do
  let bytes ← IO.getRandomBytes 32
  return ⟨← IO.monoMsNow, ← wallMillis, false, Word.ofBytes bytes.toList⟩

/-- The lines of the head of a request; nothing at the end of the input. -/
partial def readHead (input : IO.FS.Stream) (lines : List String) : IO (Option (List String)) := do
  let line ← input.getLine
  if line.isEmpty then return none
  let text := (line.dropEndWhile fun c => c == '\n' || c == '\r').toString
  if !text.isEmpty then readHead input (lines ++ [text])
  else if lines.isEmpty then readHead input []
  else return some lines

/-- Answers requests until the input ends. -/
partial def serve (desk : Quote.Desk) (state : Quote.DeskState) : IO Unit := do
  match ← readHead (← IO.getStdin) [] with
  | none => return
  | some lines =>
    match Http.RequestHead.ofLines lines with
    | none => serve desk state
    | some head =>
      let credentials := desk.credentials head.headers "127.0.0.1"
      let (reply, state) := desk.route ⟨← wallMillis, ← wallMillis⟩
        ⟨head.method, head.target, credentials⟩ state
      let output ← IO.getStdout
      output.putStr reply.render
      output.flush
      serve desk state

/-- Puts the state file of a disk where it belongs on the real one. -/
def putBack (path : String) (d : Disk) : IO Unit := do
  match d.readBytes path with
  | .ok bytes =>
    if let some dir := Path.parent? path then
      if !dir.isEmpty then IO.FS.createDirAll dir
    let draft := Reserve.StateFile.draftPath path
    IO.FS.writeBinFile draft ⟨bytes.toArray⟩
    IO.FS.rename draft path
  | .error _ => try IO.FS.removeFile path catch _ => pure ()

/-- Goes on with some work until it is done, looking again every few milliseconds. -/
partial def workOff {π α : Type} (path : String)
    (look : Reserve.Moment → π → Reserve.Controller Reserve.Offline Disk →
      Progress π α × Reserve.Controller Reserve.Offline Disk)
    (x : π) (c : Reserve.Controller Reserve.Offline Disk) :
    IO (α × Reserve.Controller Reserve.Offline Disk) := do
  let (x, next) := look (← moment) x c
  if (next.store.readBytes path).toOption != (c.store.readBytes path).toOption then
    putBack path next.store
  match x with
  | .done a => return (a, next)
  | .pending x =>
    IO.sleep 5
    workOff path look x next

/-- Runs a top-up controller with a simulated node and bridge. -/
def patrol (s : Reserve.Settings) (k : Reserve.Charter Reserve.Offline Disk) (d : Disk) :
    IO UInt32 := do
  let path := s.statePath
  let start := Reserve.Controller.initial s.staleAfter s.offline d
  let recover (t : Reserve.Moment) (x : Option Reserve.Recovery)
      (c : Reserve.Controller Reserve.Offline Disk) :=
    let (x, c) := match x with
      | none => Reserve.Recovery.start k t c
      | some x => x.poll k t c
    (x.map some id, c)
  let (found, c) ← workOff path recover none start
  match found with
  | .error e => report (.failed s!"bridge state file is corrupt; refusing to start: {e.message}")
  | .ok _ =>
    let _ ← workOff path (fun t x c => x.poll k t c) (Reserve.Patrol.start (← IO.monoMsNow)) c
    return 0

/-- Does the work of a program whose settings are sound. -/
def work (p : Program) (i : Invocation) (path : String) (env : Environment) (d : Disk) :
    IO UInt32 := do
  match p with
  | .quote =>
    match CommandLine.openDesk path env d with
    | .error e => report (.failed e)
    | .ok (_, desk) =>
      serve desk .initial
      return 0
  | .topup =>
    match CommandLine.loadController path (CommandLine.backendOf i) env d with
    | .error e => report (.failed e)
    | .ok s =>
      match CommandLine.backendOf i, s.offlineCharter with
      | .live, _ => report (.failed "the live backend needs a network")
      | .mock, .error e => report (.failed e)
      | .mock, .ok k => patrol s k d

/-- Runs a program with some arguments. -/
def runProgram (p : Program) (args : List String) : IO UInt32 := do
  let env ← environment
  match p.prepare args with
  | .inl o => report o
  | .inr i =>
    match p.configPath i env with
    | .error e => report (.failed e)
    | .ok path =>
      let d ← snapshot p path env
      match p.outcome? args env d with
      | some o => report o
      | none => work p i path env d

end Paymaster.Shell

/-- Runs the program that the first argument names. -/
def main (args : List String) : IO UInt32 :=
  match args with
  | "quote" :: args => Paymaster.Shell.runProgram .quote args
  | "topup" :: args => Paymaster.Shell.runProgram .topup args
  | _ => do
    IO.eprintln "usage: paymaster (quote|topup) [OPTIONS] [COMMAND]"
    return 2

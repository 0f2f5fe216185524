import Paymaster.CommandLine.Program
/-!
# The files that a program reads

Which files a program may read, once its settings are known. Whoever runs it on a real disk has to
fetch these, and no others.
-/

namespace Paymaster.CommandLine

/-- The file that a secret is read from, if it is read from one. -/
def secretPath? (mounts : List Settings.Mount) : Secret.Source → Option String
  | .file path => some path
  | .provider name reference =>
    (mounts.find? fun m => Text.trim m.name == Text.trim name).map fun m => Path.join m.dir reference
  | _ => none

/-- The files that a quote desk reads. -/
def deskFiles (s : Quote.Settings) : List String :=
  (s.signer :: s.auth.apiKey.toList ++ s.auth.headerValue.toList).filterMap (secretPath? s.mounts)

/-- The files that a top-up controller reads. -/
def controllerFiles (s : Reserve.Settings) : List String :=
  s.statePath :: s.portalKey.toList.filterMap (secretPath? s.mounts)

/-- The files that a program reads, its settings among them. -/
def Program.files (p : Program) (path : String) (env : Environment) (disk : Disk) : List String :=
  path :: match p with
    | .quote =>
      match Settings.load Quote.Settings.decoder env disk path with
      | .ok s => deskFiles s
      | .error _ => []
    | .topup =>
      match Settings.load Reserve.Settings.decoder env disk path with
      | .ok s => controllerFiles s
      | .error _ => []

end Paymaster.CommandLine

import Paymaster.Disk
import Paymaster.Reserve.Record
/-!
# The state file

The record of a deposit in flight is kept in one file. It is replaced by writing a second file
beside it and renaming that one, so the file always holds a whole record. Without a record there is
no file.
-/

namespace Paymaster.Reserve

/-- Why an operation on the state file fails; every error names the file. -/
inductive StoreError where
  /-- The operating system refuses. -/
  | io (path : String) (why : OsError)
  /-- What the file holds is no record. -/
  | content (path : String) (why : RecordError)
  deriving DecidableEq, Repr

/-- The wording of a state file error. -/
def StoreError.message : StoreError → String
  | .io path why => s!"bridge state io error at {path}: {why.message}"
  | .content path (.malformed why) =>
    s!"bridge state file {path} is not valid JSON: {why.message .jsonText}"
  | .content path (.unsupportedVersion v) =>
    s!"bridge state file {path} has unsupported version {v.toNat} (expected 1)"
  | .content path (.invalidField field reason) =>
    s!"bridge state file {path}: invalid {field}: {reason}"

namespace StateFile

/-- The file that is written before it takes the place of the state file. -/
def draftPath (path : String) : String := Path.withExtension path "json.tmp"

/-- The record that the file keeps; no file keeps no record. -/
def load (path : String) (d : Disk) : Except StoreError (Option BridgeRecord) :=
  match d.readBytes path with
  | .error .notFound => .ok none
  | .error e => .error (.io path e)
  | .ok bytes => (BridgeRecord.decode bytes).mapError (.content path)

/-- The directory of the file made, if it has one; the second part is the disk afterwards, also when
it fails. -/
def makeParent (path : String) (d : Disk) : Except OsError Unit × Disk :=
  match Path.parent? path with
  | none => (.ok (), d)
  | some dir => if dir.isEmpty then (.ok (), d) else d.pave dir

/-- Keeps a record; the second part is the disk afterwards, also when it fails. -/
def save (path : String) (r : BridgeRecord) (d : Disk) : Except StoreError Unit × Disk :=
  match makeParent path d with
  | (.error e, d) => (.error (.io path e), d)
  | (.ok (), d) =>
    match d.write (draftPath path) r.encode with
    | .error e => (.error (.io path e), d)
    | .ok d =>
      match d.rename (draftPath path) path with
      | .error e => (.error (.io path e), d)
      | .ok d => (.ok (), d)

/-- Forgets the record; the second part is the disk afterwards. -/
def clear (path : String) (d : Disk) : Except StoreError Unit × Disk :=
  match d.removeFile path with
  | .ok d => (.ok (), d)
  | .error .notFound => (.ok (), d)
  | .error e => (.error (.io path e), d)

end StateFile
end Paymaster.Reserve

import Paymaster.Text.Split
import Paymaster.Text.Utf8
/-!
# The disk

A disk is a table of files and directories by their absolute path. The operations are those of a
POSIX file system without symbolic links: they either do what they are asked for or leave the disk
as it was and say why not. A rename within the disk happens at once.
-/

namespace Paymaster

/-- Why the operating system refuses an operation. -/
inductive OsError where
  /-- Nothing has this path. -/
  | notFound
  /-- Something has this path already. -/
  | exists
  /-- A file stands where a directory is needed. -/
  | notDirectory
  /-- A directory stands where a file is needed. -/
  | isDirectory
  /-- The directory is not empty. -/
  | notEmpty
  /-- A name is longer than 255 bytes. -/
  | nameTooLong
  /-- The operation makes no sense for this path. -/
  | invalid
  /-- The path holds the character with code zero. -/
  | zeroInName
  /-- The bytes are no text. -/
  | notText
  /-- No network leads to the other side. -/
  | networkUnreachable
  /-- The path ends in a step that names no entry. -/
  | busy
  deriving DecidableEq, Repr

/-- The wording of a refusal. -/
def OsError.message : OsError → String
  | .notFound => "No such file or directory (os error 2)"
  | .exists => "File exists (os error 17)"
  | .notDirectory => "Not a directory (os error 20)"
  | .isDirectory => "Is a directory (os error 21)"
  | .notEmpty => "Directory not empty (os error 39)"
  | .nameTooLong => "File name too long (os error 36)"
  | .invalid => "Invalid argument (os error 22)"
  | .zeroInName => "file name contained an unexpected NUL byte"
  | .notText => "stream did not contain valid UTF-8"
  | .networkUnreachable => "Network is unreachable (os error 101)"
  | .busy => "Device or resource busy (os error 16)"

namespace Path

/-- The pieces of a path between slashes. -/
def pieces (path : String) : List String :=
  (Text.splitOn '/' path.toList).map String.ofList

/-- The path starts at the root. -/
def isAbsolute (path : String) : Bool := path.toList.head? == some '/'

/-- The pieces that name a step; a dot counts only at the start of a relative path. -/
def steps (path : String) : List String :=
  match pieces path with
  | "." :: rest => "." :: rest.filter fun s => s != "" && s != "."
  | all => all.filter fun s => s != "" && s != "."

/-- A path from its steps. -/
def ofSteps (absolute : Bool) (steps : List String) : String :=
  (if absolute then "/" else "") ++ "/".intercalate steps

/-- The directory of a path, if the path has a last step. -/
def parent? (path : String) : Option String :=
  match steps path with
  | [] => none
  | all => some (ofSteps (isAbsolute path) all.dropLast)

/-- The name of the file a path leads to. -/
def fileName? (path : String) : Option String :=
  match (steps path).getLast? with
  | none | some "." | some ".." => none
  | some name => some name

/-- A path without the slashes at its end. -/
def withoutTail (path : String) : String :=
  match path.toList.reverse.dropWhile (· == '/') with
  | [] => if isAbsolute path then "/" else ""
  | back => String.ofList back.reverse

/-- A file name up to its last dot; a dot at the very start does not count. -/
def stem (name : String) : String :=
  let back := name.toList.reverse
  match back.dropWhile (· != '.') with
  | [] | ['.'] => name
  | _ :: front => String.ofList front.reverse

/-- The piece names a step; a blank piece and a dot lead nowhere. -/
def isStep (piece : String) : Bool := piece != "" && piece != "."

/-- A path with another ending of its file name; what stands behind the name is left out. -/
def withExtension (path ending : String) : String :=
  match (pieces path).reverse.dropWhile fun s => !isStep s with
  | [] | ".." :: _ => path
  | name :: back => "/".intercalate (back.reverse ++ [stem name ++ "." ++ ending])

/-- A path taken from a directory; an absolute path stands for itself. -/
def join (dir path : String) : String :=
  if isAbsolute path then path
  else if dir.isEmpty || dir.toList.getLast? == some '/' then dir ++ path
  else dir ++ "/" ++ path

end Path

/-- What a path leads to. -/
inductive Disk.Entry where
  | directory
  | file (bytes : List UInt8)
  deriving DecidableEq, Repr

/-- Files and directories by the names on the way from the root, and the directory in which relative
paths start. -/
structure Disk where
  /-- All entries but the root. -/
  entries : List (List String × Disk.Entry)
  /-- Where relative paths start. -/
  here : List String
  deriving Repr

namespace Disk

/-- The disk with nothing on it. -/
def empty : Disk := ⟨[], []⟩

/-- What is at a place; the root is a directory. -/
def find? (d : Disk) (place : List String) : Option Entry :=
  if place.isEmpty then some .directory else d.entries.lookup place

/-- The disk with an entry put at a place. -/
def put (d : Disk) (place : List String) (e : Entry) : Disk :=
  { d with entries := (place, e) :: d.entries.filter fun x => x.1 != place }

/-- The disk without the entry at a place. -/
def erase (d : Disk) (place : List String) : Disk :=
  { d with entries := d.entries.filter fun x => x.1 != place }

/-- Nothing lies inside the directory at a place. -/
def isEmptyAt (d : Disk) (place : List String) : Bool :=
  d.entries.all fun x => x.1.dropLast != place

/-- The longest name, in bytes. -/
def maxName : Nat := 255

/-- Follows the pieces of a path from a place; all but the last piece have to lead to
directories. -/
def walk (d : Disk) : List String → List String → Except OsError (List String)
  | place, [] => .ok place
  | place, name :: rest =>
    match d.find? place with
    | none => .error .notFound
    | some (.file _) => .error .notDirectory
    | some .directory =>
      if name = "" ∨ name = "." then d.walk place rest
      else if name = ".." then d.walk place.dropLast rest
      else if maxName < name.utf8ByteSize then .error .nameTooLong
      else d.walk (place ++ [name]) rest

/-- The place a path leads to. -/
def locate (d : Disk) (path : String) : Except OsError (List String) :=
  if path.toList.contains '\x00' then .error .zeroInName
  else if path.isEmpty then .error .notFound
  else d.walk (if Path.isAbsolute path then [] else d.here) (Path.pieces path)

/-- What a path leads to. -/
def entryAt (d : Disk) (path : String) : Except OsError (List String × Entry) := do
  let place ← d.locate path
  match d.find? place with
  | some e => return (place, e)
  | none => throw .notFound

/-- Something has this path. -/
def has (d : Disk) (path : String) : Bool := (d.entryAt path).toOption.isSome

/-- The path leads to a directory. -/
def isDirectory (d : Disk) (path : String) : Bool :=
  match d.entryAt path with
  | .ok (_, .directory) => true
  | _ => false

/-- The bytes of a file. -/
def readBytes (d : Disk) (path : String) : Except OsError (List UInt8) := do
  match ← d.entryAt path with
  | (_, .file bytes) => return bytes
  | (_, .directory) => throw .isDirectory

/-- The text of a file. -/
def readText (d : Disk) (path : String) : Except OsError String := do
  match Text.Utf8.decode? (← d.readBytes path) with
  | some s => return s
  | none => throw .notText

/-- The place at which a new entry may be put: the directory it goes into is there. -/
def placeFor (d : Disk) (path : String) : Except OsError (List String) := do
  let place ← d.locate path
  match d.find? place.dropLast with
  | some .directory => return place
  | some (.file _) => throw .notDirectory
  | none => throw .notFound

/-- Writes a file, whatever it held before. -/
def write (d : Disk) (path : String) (bytes : List UInt8) : Except OsError Disk := do
  let place ← d.placeFor path
  match d.find? place with
  | some .directory => throw .isDirectory
  | _ =>
    if (Path.pieces path).getLast? = some "" then throw .isDirectory
    else return d.put place (.file bytes)

/-- Makes a directory in one that is there. -/
def makeDirectory (d : Disk) (path : String) : Except OsError Disk := do
  let place ← d.placeFor (Path.withoutTail path)
  match d.find? place with
  | some _ => throw .exists
  | none => return d.put place .directory

/-- Makes a directory and all that lead to it; `depth` bounds the number of steps. The second part
is the disk afterwards, with all that was made, also when it fails. -/
def paveTo (d : Disk) : Nat → String → Except OsError Unit × Disk
  | 0, _ => (.error .notFound, d)
  | depth + 1, path =>
    if path.isEmpty then (.ok (), d)
    else match d.makeDirectory path with
      | .ok d => (.ok (), d)
      | .error .notFound =>
        match Path.parent? path with
        | none => (.error .notFound, d)
        | some dir =>
          match d.paveTo depth dir with
          | (.error e, d) => (.error e, d)
          | (.ok (), d) =>
            match d.makeDirectory path with
            | .ok d => (.ok (), d)
            | .error e => (if d.isDirectory path then .ok () else .error e, d)
      | .error e => (if d.isDirectory path then .ok () else .error e, d)

/-- Makes a directory and all that lead to it, as far as they can be made. -/
def pave (d : Disk) (path : String) : Except OsError Unit × Disk := d.paveTo (path.length + 1) path

/-- The disk with a directory and all that lead to it, if they can be made. -/
def makeDirectories (d : Disk) (path : String) : Except OsError Disk :=
  match d.pave path with
  | (.ok (), d) => .ok d
  | (.error e, _) => .error e

/-- The disk with a file put in place, its directories made before; a path that ends with a slash
names a directory. What cannot be made is left out. -/
def place (d : Disk) (path : String) (bytes : List UInt8) : Disk :=
  if (Path.pieces path).getLast? = some "" then (d.makeDirectories path).toOption.getD d
  else
    let d := ((Path.parent? path).bind fun dir => (d.makeDirectories dir).toOption).getD d
    (d.write path bytes).toOption.getD d

/-- Gives a file another path; a file that had it is replaced. The path has to end in a name. -/
def rename (d : Disk) (source target : String) : Except OsError Disk := do
  match ← d.entryAt source with
  | (_, .directory) => throw .invalid
  | (old, .file bytes) =>
    let place ← d.placeFor (Path.withoutTail target)
    match (Path.pieces (Path.withoutTail target)).getLast? with
    | some "." | some ".." => throw .busy
    | _ =>
      if (Path.pieces target).getLast? = some "" then throw .notDirectory
      else match d.find? place with
        | some .directory => throw .isDirectory
        | _ => return (d.erase old).put place (.file bytes)

/-- Removes a file. -/
def removeFile (d : Disk) (path : String) : Except OsError Disk := do
  match ← d.entryAt path with
  | (_, .directory) => throw .isDirectory
  | (place, .file _) => return d.erase place

/-- Removes an empty directory. -/
def removeDirectory (d : Disk) (path : String) : Except OsError Disk := do
  match ← d.entryAt path with
  | (_, .file _) => throw .notDirectory
  | (place, .directory) =>
    if place.isEmpty then throw .invalid
    else if d.isEmptyAt place then return d.erase place
    else throw .notEmpty

end Disk
end Paymaster

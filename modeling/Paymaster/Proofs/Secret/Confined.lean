import Paymaster.Proofs.Disk.Ways
import Paymaster.Proofs.Outcomes
import Paymaster.Proofs.Secret.Resolving
/-!
# Secrets stay in their directory

A mounted provider puts a reference behind the path of its directory and reads the file with this
path. Where that leads is told in two parts: where the path of the directory leads, and what the
directory holds under the reference. Nothing else on the disk has a part in it, so two disks that
agree on the directory and on what stands directly in it cannot be told apart by any reference; and
references that could lead elsewhere are refused on any disk.
-/

namespace Paymaster

open Paymaster.Path (isStep pieces isAbsolute join)

/-! ## The path of a file in a directory -/

namespace Path

variable {name : String}

/-- The path of a directory, where the empty path stands for the directory in which relative paths
start. -/
def orHere (dir : String) : String := if dir.isEmpty then "." else dir

theorem orHere_of_ne {dir : String} (h : dir ≠ "") : orHere dir = dir := by
  rw [orHere, if_neg (by rwa [String.isEmpty_iff])]

/-- The name of a file in a directory stands behind a slash, which may belong to the directory. -/
theorem join_cases (dir : String) (hslash : '/' ∉ name.toList) : (dir = "" ∧ join dir name = name) ∨
    ∃ front, dir ≠ "" ∧ (dir = front ∨ dir = front ++ "/") ∧
      join dir name = front ++ "/" ++ name := by
  have hrelative : ¬isAbsolute name = true := by
    rw [isAbsolute, beq_iff_eq]
    exact fun hhead => hslash (List.mem_of_mem_head? hhead)
  by_cases hempty : dir = ""
  · subst hempty
    refine .inl ⟨rfl, ?_⟩
    rw [join, if_neg hrelative, if_pos (by rfl)]
    exact String.empty_append
  have hne : dir.isEmpty = false := by simpa using hempty
  right
  by_cases htail : dir.toList.getLast? = some '/'
  · obtain ⟨front, hfront⟩ := List.getLast?_eq_some_iff.mp htail
    have hdir : dir = String.ofList front ++ "/" := by
      apply String.toList_injective
      rw [hfront, String.toList_append, String.toList_ofList]
      rfl
    refine ⟨String.ofList front, hempty, .inr hdir, ?_⟩
    rw [join, if_neg hrelative, if_pos (by simp [htail]), ← hdir]
  · exact ⟨dir, hempty, .inl rfl, by rw [join, if_neg hrelative, if_neg (by simp [hne, htail])]⟩

theorem pieces_of_no_slash (h : '/' ∉ name.toList) : pieces name = [name] := by
  rw [pieces, Text.splitOn_of_not_mem _ _ h, List.map_singleton, String.ofList_toList]

theorem pieces_append_slash (front back : String) :
    pieces (front ++ "/" ++ back) = pieces front ++ pieces back := by
  have hlist : (front ++ "/" ++ back).toList = front.toList ++ '/' :: back.toList := by
    simp [String.toList_append]
  rw [pieces, hlist, Text.splitOn_append_cons, List.map_append]
  rfl

/-- The path of a file has the pieces of the path of the directory, up to some that name no step, and
the name. -/
theorem exists_pieces_join (dir : String) (hslash : '/' ∉ name.toList) : ∃ dirs tail,
    pieces (orHere dir) = dirs ++ tail ∧ (∀ piece ∈ tail, isStep piece = false) ∧
      pieces (join dir name) = dirs ++ [name] := by
  rcases join_cases dir hslash with ⟨rfl, hjoin⟩ | ⟨front, hne, hdir, hjoin⟩
  · refine ⟨[], ["."], rfl, by decide, ?_⟩
    rw [hjoin, pieces_of_no_slash hslash, List.nil_append]
  · have hpieces : pieces (join dir name) = pieces front ++ [name] := by
      rw [hjoin, pieces_append_slash, pieces_of_no_slash hslash]
    rw [orHere_of_ne hne]
    rcases hdir with rfl | rfl
    · exact ⟨pieces dir, [], (List.append_nil _).symm, nofun, hpieces⟩
    · refine ⟨pieces front, [""], ?_, by decide, hpieces⟩
      have hblank := pieces_append_slash front ""
      rwa [String.append_empty] at hblank

theorem isAbsolute_join {dir : String} (hslash : '/' ∉ name.toList) :
    isAbsolute (join dir name) = isAbsolute (orHere dir) := by
  rcases join_cases dir hslash with ⟨rfl, hjoin⟩ | ⟨front, hne, hdir, hjoin⟩
  · rw [hjoin, isAbsolute, isAbsolute, Bool.eq_iff_iff, beq_iff_eq, beq_iff_eq]
    constructor
    · exact fun hhead => absurd (List.mem_of_mem_head? hhead) hslash
    · exact fun hhead => absurd hhead (by decide)
  · rw [hjoin, orHere_of_ne hne, isAbsolute, isAbsolute]
    have hfront : front ++ "/" ++ name = front ++ ("/" ++ name) := String.append_assoc
    rcases hdir with rfl | rfl
    · rw [hfront, String.toList_append, List.head?_append_of_ne_nil _ (by simpa using hne)]
    · rw [String.toList_append, List.head?_append_of_ne_nil _ (by simp [String.toList_append])]

theorem zero_mem_join {dir : String} (hslash : '/' ∉ name.toList) :
    '\x00' ∈ (join dir name).toList ↔
      '\x00' ∈ (orHere dir).toList ∨ '\x00' ∈ name.toList := by
  rcases join_cases dir hslash with ⟨rfl, hjoin⟩ | ⟨front, hne, hdir, hjoin⟩
  · rw [hjoin]
    exact (or_iff_right (by decide)).symm
  · rw [hjoin, orHere_of_ne hne]
    rcases hdir with rfl | rfl <;> simp [String.toList_append]

theorem join_ne_empty (dir : String) (hname : name ≠ "") (hslash : '/' ∉ name.toList) :
    join dir name ≠ "" := by
  intro hempty
  have hpieces := exists_pieces_join dir hslash
  rw [hempty] at hpieces
  obtain ⟨dirs, tail, -, -, hjoin⟩ := hpieces
  have hblank : pieces "" = [""] := rfl
  have hlast := congrArg List.getLast? (hblank.symm.trans hjoin)
  rw [List.getLast?_concat] at hlast
  exact hname (Option.some.inj hlast).symm

end Path

/-! ## What a directory holds under a name -/

namespace Disk

variable {d d' : Disk} {dir name : String} {place : List String}

/-- What a directory holds under a name, and where it is; a dot is the directory itself. -/
def childOf (d : Disk) (name : String) : List String × Entry → Except OsError (List String × Entry)
  | (_, .file _) => .error .notDirectory
  | (place, .directory) =>
    if name = "." then .ok (place, .directory)
    else if maxName < name.utf8ByteSize then .error .nameTooLong
    else
      match d.find? (place ++ [name]) with
      | some e => .ok (place ++ [name], e)
      | none => .error .notFound

/-- What stands at a place that a path has led to. -/
def foundAt (d : Disk) (place : List String) : Except OsError (List String × Entry) :=
  match d.find? place with
  | some e => .ok (place, e)
  | none => .error .notFound

theorem entryAt_eq (path : String) : d.entryAt path = d.locate path >>= d.foundAt := by
  rw [entryAt]
  refine bind_congr fun place => ?_
  rw [foundAt]
  cases d.find? place <;> rfl

theorem walk_tail {tail : List String} (hdir : d.find? place = some .directory)
    (htail : ∀ piece ∈ tail, isStep piece = false) : d.walk place tail = .ok place := by
  induction tail with
  | nil => rfl
  | cons piece tail ih =>
    rw [walk_blank hdir (htail piece List.mem_cons_self)]
    exact ih fun p hp => htail p (List.mem_cons_of_mem piece hp)

/-- A name is looked up in what stands at a place; pieces that name no step lead to it as well, if
it is a directory, and fail as the name does, if not. -/
theorem foundAt_child {tail : List String} (htail : ∀ piece ∈ tail, isStep piece = false)
    (hname : name ≠ "") (hdots : name ≠ "..") :
    d.walk place [name] >>= d.foundAt = (d.walk place tail >>= d.foundAt) >>= d.childOf name := by
  -- with pieces behind the place the walk stops at it, without any the lookup does
  have hnil {why : OsError} (h : d.foundAt place >>= d.childOf name = .error why)
      (hcons : ∀ piece rest, d.walk place (piece :: rest) = .error why) :
      (d.walk place tail >>= d.foundAt) >>= d.childOf name = .error why := by
    cases tail with
    | nil => exact h
    | cons piece rest => rw [hcons piece rest]; rfl
  cases hfind : d.find? place with
  | none =>
    rw [walk_missing hfind, hnil (by rw [foundAt, hfind]; rfl) fun _ _ => walk_missing hfind]
    rfl
  | some e =>
    cases e with
    | file bytes =>
      rw [walk_file hfind, hnil (by rw [foundAt, hfind]; rfl) fun _ _ => walk_file hfind]
      rfl
    | directory =>
      have hplace : d.foundAt place = .ok (place, .directory) := by rw [foundAt, hfind]
      rw [walk_tail hfind htail]
      show _ = d.foundAt place >>= d.childOf name
      rw [hplace]
      show _ = d.childOf name (place, .directory)
      rw [childOf]
      by_cases hdot : name = "."
      · rw [if_pos hdot, walk_blank hfind (by rw [hdot]; decide)]
        exact hplace
      have hstep : isStep name = true := Path.isStep_iff.mpr ⟨hname, hdot⟩
      rw [if_neg hdot]
      by_cases hlong : maxName < name.utf8ByteSize
      · rw [if_pos hlong, walk_long hfind hstep hdots hlong]
        rfl
      · rw [if_neg hlong, walk_down hfind hstep hdots (Nat.le_of_not_lt hlong)]
        rfl

/-- The path of a file leads where the path of its directory leads, and from there to its name. -/
theorem entryAt_join (hname : name ≠ "") (hdots : name ≠ "..") (hslash : '/' ∉ name.toList)
    (hzero : '\x00' ∉ name.toList) :
    d.entryAt (join dir name) = d.entryAt (Path.orHere dir) >>= d.childOf name := by
  by_cases hz : '\x00' ∈ (Path.orHere dir).toList
  · rw [entryAt_of_zero hz, entryAt_of_zero ((Path.zero_mem_join hslash).mpr (.inl hz))]
    rfl
  have horHere : Path.orHere dir ≠ "" := by
    by_cases hempty : dir = ""
    · subst hempty
      decide
    · rwa [Path.orHere_of_ne hempty]
  have hzero' : '\x00' ∉ (join dir name).toList :=
    mt (Path.zero_mem_join hslash).mp (not_or.mpr ⟨hz, hzero⟩)
  have hstart : d.startOf (join dir name) = d.startOf (Path.orHere dir) := by
    rw [startOf, startOf, Path.isAbsolute_join hslash]
  -- both paths go through the pieces of the directory first
  obtain ⟨dirs, tail, hpieces, htail, hjoin⟩ := Path.exists_pieces_join dir hslash
  rw [entryAt_eq, entryAt_eq, locate_eq hz horHere,
    locate_eq hzero' (Path.join_ne_empty dir hname hslash), hstart, hpieces, hjoin, walk_append,
    walk_append]
  cases d.walk (d.startOf (Path.orHere dir)) dirs with
  | error why => rfl
  | ok place => exact foundAt_child htail hname hdots

/-- A file is what a directory holds under a name only if it stands directly in it. -/
theorem childOf_eq_file {found : List String × Entry} {there : List String} {bytes : List UInt8} :
    d.childOf name found = .ok (there, .file bytes) ↔ found.2 = .directory ∧ name ≠ "." ∧
      name.utf8ByteSize ≤ maxName ∧ d.find? (found.1 ++ [name]) = some (.file bytes) ∧
        there = found.1 ++ [name] := by
  obtain ⟨place, e⟩ := found
  cases e with
  | file _ => simp [childOf]
  | directory =>
    rw [childOf]
    by_cases hdot : name = "."
    · simp [hdot]
    by_cases hlong : maxName < name.utf8ByteSize
    · simp [hdot, hlong, Nat.not_le.mpr hlong]
    rw [if_neg hdot, if_neg hlong]
    cases d.find? (place ++ [name]) with
    | none => simp
    | some e => simp [hdot, Nat.le_of_not_lt hlong, and_comm, @eq_comm _ there]

/-! ## Files read from a directory -/

/-- What a path leads to, wherever that is. -/
def lookAt (d : Disk) (path : String) : Except OsError Entry := (d.entryAt path).map Prod.snd

/-- What a file holds does not depend on its place. -/
theorem readText_congr {path path' : String} (h : d'.lookAt path' = d.lookAt path) :
    d'.readText path' = d.readText path := by
  have hbytes (d : Disk) (path : String) : d.readBytes path = d.lookAt path >>= fun
      | .file bytes => .ok bytes
      | .directory => .error .isDirectory := by
    rw [readBytes, lookAt]
    cases d.entryAt path with
    | error why => rfl
    | ok found => obtain ⟨place, _ | bytes⟩ := found <;> rfl
  rw [readText, readText, hbytes, hbytes, h]

theorem readText_eq_ok {path raw : String} : d.readText path = .ok raw ↔
    ∃ place, d.entryAt path = .ok (place, .file (Text.Utf8.encode raw)) := by
  rw [Disk.readText, Except.bind_eq_ok]
  constructor
  · rintro ⟨bytes, hbytes, h⟩
    split at h
    · rename_i hdecode
      cases h
      obtain ⟨place, hplace, hfind⟩ := find_of_readBytes hbytes
      refine ⟨place, ?_⟩
      rw [entryAt_of_find hplace, hfind, Text.Utf8.encode_of_decode? hdecode]
    · cases h
  · rintro ⟨place, h⟩
    obtain ⟨hplace, hfind⟩ := entryAt_ok h
    exact ⟨_, readBytes_of_find hplace hfind, by rw [Text.Utf8.decode?_encode]; rfl⟩

/-- Two disks agree on a directory and on what stands directly in it. The path leads to a directory
on both, or to a file, or nowhere, for the same reason. -/
structure SameDirectory (dir : String) (d d' : Disk) : Prop where
  itself : d'.lookAt (Path.orHere dir) = d.lookAt (Path.orHere dir)
  children : ∀ place place', d.entryAt (Path.orHere dir) = .ok (place, .directory) →
    d'.entryAt (Path.orHere dir) = .ok (place', .directory) →
      ∀ name, d'.find? (place' ++ [name]) = d.find? (place ++ [name])

/-- A directory holds a file with some bytes directly under a name. -/
def HoldsFile (d : Disk) (dir name : String) (bytes : List UInt8) : Prop :=
  ∃ place, d.entryAt (Path.orHere dir) = .ok (place, .directory) ∧
    d.find? (place ++ [name]) = some (.file bytes)

theorem map_childOf {e : Entry} {place' : List String}
    (hchild : e = .directory → ∀ name, d'.find? (place' ++ [name]) = d.find? (place ++ [name])) :
    (d'.childOf name (place', e)).map Prod.snd = (d.childOf name (place, e)).map Prod.snd := by
  cases e with
  | file bytes => rfl
  | directory =>
    simp only [childOf, hchild rfl]
    split_ifs
    · rfl
    · rfl
    · cases d.find? (place ++ [name]) <;> rfl

/-- Lookups that go on from equal entries, wherever these are, end in equal entries. -/
theorem map_bind_congr {x x' : Except OsError (List String × Entry)}
    {f f' : List String × Entry → Except OsError (List String × Entry)}
    (h : x'.map Prod.snd = x.map Prod.snd)
    (hf : ∀ place place' e, x = .ok (place, e) → x' = .ok (place', e) →
      (f' (place', e)).map Prod.snd = (f (place, e)).map Prod.snd) :
    (x' >>= f').map Prod.snd = (x >>= f).map Prod.snd := by
  cases x with
  | error why =>
    cases x' with
    | error why' =>
      cases h
      rfl
    | ok found' => cases h
  | ok found =>
    cases x' with
    | error why' => cases h
    | ok found' =>
      obtain ⟨place, e⟩ := found
      obtain ⟨place', e'⟩ := found'
      cases h
      exact hf place place' e rfl rfl

theorem SameDirectory.lookAt_join (h : d.SameDirectory dir d') (hname : name ≠ "")
    (hdots : name ≠ "..") (hslash : '/' ∉ name.toList) (hzero : '\x00' ∉ name.toList) :
    d'.lookAt (join dir name) = d.lookAt (join dir name) := by
  rw [lookAt, lookAt, entryAt_join hname hdots hslash hzero, entryAt_join hname hdots hslash hzero]
  refine map_bind_congr h.itself fun place place' e hplace hplace' => map_childOf fun hdir => ?_
  subst hdir
  exact h.children place place' hplace hplace'

/-- Disks that agree on a directory hold the same under each name in it. -/
theorem SameDirectory.readText_join (h : d.SameDirectory dir d') (hname : name ≠ "")
    (hdots : name ≠ "..") (hslash : '/' ∉ name.toList) :
    d'.readText (join dir name) = d.readText (join dir name) := by
  refine readText_congr ?_
  by_cases hzero : '\x00' ∈ name.toList
  · have hjoin : '\x00' ∈ (join dir name).toList := (Path.zero_mem_join hslash).mpr (.inr hzero)
    rw [lookAt, lookAt, entryAt_of_zero hjoin, entryAt_of_zero hjoin]
  · exact h.lookAt_join hname hdots hslash hzero

/-- A text is read under a name of a directory exactly if the directory holds a file with this text
under the name. -/
theorem readText_join_eq_ok {raw : String} (hname : name ≠ "") (hdots : name ≠ "..")
    (hslash : '/' ∉ name.toList) : d.readText (join dir name) = .ok raw ↔
      name ≠ "." ∧ '\x00' ∉ name.toList ∧ name.utf8ByteSize ≤ maxName ∧
        d.HoldsFile dir name (Text.Utf8.encode raw) := by
  rw [readText_eq_ok]
  by_cases hzero : '\x00' ∈ name.toList
  · simp [entryAt_of_zero ((Path.zero_mem_join hslash).mpr (.inr hzero)), hzero]
  rw [entryAt_join hname hdots hslash hzero, HoldsFile]
  cases hentry : d.entryAt (Path.orHere dir) with
  | error why => simp [bind, Except.bind]
  | ok found =>
    obtain ⟨place, e⟩ := found
    change (∃ there, d.childOf name (place, e) = _) ↔ _
    simp only [childOf_eq_file, Except.ok.injEq, Prod.mk.injEq]
    constructor
    · rintro ⟨_, rfl, hdot, hsize, hfind, -⟩
      exact ⟨hdot, hzero, hsize, place, ⟨rfl, rfl⟩, hfind⟩
    · rintro ⟨hdot, -, hsize, _, ⟨rfl, rfl⟩, hfind⟩
      exact ⟨_, rfl, hdot, hsize, hfind, rfl⟩

end Disk

/-! ## Mounted directories -/

namespace Secret

variable {d d' : Disk} {name dir reference raw : String}

/-- The reference could lead out of a directory, or to no entry of it. -/
def Strays (reference : String) : Prop :=
  reference = "" ∨ reference = ".." ∨ '/' ∈ reference.toList ∨ '\\' ∈ reference.toList

theorem isPlainName_iff : isPlainName reference = true ↔ ¬Strays reference := by
  simp [isPlainName, Strays, and_assoc, and_left_comm, and_comm]

theorem fetch_of_strays (h : Strays reference) : (Provider.mounted name dir).fetch d reference =
    .error (.provider name reference "reference must be a plain file name") := by
  have hplain : ¬isPlainName reference = true := fun hplain => isPlainName_iff.mp hplain h
  rw [Provider.mounted]
  simp only [if_neg hplain]

theorem fetch_of_not_strays (h : ¬Strays reference) :
    (Provider.mounted name dir).fetch d reference = readFile d (join dir reference) := by
  rw [Provider.mounted]
  simp only [if_pos (isPlainName_iff.mpr h)]

theorem fetch_same (h : d.SameDirectory dir d') (name reference : String) :
    (Provider.mounted name dir).fetch d' reference =
      (Provider.mounted name dir).fetch d reference := by
  by_cases hstrays : Strays reference
  · rw [fetch_of_strays hstrays, fetch_of_strays hstrays]
  · have hparts := not_or.mp hstrays
    have hdots := not_or.mp hparts.2
    rw [fetch_of_not_strays hstrays, fetch_of_not_strays hstrays, readFile, readFile,
      h.readText_join hparts.1 hdots.1 (not_or.mp hdots.2).1]

/-- The reference is the name of an entry that a directory can have. -/
def IsEntryName (reference : String) : Prop :=
  ¬Strays reference ∧ reference ≠ "." ∧ '\x00' ∉ reference.toList ∧
    reference.utf8ByteSize ≤ Disk.maxName

theorem fetch_eq_ok : (Provider.mounted name dir).fetch d reference = .ok raw ↔
    IsEntryName reference ∧ d.HoldsFile dir reference (Text.Utf8.encode raw) := by
  by_cases hstrays : Strays reference
  · simp [fetch_of_strays hstrays, IsEntryName, hstrays]
  · have hparts := not_or.mp hstrays
    have hdots := not_or.mp hparts.2
    rw [fetch_of_not_strays hstrays, readFile_eq_ok,
      Disk.readText_join_eq_ok hparts.1 hdots.1 (not_or.mp hdots.2).1]
    simp [IsEntryName, hstrays, and_assoc]

namespace Resolver

variable {r : Resolver} {env : Environment}

theorem resolve_provider_same {p : Provider} (hp : r.providers.lookup name = some p)
    (hfetch : p.fetch d' reference = p.fetch d reference) :
    r.resolve env d' (.provider name reference) = r.resolve env d (.provider name reference) := by
  simp only [resolve, lookUp, hp, hfetch]

theorem resolve_provider_error {p : Provider} {why : SecretError}
    (hp : r.providers.lookup name = some p) (hfetch : p.fetch d reference = .error why) :
    r.resolve env d (.provider name reference) = .error why := by
  simp only [resolve, lookUp, hp, hfetch]
  rfl

end Resolver

/-- What a mounted directory serves depends on the directory and its direct children only. For a
reference that strays there is no file that could matter: the refusal is the same on every disk.
Else the text is that of the child with the name, all of it; a resolver removes the blanks at its
ends. -/
theorem mounted_confined (name dir : String) :
    (∀ d d' : Disk, d.SameDirectory dir d' → ∀ reference,
      (Provider.mounted name dir).fetch d' reference =
          (Provider.mounted name dir).fetch d reference ∧
        ∀ (r : Resolver) (env : Environment),
          r.providers.lookup name = some (.mounted name dir) →
            r.resolve env d' (.provider name reference) =
              r.resolve env d (.provider name reference)) ∧
    (∀ reference, Strays reference → ∃ why, ∀ d : Disk,
      (Provider.mounted name dir).fetch d reference = .error (.provider name reference why) ∧
        ∀ (r : Resolver) (env : Environment),
          r.providers.lookup name = some (.mounted name dir) →
            r.resolve env d (.provider name reference) =
              .error (.provider name reference why)) ∧
    ∀ (d : Disk) (reference : String),
      (∀ raw, (Provider.mounted name dir).fetch d reference = .ok raw ↔
        IsEntryName reference ∧ d.HoldsFile dir reference (Text.Utf8.encode raw)) ∧
      ∀ (r : Resolver) (env : Environment) (x : Resolved),
        r.providers.lookup name = some (.mounted name dir) →
          (r.resolve env d (.provider name reference) = .ok x ↔
            ∃ raw, (IsEntryName reference ∧ d.HoldsFile dir reference (Text.Utf8.encode raw)) ∧
              Text.trim raw ≠ "" ∧ x = ⟨Text.trim raw, .provider name reference⟩) := by
  refine ⟨fun d d' hsame reference => ?_, fun reference hstrays => ?_, fun d reference => ?_⟩
  · have hfetch := fetch_same hsame name reference
    exact ⟨hfetch, fun r env hp => Resolver.resolve_provider_same hp hfetch⟩
  · exact ⟨_, fun d => ⟨fetch_of_strays hstrays, fun r env hp =>
      Resolver.resolve_provider_error hp (fetch_of_strays hstrays)⟩⟩
  · refine ⟨fun raw => fetch_eq_ok, fun r env x hp => ?_⟩
    rw [Resolver.resolve_eq_ok]
    simp [Source.Holds, Source.isInline, Source.provenance, hp, fetch_eq_ok]

/-- A disk with a directory of secrets, and another one with other passwords. -/
theorem mounted_confined_passwords :
    let secrets : Disk := ⟨[(["run"], .directory), (["run", "secrets"], .directory),
      (["run", "secrets", "key"], .file (Text.Utf8.encode "k1\n")), (["etc"], .directory),
      (["etc", "passwd"], .file [])], []⟩
    let others := secrets.put ["etc", "passwd"] (.file (Text.Utf8.encode "root"))
    let vault := Provider.mounted "vault" "/run/secrets"
    let r : Resolver := ⟨[("vault", vault)], false⟩
    secrets.SameDirectory "/run/secrets" others ∧
      others.readText "/run/secrets/../../etc/passwd" ≠
        secrets.readText "/run/secrets/../../etc/passwd" ∧
      (vault.fetch others "key" = vault.fetch secrets "key" ∧
        r.resolve [] others (.provider "vault" "key") =
          r.resolve [] secrets (.provider "vault" "key")) ∧
      r.resolve [] secrets (.provider "vault" "key") = .ok ⟨"k1", .provider "vault" "key"⟩ ∧
      ∃ why, vault.fetch others "../../etc/passwd" =
        .error (.provider "vault" "../../etc/passwd" why) := by
  intro secrets others vault r
  have hplace : secrets.entryAt "/run/secrets" = .ok (["run", "secrets"], .directory) := by rfl
  have hplace' : others.entryAt "/run/secrets" = .ok (["run", "secrets"], .directory) := by rfl
  have hsame : secrets.SameDirectory "/run/secrets" others := by
    refine ⟨by rfl, fun place place' h h' name => ?_⟩
    cases hplace.symm.trans h
    cases hplace'.symm.trans h'
    exact Disk.find?_put_ne (by simp) _
  obtain ⟨hagree, hrefused, hserved⟩ := mounted_confined "vault" "/run/secrets"
  refine ⟨hsame, by decide +kernel, ?_, ?_, ?_⟩
  · obtain ⟨hfetch, hresolve⟩ := hagree secrets others hsame "key"
    exact ⟨hfetch, hresolve r [] rfl⟩
  · have hname : IsEntryName "key" := ⟨by rw [Strays]; decide, by decide, by decide, by decide⟩
    refine ((hserved secrets "key").2 r [] _ rfl).mpr
      ⟨"k1\n", ⟨hname, ?_⟩, by decide +kernel, by rfl⟩
    exact ⟨_, hplace, by rfl⟩
  · obtain ⟨why, hwhy⟩ := hrefused "../../etc/passwd" (by rw [Strays]; decide)
    exact ⟨why, (hwhy others).1⟩

end Secret
end Paymaster

import Mathlib.Tactic.SplitIfs
import Paymaster.Proofs.Disk.Paths
/-!
# Files that are written, moved and removed

Where a path leads depends on the directories of the disk alone. Writing, moving and removing files
leaves all directories in place, so afterwards every path leads to where it led before, and what
stands there can be said of the place alone.
-/

namespace Paymaster.Disk

variable {d d' : Disk} {path : String} {place other : List String} {bytes : List UInt8}

/-! ## Entries -/

theorem find?_nil (d : Disk) : d.find? [] = some .directory := rfl

theorem ne_nil_of_not_directory (h : d.find? place ≠ some .directory) : place ≠ [] := by
  rintro rfl
  exact h (find?_nil d)

theorem find?_eq_lookup (h : place ≠ []) : d.find? place = d.entries.lookup place := by
  rw [find?, if_neg (by simpa using h)]

theorem lookup_filter_ne (entries : List (List String × Entry)) (h : other ≠ place) :
    (entries.filter fun x => x.1 != place).lookup other = entries.lookup other := by
  induction entries with
  | nil => rfl
  | cons x rest ih =>
    by_cases hx : x.1 = place
    · have hother : (other == x.1) = false := by
        rw [hx]
        simpa using h
      rw [List.filter_cons_of_neg (by simp [hx]), ih, List.lookup_cons, hother]
    · rw [List.filter_cons_of_pos (by simpa using hx), List.lookup_cons, List.lookup_cons, ih]

theorem lookup_filter_self (entries : List (List String × Entry)) :
    (entries.filter fun x => x.1 != place).lookup place = none := by
  rw [List.lookup_eq_none_iff]
  intro x hx
  simpa [ne_comm] using (List.mem_filter.mp hx).2

theorem find?_put_self (h : place ≠ []) (e : Entry) : (d.put place e).find? place = some e := by
  rw [find?_eq_lookup h, put, List.lookup_cons]
  simp

theorem find?_put_ne (h : other ≠ place) (e : Entry) :
    (d.put place e).find? other = d.find? other := by
  by_cases hnil : other = []
  · rw [hnil, find?_nil, find?_nil]
  · have hbeq : (other == place) = false := by simpa using h
    rw [find?_eq_lookup hnil, find?_eq_lookup hnil, put, List.lookup_cons, hbeq]
    exact lookup_filter_ne d.entries h

theorem find?_erase_self (h : place ≠ []) : (d.erase place).find? place = none := by
  rw [find?_eq_lookup h]
  exact lookup_filter_self d.entries

theorem find?_erase_ne (h : other ≠ place) : (d.erase place).find? other = d.find? other := by
  by_cases hnil : other = []
  · rw [hnil, find?_nil, find?_nil]
  · rw [find?_eq_lookup hnil, find?_eq_lookup hnil]
    exact lookup_filter_ne d.entries h

theorem find?_erase_ne_directory (h : d.find? place ≠ some .directory) :
    (d.erase other).find? place ≠ some .directory := by
  by_cases heq : place = other
  · subst heq
    rw [find?_erase_self (ne_nil_of_not_directory h)]
    simp
  · rwa [find?_erase_ne heq]

theorem put_put (d : Disk) (place : List String) (e e' : Entry) :
    (d.put place e).put place e' = d.put place e' := by
  simp [put, List.filter_filter]

theorem erase_put (h : place ≠ other) (e : Entry) :
    (d.put place e).erase other = (d.erase other).put place e := by
  simp [put, erase, h, List.filter_filter, Bool.and_comm]

/-! ## Paths -/

/-- One disk has all directories of another, and its relative paths start at the same place. -/
structure KeepsDirectories (d d' : Disk) : Prop where
  here : d'.here = d.here
  find : ∀ place, d.find? place = some .directory → d'.find? place = some .directory

theorem KeepsDirectories.trans {d'' : Disk} (h : KeepsDirectories d d')
    (h' : KeepsDirectories d' d'') : KeepsDirectories d d'' :=
  ⟨h'.here.trans h.here, fun place hd => h'.find place (h.find place hd)⟩

theorem keepsDirectories_put (h : d.find? place ≠ some .directory) (e : Entry) :
    KeepsDirectories d (d.put place e) := by
  refine ⟨rfl, ?_⟩
  intro other hother
  rwa [find?_put_ne (by rintro rfl; exact h hother)]

theorem keepsDirectories_erase (h : d.find? place ≠ some .directory) :
    KeepsDirectories d (d.erase place) := by
  refine ⟨rfl, ?_⟩
  intro other hother
  rwa [find?_erase_ne (by rintro rfl; exact h hother)]

theorem KeepsDirectories.walk (h : KeepsDirectories d d') {from_ : List String}
    {names : List String} (hwalk : d.walk from_ names = .ok place) :
    d'.walk from_ names = .ok place := by
  induction names generalizing from_ with
  | nil => exact hwalk
  | cons name rest ih =>
    rw [Disk.walk] at hwalk ⊢
    split at hwalk
    · contradiction
    · contradiction
    · rename_i hdir
      rw [h.find from_ hdir]
      simp only
      split_ifs at hwalk ⊢
      · exact ih hwalk
      · exact ih hwalk
      · exact ih hwalk

/-- A path leads to where it led before. -/
theorem KeepsDirectories.locate (h : KeepsDirectories d d') (hpath : d.locate path = .ok place) :
    d'.locate path = .ok place := by
  rw [Disk.locate] at hpath ⊢
  rw [h.here]
  split_ifs at hpath ⊢
  · exact h.walk hpath
  · exact h.walk hpath

/-! ## Files -/

theorem placeFor_ok (h : d.placeFor path = .ok place) :
    d.locate path = .ok place ∧ d.find? place.dropLast = some .directory := by
  simp only [placeFor, bind, Except.bind] at h
  split at h
  · contradiction
  · rename_i place' hplace
    split at h
    · rename_i hdir
      cases h
      exact ⟨hplace, hdir⟩
    · contradiction
    · contradiction

theorem placeFor_of_locate (hplace : d.locate path = .ok place)
    (hdir : d.find? place.dropLast = some .directory) : d.placeFor path = .ok place := by
  simp [placeFor, hplace, hdir, bind, Except.bind, pure, Except.pure]

theorem readBytes_of_find (hpath : d.locate path = .ok place)
    (hfind : d.find? place = some (.file bytes)) : d.readBytes path = .ok bytes := by
  simp [readBytes, entryAt, hpath, hfind, bind, Except.bind, pure, Except.pure]

theorem entryAt_ok {e : Entry} (h : d.entryAt path = .ok (place, e)) :
    d.locate path = .ok place ∧ d.find? place = some e := by
  simp only [entryAt, bind, Except.bind] at h
  split at h
  · contradiction
  · rename_i place' hplace
    split at h
    · rename_i e' hfind
      cases h
      exact ⟨hplace, hfind⟩
    · contradiction

theorem find_of_readBytes (h : d.readBytes path = .ok bytes) :
    ∃ place, d.locate path = .ok place ∧ d.find? place = some (.file bytes) := by
  simp only [readBytes, bind, Except.bind] at h
  split at h
  · contradiction
  · rename_i entry hentry
    obtain ⟨place, e⟩ := entry
    cases e with
    | directory => contradiction
    | file bytes' =>
      cases h
      exact ⟨place, entryAt_ok hentry⟩

theorem KeepsDirectories.placeFor (h : KeepsDirectories d d') (hplace : d.placeFor path = .ok place) :
    d'.placeFor path = .ok place := by
  obtain ⟨hlocate, hdir⟩ := placeFor_ok hplace
  exact placeFor_of_locate (h.locate hlocate) (h.find _ hdir)

/-- A file is written in a directory, at the place that its path leads to, where no directory
stands. -/
theorem write_eq_ok : d.write path bytes = .ok d' ↔ ∃ place, d.placeFor path = .ok place ∧
    d.find? place ≠ some .directory ∧ (Path.pieces path).getLast? ≠ some "" ∧
      d' = d.put place (.file bytes) := by
  constructor
  · intro h
    simp only [write, bind, Except.bind] at h
    split at h
    · contradiction
    · rename_i place hplace
      refine ⟨place, hplace, ?_⟩
      split at h
      · contradiction
      · rename_i hdir
        split_ifs at h with hslash
        cases h
        exact ⟨hdir, hslash, rfl⟩
  · rintro ⟨place, hplace, hdir, hslash, rfl⟩
    simp only [write, hplace, bind, Except.bind, if_neg hslash]
    rfl

/-- Where one text was written another can be, and the first is lost then. -/
theorem write_write (h : d.write path bytes = .ok d') (bytes' : List UInt8) :
    ∃ d'', d.write path bytes' = .ok d'' ∧ d'.write path bytes' = .ok d'' := by
  obtain ⟨place, hplace, hdir, hslash, rfl⟩ := write_eq_ok.mp h
  have hkeeps := keepsDirectories_put hdir (.file bytes)
  have hdir' : (d.put place (.file bytes)).find? place ≠ some .directory := by
    simp [find?_put_self (ne_nil_of_not_directory hdir)]
  refine ⟨d.put place (.file bytes'), ?_, ?_⟩
  · exact write_eq_ok.mpr ⟨place, hplace, hdir, hslash, rfl⟩
  · refine write_eq_ok.mpr ⟨place, hkeeps.placeFor hplace, hdir', hslash, ?_⟩
    rw [put_put]

/-- A file is written all the same after another one was removed. -/
theorem write_erase (h : d.write path bytes = .ok d') (hfile : d.find? other ≠ some .directory)
    (hne : ∀ place, d.locate path = .ok place → place ≠ other) :
    (d.erase other).write path bytes = .ok (d'.erase other) := by
  obtain ⟨place, hplace, hdir, hslash, rfl⟩ := write_eq_ok.mp h
  have hkeeps := keepsDirectories_erase hfile
  rw [erase_put (hne place (placeFor_ok hplace).1)]
  exact write_eq_ok.mpr
    ⟨place, hkeeps.placeFor hplace, find?_erase_ne_directory hdir, hslash, rfl⟩

/-- A file is moved from where it stands to where the new path leads, where no directory stands. -/
theorem rename_ok {source target : String} (h : d.rename source target = .ok d') :
    ∃ old place bytes, d.locate source = .ok old ∧ d.find? old = some (.file bytes) ∧
      d.placeFor target = .ok place ∧ d.find? place ≠ some .directory ∧
      d' = (d.erase old).put place (.file bytes) := by
  simp only [rename, bind, Except.bind] at h
  split at h
  · cases h
  · rename_i entry hentry
    obtain ⟨old, e⟩ := entry
    cases e with
    | directory => cases h
    | file bytes =>
      obtain ⟨hold, hfile⟩ := entryAt_ok hentry
      simp only at h
      split at h
      · cases h
      · rename_i place hplace
        split at h
        · cases h
        · cases h
        · split_ifs at h with hslash
          rw [Path.withoutTail_eq hslash] at hplace
          refine ⟨old, place, bytes, hold, hfile, hplace, ?_⟩
          split at h
          · cases h
          · rename_i hdir
            cases h
            exact ⟨hdir, rfl⟩

theorem removeFile_eq (d : Disk) (path : String) : d.removeFile path =
    match d.entryAt path with
    | .error why => .error why
    | .ok (_, .directory) => .error .isDirectory
    | .ok (place, .file _) => .ok (d.erase place) := by
  rw [removeFile]
  cases d.entryAt path with
  | error why => rfl
  | ok found =>
    obtain ⟨place, e⟩ := found
    cases e with
    | directory => rfl
    | file bytes => rfl

/-- A file that is removed stood where its path leads. -/
theorem removeFile_ok (h : d.removeFile path = .ok d') : ∃ place bytes,
    d.locate path = .ok place ∧ d.find? place = some (.file bytes) ∧ d' = d.erase place := by
  simp only [removeFile, bind, Except.bind] at h
  split at h
  · contradiction
  · rename_i entry hentry
    obtain ⟨place, e⟩ := entry
    cases e with
    | directory => contradiction
    | file bytes =>
      cases h
      obtain ⟨hplace, hfile⟩ := entryAt_ok hentry
      exact ⟨place, bytes, hplace, hfile, rfl⟩

/-- A file that can be read can be removed. -/
theorem removeFile_of_readBytes (h : d.readBytes path = .ok bytes) :
    ∃ d', d.removeFile path = .ok d' := by
  obtain ⟨place, hplace, hfile⟩ := find_of_readBytes h
  refine ⟨d.erase place, ?_⟩
  simp [removeFile, entryAt, hplace, hfile, bind, Except.bind, pure, Except.pure]

/-! ## What is read afterwards -/

/-- A file that was written is read. -/
theorem readBytes_write (h : d.write path bytes = .ok d') : d'.readBytes path = .ok bytes := by
  obtain ⟨place, hplace, hdir, -, rfl⟩ := write_eq_ok.mp h
  have hkeeps := keepsDirectories_put hdir (.file bytes)
  exact readBytes_of_find (hkeeps.locate (placeFor_ok hplace).1)
    (find?_put_self (ne_nil_of_not_directory hdir) (.file bytes))

/-- A file that was moved is read under its new path. -/
theorem readBytes_rename {source target : String} (hsource : d.readBytes source = .ok bytes)
    (h : d.rename source target = .ok d') : d'.readBytes target = .ok bytes := by
  obtain ⟨old, place, moved, hold, hfile, hplace, hdir, rfl⟩ := rename_ok h
  obtain ⟨place', hplace', hfile'⟩ := find_of_readBytes hsource
  have hmoved : moved = bytes := by
    rw [hold] at hplace'
    cases hplace'
    rw [hfile] at hfile'
    cases hfile'
    rfl
  have herase : KeepsDirectories d (d.erase old) := keepsDirectories_erase (by simp [hfile])
  have hput : (d.erase old).find? place ≠ some .directory := find?_erase_ne_directory hdir
  have hkeeps := herase.trans (keepsDirectories_put hput (.file moved))
  rw [← hmoved]
  exact readBytes_of_find (hkeeps.locate (placeFor_ok hplace).1)
    (find?_put_self (ne_nil_of_not_directory hdir) (.file moved))

/-- Nothing is read where a file was removed. -/
theorem readBytes_removeFile (h : d.removeFile path = .ok d') :
    d'.readBytes path = .error .notFound := by
  obtain ⟨place, bytes, hplace, hfile, rfl⟩ := removeFile_ok h
  have hdir : d.find? place ≠ some .directory := by simp [hfile]
  have hlocate := (keepsDirectories_erase hdir).locate hplace
  simp [readBytes, entryAt, hlocate, find?_erase_self (ne_nil_of_not_directory hdir), bind,
    Except.bind, throw, throwThe, MonadExceptOf.throw]

/-- A file cannot be removed for want of it only if there is nothing to read. -/
theorem readBytes_of_removeFile_notFound (h : d.removeFile path = .error .notFound) :
    d.readBytes path = .error .notFound := by
  simp only [removeFile, bind, Except.bind] at h
  split at h
  · rename_i why hentry
    cases h
    simp [readBytes, hentry, bind, Except.bind]
  · rename_i entry hentry
    obtain ⟨place, e⟩ := entry
    cases e with
    | directory => cases h
    | file bytes => cases h

end Paymaster.Disk

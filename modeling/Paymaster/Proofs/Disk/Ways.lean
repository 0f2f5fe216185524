import Paymaster.Proofs.Disk.Files
/-!
# The way to a file

A path is followed from name to name. Where directories on the way are missing, making them can
change what the path leads to only if it goes up again behind the first of them or holds a name that
is too long; a file written beside another one leaves the other as it is.
-/

namespace Paymaster.Disk

open Paymaster.Path (isStep names pieces isAbsolute)

variable {d d' : Disk} {path : String} {origin place other : List String} {bytes : List UInt8}
  {name piece : String} {dirs rest tail : List String}

/-! ## Walks -/

/-- Where a path starts. -/
def startOf (d : Disk) (path : String) : List String := if isAbsolute path then [] else d.here

theorem locate_eq (hzero : '\x00' ∉ path.toList) (hne : path ≠ "") :
    d.locate path = d.walk (d.startOf path) (pieces path) := by
  rw [locate, if_neg (by simpa using hzero), if_neg (by simpa using hne), startOf]

theorem locate_ok (h : d.locate path = .ok place) :
    '\x00' ∉ path.toList ∧ path ≠ "" ∧ d.walk (d.startOf path) (pieces path) = .ok place := by
  rw [locate] at h
  split_ifs at h with hzero hempty
  · exact ⟨by simpa using hzero, by simpa using hempty, by rwa [startOf, if_pos ‹_›]⟩
  · exact ⟨by simpa using hzero, by simpa using hempty, by rwa [startOf, if_neg ‹_›]⟩

theorem walk_missing (h : d.find? place = none) : d.walk place (name :: rest) = .error .notFound := by
  rw [walk, h]

theorem walk_file (h : d.find? place = some (.file bytes)) :
    d.walk place (name :: rest) = .error .notDirectory := by
  rw [walk, h]

theorem walk_blank (h : d.find? place = some .directory) (hpiece : isStep piece = false) :
    d.walk place (piece :: rest) = d.walk place rest := by
  have hblank : piece = "" ∨ piece = "." := by
    by_contra hnot
    rw [Path.isStep_iff.mpr (not_or.mp hnot)] at hpiece
    cases hpiece
  rw [walk, h]
  simp only
  rw [if_pos hblank]

theorem walk_down (h : d.find? place = some .directory) (hstep : isStep name = true)
    (hdots : name ≠ "..") (hsize : name.utf8ByteSize ≤ maxName) :
    d.walk place (name :: rest) = d.walk (place ++ [name]) rest := by
  have hname : ¬(name = "" ∨ name = ".") := not_or.mpr (Path.isStep_iff.mp hstep)
  rw [walk, h]
  simp only
  rw [if_neg hname, if_neg hdots, if_neg (by omega)]

theorem walk_long (h : d.find? place = some .directory) (hstep : isStep name = true)
    (hdots : name ≠ "..") (hsize : maxName < name.utf8ByteSize) :
    d.walk place (name :: rest) = .error .nameTooLong := by
  have hname : ¬(name = "" ∨ name = ".") := not_or.mpr (Path.isStep_iff.mp hstep)
  rw [walk, h]
  simp only
  rw [if_neg hname, if_neg hdots, if_pos hsize]

/-- A walk goes on only from a directory. -/
theorem directory_of_walk (h : d.walk origin (name :: rest) = .ok place) :
    d.find? origin = some .directory := by
  cases hfind : d.find? origin with
  | none => rw [walk_missing hfind] at h; contradiction
  | some e =>
    cases e with
    | directory => rfl
    | file bytes => rw [walk_file hfind] at h; contradiction

theorem walk_append (front rest : List String) :
    d.walk origin (front ++ rest) = d.walk origin front >>= fun place => d.walk place rest := by
  induction front generalizing origin with
  | nil => rfl
  | cons name front ih =>
    rw [List.cons_append, walk, walk]
    cases d.find? origin with
    | none => rfl
    | some e =>
      cases e with
      | file bytes => rfl
      | directory =>
        simp only
        split_ifs
        · exact ih
        · exact ih
        · rfl
        · exact ih

theorem walk_append_of_ok {front : List String} (h : d.walk origin front = .ok place) :
    d.walk origin (front ++ rest) = d.walk place rest := by
  rw [walk_append, h]
  rfl

theorem exists_of_walk_append {front : List String} (h : d.walk origin (front ++ rest) = .ok place) :
    ∃ middle, d.walk origin front = .ok middle ∧ d.walk middle rest = .ok place := by
  rw [walk_append] at h
  cases hfront : d.walk origin front with
  | error why => rw [hfront] at h; cases h
  | ok middle =>
    rw [hfront] at h
    exact ⟨middle, rfl, h⟩

/-- Pieces that lead nowhere are left out of a walk that arrives. -/
theorem walk_filter (h : d.walk origin rest = .ok place) :
    d.walk origin (rest.filter isStep) = .ok place := by
  induction rest generalizing origin with
  | nil => exact h
  | cons piece rest ih =>
    have hdir := directory_of_walk h
    cases hpiece : isStep piece with
    | false =>
      rw [List.filter_cons_of_neg (by simp [hpiece])]
      rw [walk_blank hdir hpiece] at h
      exact ih h
    | true =>
      rw [List.filter_cons_of_pos hpiece]
      rw [walk, hdir] at h ⊢
      simp only at h ⊢
      split_ifs at h ⊢
      · exact ih h
      · exact ih h
      · exact ih h

/-- Pieces that lead nowhere may stand on the way to a directory. -/
theorem walk_of_filter (h : d.walk origin (rest.filter isStep) = .ok place)
    (hdir : d.find? place = some .directory) : d.walk origin rest = .ok place := by
  induction rest generalizing origin with
  | nil => exact h
  | cons piece rest ih =>
    cases hpiece : isStep piece with
    | false =>
      rw [List.filter_cons_of_neg (by simp [hpiece])] at h
      have horigin : d.find? origin = some .directory := by
        cases hrest : rest.filter isStep with
        | nil =>
          rw [hrest] at h
          cases h
          exact hdir
        | cons name more => exact directory_of_walk (hrest ▸ h)
      rw [walk_blank horigin hpiece]
      exact ih h
    | true =>
      rw [List.filter_cons_of_pos hpiece] at h
      have horigin := directory_of_walk h
      rw [walk, horigin] at h ⊢
      simp only at h ⊢
      split_ifs at h ⊢
      · exact ih h
      · exact ih h
      · exact ih h

/-- Pieces that lead nowhere make no difference before a name. -/
theorem walk_filter_append :
    d.walk origin (dirs ++ name :: rest) = d.walk origin (dirs.filter isStep ++ name :: rest) := by
  induction dirs generalizing origin with
  | nil => rfl
  | cons piece dirs ih =>
    cases hpiece : isStep piece with
    | true =>
      rw [List.filter_cons_of_pos hpiece, List.cons_append, List.cons_append, walk, walk]
      simp only [ih]
    | false =>
      rw [List.filter_cons_of_neg (by simp [hpiece]), ← ih]
      cases hfind : d.find? origin with
      | some e =>
        cases e with
        | directory => exact walk_blank hfind hpiece
        | file bytes =>
          cases dirs with
          | nil => exact (walk_file hfind).trans (walk_file hfind).symm
          | cons _ _ => exact (walk_file hfind).trans (walk_file hfind).symm
      | none =>
        cases dirs with
        | nil => exact (walk_missing hfind).trans (walk_missing hfind).symm
        | cons _ _ => exact (walk_missing hfind).trans (walk_missing hfind).symm

/-! ## Disks on which everything stands in a directory -/

/-- Every entry stands in a directory; so it is on a disk that was empty once. -/
def Rooted (d : Disk) : Prop := ∀ x ∈ d.entries, d.find? x.1.dropLast = some .directory

instance (d : Disk) : Decidable d.Rooted :=
  inferInstanceAs (Decidable (∀ x ∈ d.entries, d.find? x.1.dropLast = some .directory))

theorem rooted_empty : empty.Rooted := by
  simp [Rooted, empty]

theorem Rooted.parent {e : Entry} (hd : d.Rooted) (h : d.find? place = some e) :
    d.find? place.dropLast = some .directory := by
  by_cases hnil : place = []
  · subst hnil
    rfl
  · rw [find?_eq_lookup hnil] at h
    obtain ⟨front, back, hentries, -⟩ := List.lookup_eq_some_iff.mp h
    exact hd (place, e) (by simp [hentries])

/-- Nothing stands below a place that holds nothing. -/
theorem Rooted.find?_below (hd : d.Rooted) (h : d.find? place = none) (name : String) :
    d.find? (place ++ [name]) = none := by
  cases hfind : d.find? (place ++ [name]) with
  | none => rfl
  | some e =>
    have hparent := hd.parent hfind
    rw [List.dropLast_concat, h] at hparent
    contradiction

theorem Rooted.put {e : Entry} (hd : d.Rooted) (hdir : d.find? place.dropLast = some .directory)
    (h : d.find? place ≠ some .directory) : (d.put place e).Rooted := by
  have hkeeps := keepsDirectories_put h e
  intro x hx
  rcases List.mem_cons.mp hx with rfl | hx
  · exact hkeeps.find _ hdir
  · exact hkeeps.find _ (hd x ((List.mem_filter.mp hx).1))

theorem Rooted.erase (hd : d.Rooted) (h : d.find? place ≠ some .directory) :
    (d.erase place).Rooted := by
  intro x hx
  exact (keepsDirectories_erase h).find _ (hd x ((List.mem_filter.mp hx).1))

theorem Rooted.write (hd : d.Rooted) (h : d.write path bytes = .ok d') : d'.Rooted := by
  obtain ⟨place, hplace, hnot, -, rfl⟩ := write_eq_ok.mp h
  exact hd.put (placeFor_ok hplace).2 hnot

theorem Rooted.rename {source target : String} (hd : d.Rooted)
    (h : d.rename source target = .ok d') : d'.Rooted := by
  obtain ⟨old, place, moved, -, hfile, hplace, hnot, rfl⟩ := rename_ok h
  have hold : d.find? old ≠ some .directory := by simp [hfile]
  have hput : (d.erase old).find? place ≠ some .directory := find?_erase_ne_directory hnot
  exact (hd.erase hold).put ((keepsDirectories_erase hold).find _ (placeFor_ok hplace).2) hput

theorem Rooted.removeFile (hd : d.Rooted) (h : d.removeFile path = .ok d') : d'.Rooted := by
  obtain ⟨place, removed, -, hfile, rfl⟩ := removeFile_ok h
  exact hd.erase (by simp [hfile])

/-- A directory that is removed is empty, so nothing is left without one. -/
theorem Rooted.removeDirectory (hd : d.Rooted) (h : d.removeDirectory path = .ok d') :
    d'.Rooted := by
  simp only [Disk.removeDirectory, bind, Except.bind] at h
  split at h
  · contradiction
  · rename_i entry hentry
    obtain ⟨place, e⟩ := entry
    cases e with
    | file removed => contradiction
    | directory =>
      simp only at h
      split_ifs at h with hroot hempty
      cases h
      intro x hx
      have hx' := (List.mem_filter.mp hx).1
      have hparent : x.1.dropLast ≠ place := by
        simpa using List.all_eq_true.mp hempty x hx'
      rw [find?_erase_ne hparent]
      exact hd x hx'

/-- A directory is made in another one, at a place that holds nothing. -/
theorem makeDirectory_ok (h : d.makeDirectory path = .ok d') : ∃ place,
    d.placeFor (Path.withoutTail path) = .ok place ∧ d.find? place = none ∧
      d' = d.put place .directory := by
  simp only [makeDirectory, bind, Except.bind] at h
  split at h
  · contradiction
  · rename_i place hplace
    split at h
    · contradiction
    · rename_i hnone
      cases h
      exact ⟨place, hplace, hnone, rfl⟩

theorem Rooted.makeDirectory (hd : d.Rooted) (h : d.makeDirectory path = .ok d') : d'.Rooted := by
  obtain ⟨place, hplace, hnone, rfl⟩ := makeDirectory_ok h
  exact hd.put (placeFor_ok hplace).2 (by simp [hnone])

/-! ## Directories made on the way -/

/-- Behind a directory that is missing on the way, all names of a path go further down, and none of
them is too long. -/
def GoesDown (d : Disk) (path : String) : Prop :=
  ∀ front rest place, names path = front ++ rest → d.walk (d.startOf path) front = .ok place →
    d.find? place = none → ∀ name ∈ rest, name ≠ ".." ∧ name.utf8ByteSize ≤ maxName

theorem goesDown_of_names (h : ∀ name ∈ names path, name ≠ ".." ∧ name.utf8ByteSize ≤ maxName) :
    d.GoesDown path := by
  intro front rest place hnames _ _ name hname
  exact h name (hnames ▸ List.mem_append_right front hname)

/-- A path goes down if all directories on its way are there. -/
theorem goesDown_of_directory (hstep : isStep name = true)
    (htail : ∀ piece ∈ tail, isStep piece = false) (hpieces : pieces path = dirs ++ name :: tail)
    (hwalk : d.walk (d.startOf path) dirs = .ok place) (hdir : d.find? place = some .directory) :
    d.GoesDown path := by
  intro front rest stop hnames hfront hnone
  rw [Path.names_of_pieces hstep htail hpieces] at hnames
  have hwalk' := walk_filter hwalk
  rcases List.append_eq_append_iff.mp hnames.symm with ⟨more, hmore, hrest⟩ | ⟨more, hmore, hrest⟩
  · -- the walk stops before the last name, where it goes on in truth
    rw [hmore, walk_append_of_ok hfront] at hwalk'
    cases more with
    | nil =>
      cases hwalk'
      rw [hnone] at hdir
      contradiction
    | cons first more =>
      rw [walk_missing hnone] at hwalk'
      contradiction
  · -- the walk stops at the file or behind it
    cases more with
    | nil =>
      rw [List.append_nil] at hmore
      rw [← hmore, hfront] at hwalk'
      cases hwalk'
      rw [hnone] at hdir
      contradiction
    | cons first more =>
      have hrest' : rest = [] := by
        have hlength := congrArg List.length hrest
        simp only [List.length_append, List.length_cons, List.length_nil] at hlength
        exact List.eq_nil_of_length_eq_zero (by omega)
      rw [hrest']
      intro last hlast
      cases hlast

/-- One disk comes from another by making directories above a path. -/
inductive PavesTo (path : String) (d : Disk) : Disk → Prop
  | refl : PavesTo path d d
  | make {d' d'' : Disk} {dir : String} (h : PavesTo path d d') (hdir : Path.Above dir path)
      (hmake : d'.makeDirectory dir = .ok d'') : PavesTo path d d''

/-- A directory above a path is made where the walk along the path stops. -/
theorem makeDirectory_above {dir : String} (hdir : Path.Above dir path)
    (h : d.makeDirectory dir = .ok d') : ∃ place,
      d.walk (d.startOf path) (names dir) = .ok place ∧ d.find? place = none ∧
        d.find? place.dropLast = some .directory ∧ d' = d.put place .directory := by
  obtain ⟨place, hplace, hnone, rfl⟩ := makeDirectory_ok h
  obtain ⟨hlocate, hparent⟩ := placeFor_ok hplace
  rw [hdir.withoutTail_eq] at hlocate
  obtain ⟨-, -, hwalk⟩ := locate_ok hlocate
  have hstart : d.startOf path = d.startOf dir := by
    rw [startOf, startOf, hdir.names_prefix.2]
  exact ⟨place, hstart ▸ walk_filter hwalk, hnone, hparent, rfl⟩

theorem entryAt_of_error {why : OsError} (h : d.locate path = .error why) :
    d.entryAt path = .error why := by
  simp [entryAt, h, bind, Except.bind]

theorem entryAt_of_find (hplace : d.locate path = .ok place) :
    d.entryAt path = match d.find? place with
      | some e => .ok (place, e)
      | none => .error .notFound := by
  simp only [entryAt, hplace, bind, Except.bind]
  cases d.find? place with
  | none => rfl
  | some e => rfl

theorem entryAt_of_zero (hzero : '\x00' ∈ path.toList) : d.entryAt path = .error .zeroInName :=
  entryAt_of_error (by rw [locate, if_pos (by simpa using hzero)])

/-- Nothing is found behind a place that holds nothing. -/
theorem entryAt_of_missing {front : List String} (hzero : '\x00' ∉ path.toList) (hne : path ≠ "")
    (hpieces : d.walk (d.startOf path) (pieces path) = d.walk (d.startOf path) (front ++ rest))
    (hwalk : d.walk (d.startOf path) front = .ok place) (hnone : d.find? place = none) :
    d.entryAt path = .error .notFound := by
  rw [walk_append_of_ok hwalk] at hpieces
  cases rest with
  | nil => rw [entryAt_of_find ((locate_eq hzero hne).trans hpieces), hnone]
  | cons name rest =>
    rw [walk_missing hnone] at hpieces
    exact entryAt_of_error ((locate_eq hzero hne).trans hpieces)

section Making

variable {dir : String}

/-- Behind a directory above a file there is one more name at least. -/
theorem exists_behind (hname : Path.fileName? path = some name) (hdir : Path.Above dir path) :
    ∃ next rest tail, names path = names dir ++ next :: rest ∧ ∀ d : Disk,
      d.walk (d.startOf path) (pieces path) =
        d.walk (d.startOf path) (names dir ++ next :: (rest ++ tail)) := by
  obtain ⟨hstep, -, dirs, tail, hpieces, htail⟩ := Path.exists_of_fileName hname
  have hnames := Path.names_of_pieces hstep htail hpieces
  obtain ⟨more, hmore⟩ : names dir <+: dirs.filter isStep := by
    have hprefix := hdir.names_prefix.1
    rwa [hnames, List.dropLast_concat] at hprefix
  obtain ⟨next, rest, hnext⟩ : ∃ next rest, more ++ [name] = next :: rest :=
    List.exists_cons_of_ne_nil (by simp)
  refine ⟨next, rest, tail, ?_, ?_⟩
  · rw [hnames, ← hmore, List.append_assoc, hnext]
  · intro d
    have hbehind : dirs.filter isStep ++ name :: tail = names dir ++ next :: (rest ++ tail) := by
      rw [← hmore, List.append_assoc, ← List.cons_append, ← hnext]
      simp
    rw [hpieces, walk_filter_append, hbehind]

/-- A directory that is made above a file is no way to the file yet. -/
theorem GoesDown.entryAt (hdown : d.GoesDown path) (hd : d.Rooted)
    (hname : Path.fileName? path = some name) (hdir : Path.Above dir path)
    (h : d.makeDirectory dir = .ok d') : d'.entryAt path = d.entryAt path := by
  by_cases hzero : '\x00' ∈ path.toList
  · rw [entryAt_of_zero hzero, entryAt_of_zero hzero]
  have hne : path ≠ "" := by
    rintro rfl
    cases hname
  obtain ⟨place, hwalk, hnone, -, rfl⟩ := makeDirectory_above hdir h
  obtain ⟨next, rest, tail, hnames, hwalks⟩ := exists_behind hname hdir
  obtain ⟨hdots, hsize⟩ :=
    hdown (names dir) (next :: rest) place hnames hwalk hnone next List.mem_cons_self
  have hstep : isStep next = true := by
    have hmem : next ∈ names path := by simp [hnames]
    exact (List.mem_filter.mp hmem).2
  have hnot : d.find? place ≠ some .directory := by simp [hnone]
  have hmade : (d.put place .directory).find? place = some .directory :=
    find?_put_self (ne_nil_of_not_directory hnot) .directory
  -- the walk goes one name further now, to a place at which nothing can stand yet
  have hwalk' : (d.put place .directory).walk (d.startOf path) (names dir ++ [next]) =
      .ok (place ++ [next]) := by
    have hkeeps := (keepsDirectories_put hnot .directory).walk hwalk
    rw [walk_append_of_ok hkeeps, walk_down hmade hstep hdots hsize]
    rfl
  have hnone' : (d.put place .directory).find? (place ++ [next]) = none := by
    rw [find?_put_ne (by simp)]
    exact hd.find?_below hnone next
  have hwalks' := hwalks (d.put place .directory)
  rw [← List.singleton_append, ← List.append_assoc] at hwalks'
  rw [entryAt_of_missing hzero hne (hwalks d) hwalk hnone]
  exact entryAt_of_missing hzero hne hwalks' hwalk' hnone'

theorem GoesDown.makeDirectory (hdown : d.GoesDown path) (hdir : Path.Above dir path)
    (h : d.makeDirectory dir = .ok d') : d'.GoesDown path := by
  obtain ⟨place, hwalk, hnone, -, rfl⟩ := makeDirectory_above hdir h
  have hnot : d.find? place ≠ some .directory := by simp [hnone]
  have hkeeps := keepsDirectories_put hnot .directory
  intro front rest stop hnames hfront hstop
  obtain ⟨more, hmore⟩ := hdir.names_prefix.1.trans (List.dropLast_prefix _)
  rcases List.append_eq_append_iff.mp (hmore.trans hnames) with ⟨behind, rfl, hbehind⟩ |
      ⟨before, hbefore, -⟩
  · -- the walk stops behind the directory that was made
    intro last hlast
    refine hdown (names dir) more place hmore.symm hwalk hnone last ?_
    rw [hbehind]
    exact List.mem_append_right behind hlast
  · -- the walk does not stop before it, and what it leads to is there now
    exfalso
    rw [hbefore] at hwalk
    obtain ⟨middle, hmiddle, hlast⟩ := exists_of_walk_append hwalk
    have heq : middle = stop := by
      have hfront' := hkeeps.walk hmiddle
      rw [show d.startOf path = (d.put place .directory).startOf path from rfl, hfront] at hfront'
      exact (Except.ok.inj hfront').symm
    subst heq
    cases before with
    | nil =>
      cases hlast
      rw [find?_put_self (ne_nil_of_not_directory hnot)] at hstop
      contradiction
    | cons first before =>
      rw [hkeeps.find _ (directory_of_walk hlast)] at hstop
      contradiction

/-- However many directories are made above a file, it is as before. -/
theorem PavesTo.keeps (h : PavesTo path d d') (hname : Path.fileName? path = some name)
    (hd : d.Rooted) (hdown : d.GoesDown path) :
    d'.entryAt path = d.entryAt path ∧ d'.Rooted ∧ d'.GoesDown path := by
  induction h with
  | refl => exact ⟨rfl, hd, hdown⟩
  | make _ hdir hmake ih =>
    obtain ⟨hentry, hrooted, hdown⟩ := ih
    refine ⟨?_, hrooted.makeDirectory hmake, hdown.makeDirectory hdir hmake⟩
    rw [hdown.entryAt hrooted hname hdir hmake, hentry]

/-- Whether it succeeds or not, paving the way to a directory above a path makes nothing but
directories above the path. -/
theorem paveTo_paves (depth : Nat) (hdir : Path.Above dir path) :
    PavesTo path d (d.paveTo depth dir).2 := by
  induction depth generalizing d dir with
  | zero => exact .refl
  | succ depth ih =>
    rw [paveTo]
    by_cases hempty : dir.isEmpty = true
    · rw [if_pos hempty]
      exact .refl
    rw [if_neg hempty]
    split
    · rename_i hmake
      exact .make .refl hdir hmake
    · split
      · exact .refl
      · rename_i up hup
        have habove : PavesTo path d (d.paveTo depth up).2 := ih (.tail hdir hup)
        split
        · rename_i hpave
          rwa [hpave] at habove
        · rename_i hpave
          rw [hpave] at habove
          split
          · rename_i hmake
            exact .make habove hdir hmake
          · exact habove
    · exact .refl

/-- Nothing is made where the directory is there. -/
theorem pave_of_directory (hd : d.Rooted) (htail : Path.withoutTail dir = dir)
    (hplace : d.locate dir = .ok place) (hdir : d.find? place = some .directory) :
    d.pave dir = (.ok (), d) := by
  have hmake : d.makeDirectory dir = .error .exists := by
    simp [Disk.makeDirectory, htail, placeFor_of_locate hplace (hd.parent hdir), hdir, bind,
      Except.bind, throw, throwThe, MonadExceptOf.throw]
  have hthere : d.isDirectory dir = true := by
    rw [isDirectory, entryAt_of_find hplace, hdir]
  rw [pave, paveTo, hmake]
  by_cases hempty : dir.isEmpty = true
  · rw [if_pos hempty]
  · rw [if_neg hempty]
    simp only [hthere, if_true]

end Making

/-! ## Two files of one directory -/

theorem walk_blanks (htail : ∀ piece ∈ tail, isStep piece = false)
    (hfind : d'.find? place = d.find? place) : d'.walk place tail = d.walk place tail := by
  induction tail with
  | nil => rfl
  | cons piece tail ih =>
    cases hplace : d.find? place with
    | none => rw [walk_missing hplace, walk_missing (hfind.trans hplace)]
    | some e =>
      cases e with
      | file bytes => rw [walk_file hplace, walk_file (hfind.trans hplace)]
      | directory =>
        have hpiece := htail piece List.mem_cons_self
        rw [walk_blank hplace hpiece, walk_blank (hfind.trans hplace) hpiece]
        exact ih fun p hp => htail p (List.mem_cons_of_mem piece hp)

theorem walk_blanks_ok (htail : ∀ piece ∈ tail, isStep piece = false)
    (h : d.walk place tail = .ok other) : other = place := by
  have hnone : tail.filter isStep = [] :=
    List.filter_eq_nil_iff.mpr fun piece hpiece => by simp [htail piece hpiece]
  have hfilter := walk_filter h
  rw [hnone] at hfilter
  exact (Except.ok.inj hfilter).symm

/-- What is found under a name of a directory is decided by what stands there. -/
theorem entryAt_congr (hpieces : pieces path = dirs ++ name :: tail) (hstep : isStep name = true)
    (hdots : name ≠ "..") (htail : ∀ piece ∈ tail, isStep piece = false) (hhere : d'.here = d.here)
    (hwalk : d.walk (d.startOf path) dirs = .ok place)
    (hwalk' : d'.walk (d.startOf path) dirs = .ok place)
    (hdir : d.find? place = some .directory) (hdir' : d'.find? place = some .directory)
    (hfind : d'.find? (place ++ [name]) = d.find? (place ++ [name])) :
    d'.entryAt path = d.entryAt path := by
  by_cases hzero : '\x00' ∈ path.toList
  · rw [entryAt_of_zero hzero, entryAt_of_zero hzero]
  have hne : path ≠ "" := by
    rintro rfl
    have hlast := congrArg (·.filter isStep) hpieces
    rw [Path.filter_pieces hstep htail] at hlast
    exact absurd hlast (by simp [pieces, Text.splitOn, isStep])
  have hstart : d'.startOf path = d.startOf path := by rw [startOf, startOf, hhere]
  have hlocate : d.locate path = d.walk place (name :: tail) := by
    rw [locate_eq hzero hne, hpieces, walk_append_of_ok hwalk]
  have hlocate' : d'.locate path = d'.walk place (name :: tail) := by
    rw [locate_eq hzero hne, hstart, hpieces, walk_append_of_ok hwalk']
  by_cases hsize : name.utf8ByteSize ≤ maxName
  · rw [walk_down hdir hstep hdots hsize] at hlocate
    rw [walk_down hdir' hstep hdots hsize, walk_blanks htail hfind] at hlocate'
    cases hstop : d.walk (place ++ [name]) tail with
    | error why =>
      rw [entryAt_of_error (hlocate.trans hstop), entryAt_of_error (hlocate'.trans hstop)]
    | ok stop =>
      rw [entryAt_of_find (hlocate.trans hstop), entryAt_of_find (hlocate'.trans hstop),
        walk_blanks_ok htail hstop, hfind]
  · rw [walk_long hdir hstep hdots (by omega)] at hlocate
    rw [walk_long hdir' hstep hdots (by omega)] at hlocate'
    rw [entryAt_of_error hlocate, entryAt_of_error hlocate']

/-- The place of a file is its name in the directory that the pieces before the name lead to. -/
theorem exists_dir_of_locate (hpieces : pieces path = dirs ++ name :: tail)
    (hstep : isStep name = true) (hdots : name ≠ "..") (htail : ∀ piece ∈ tail, isStep piece = false)
    (h : d.locate path = .ok other) : ∃ place, '\x00' ∉ path.toList ∧
      d.walk (d.startOf path) dirs = .ok place ∧ d.find? place = some .directory ∧
        other = place ++ [name] := by
  obtain ⟨hzero, -, hwalk⟩ := locate_ok h
  rw [hpieces] at hwalk
  obtain ⟨place, hdirs, hlast⟩ := exists_of_walk_append hwalk
  have hdir := directory_of_walk hlast
  refine ⟨place, hzero, hdirs, hdir, ?_⟩
  by_cases hsize : name.utf8ByteSize ≤ maxName
  · rw [walk_down hdir hstep hdots hsize] at hlast
    exact walk_blanks_ok htail hlast
  · rw [walk_long hdir hstep hdots (by omega)] at hlast
    contradiction

end Paymaster.Disk

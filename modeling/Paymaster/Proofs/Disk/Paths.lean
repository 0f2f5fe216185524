import Mathlib.Data.List.TakeWhile
import Mathlib.Logic.Relation
import Paymaster.Disk
/-!
# Steps of a path

A path is a text of pieces between slashes. Only some of the pieces name a step; the names are what
decides where a path leads, and they are told here for the directory of a path and for a path with
another ending.
-/

namespace Paymaster.Path

variable {path dir name : String} {dirs tail : List String}

/-- The pieces of a path that name a step. -/
def names (path : String) : List String := (pieces path).filter isStep

theorem isStep_iff : isStep name = true ↔ name ≠ "" ∧ name ≠ "." := by
  simp [isStep]

theorem slash_not_mem {piece : String} (h : piece ∈ pieces path) : '/' ∉ piece.toList := by
  obtain ⟨part, hpart, rfl⟩ := List.mem_map.mp h
  rw [String.toList_ofList]
  exact Text.not_mem_of_mem_splitOn hpart

theorem mem_of_mem_pieces {c : Char} {piece : String} (h : piece ∈ pieces path)
    (hc : c ∈ piece.toList) : c ∈ path.toList := by
  obtain ⟨part, hpart, rfl⟩ := List.mem_map.mp h
  rw [String.toList_ofList] at hc
  exact Text.mem_of_mem_splitOn hpart hc

theorem pieces_ne_nil (path : String) : pieces path ≠ [] := by
  simp [pieces, Text.splitOn_ne_nil]

theorem pieces_intercalate {parts : List String} (hne : parts ≠ [])
    (h : ∀ part ∈ parts, '/' ∉ part.toList) : pieces ("/".intercalate parts) = parts := by
  have hsplit : Text.splitOn '/' (['/'].intercalate (parts.map String.toList)) =
      parts.map String.toList := by
    refine Text.splitOn_intercalate (by simpa using hne) ?_
    intro part hpart
    obtain ⟨s, hs, rfl⟩ := List.mem_map.mp hpart
    exact h s hs
  rw [pieces, String.toList_intercalate]
  show (Text.splitOn '/' (['/'].intercalate (parts.map String.toList))).map String.ofList = parts
  rw [hsplit, List.map_map]
  simp

theorem pieces_slash (s : String) : pieces ("/" ++ s) = "" :: pieces s := by
  simp [pieces, Text.splitOn]

/-- A path starts at the root if a slash stands before its first step. -/
theorem isAbsolute_iff : isAbsolute path = true ↔ ∃ rest, rest ≠ [] ∧ pieces path = "" :: rest := by
  have hlist : path = String.ofList path.toList := String.ofList_toList.symm
  rw [isAbsolute, pieces]
  cases path.toList with
  | nil => simp [Text.splitOn]
  | cons c rest =>
    by_cases hc : c = '/'
    · subst hc
      simp [Text.splitOn, Text.splitOn_ne_nil]
    · cases hrest : Text.splitOn '/' rest with
      | nil => exact absurd hrest (Text.splitOn_ne_nil _ _)
      | cons part more => simp [Text.splitOn, hc, hrest]

/-- A path that does not end in a slash is what is left without the slashes at its end. -/
theorem withoutTail_eq (h : (pieces path).getLast? ≠ some "") : withoutTail path = path := by
  have hlast : ∀ c, path.toList.getLast? = some c → c ≠ '/' := by
    rintro c hc rfl
    obtain ⟨front, hfront⟩ := List.getLast?_eq_some_iff.mp hc
    apply h
    rw [pieces, hfront, Text.splitOn_concat]
    simp
  have hback : path.toList.reverse.dropWhile (· == '/') = path.toList.reverse := by
    cases hback : path.toList.reverse with
    | nil => rfl
    | cons c back =>
      have hc : c ≠ '/' := hlast c (by rw [← List.head?_reverse, hback]; rfl)
      rw [List.dropWhile_cons_of_neg (by simpa using hc)]
  rw [withoutTail, hback]
  split
  · rename_i hnil
    have hempty : path.toList = [] := by simpa using hnil
    refine absurd ?_ h
    simp [pieces, hempty, Text.splitOn]
  · rw [List.reverse_reverse, String.ofList_toList]

/-! ## The directory of a path -/

theorem steps_eq (path : String) : steps path = names path ∨ steps path = "." :: names path := by
  rw [steps]
  split
  · rename_i rest hpieces
    right
    rw [names, hpieces]
    rfl
  · exact .inl rfl

theorem mem_steps {step : String} (h : step ∈ steps path) : step ∈ pieces path ∧ step ≠ "" := by
  rw [steps] at h
  split at h
  · rename_i rest hpieces
    rw [hpieces]
    rcases List.mem_cons.mp h with rfl | h
    · exact ⟨List.mem_cons_self, by decide⟩
    · obtain ⟨hmem, hstep⟩ := List.mem_filter.mp h
      exact ⟨List.mem_cons_of_mem _ hmem, by simp_all⟩
  · obtain ⟨hmem, hstep⟩ := List.mem_filter.mp h
    exact ⟨hmem, by simp_all⟩

section OfSteps

variable {absolute : Bool} {all : List String}

theorem names_ofSteps (h : ∀ step ∈ all, '/' ∉ step.toList) :
    names (ofSteps absolute all) = all.filter isStep := by
  have hjoined : names ("/".intercalate all) = all.filter isStep := by
    cases all with
    | nil => rfl
    | cons step rest => rw [names, pieces_intercalate (List.cons_ne_nil _ _) h]
  cases absolute with
  | false => simpa [ofSteps] using hjoined
  | true =>
    rw [ofSteps, if_pos rfl, names, pieces_slash, List.filter_cons_of_neg (by decide)]
    exact hjoined

theorem isAbsolute_ofSteps (h : ∀ step ∈ all, '/' ∉ step.toList ∧ step ≠ "") :
    isAbsolute (ofSteps absolute all) = absolute := by
  cases absolute with
  | true =>
    rw [ofSteps, if_pos rfl, isAbsolute_iff]
    exact ⟨_, pieces_ne_nil _, pieces_slash _⟩
  | false =>
    have hne : ¬isAbsolute ("/".intercalate all) = true := by
      rw [isAbsolute_iff]
      rintro ⟨rest, hne, hpieces⟩
      cases all with
      | nil => exact hne (List.cons.inj hpieces).2.symm
      | cons step more =>
        rw [pieces_intercalate (List.cons_ne_nil _ _) fun s hs => (h s hs).1] at hpieces
        exact (h step List.mem_cons_self).2 (List.cons.inj hpieces).1
    simpa [ofSteps] using hne

end OfSteps

theorem eq_ofSteps_of_parent (h : parent? path = some dir) :
    dir = ofSteps (isAbsolute path) (steps path).dropLast := by
  rw [parent?] at h
  split at h
  · cases h
  · exact (Option.some.inj h).symm

theorem plain_of_mem_dropLast {step : String} (h : step ∈ (steps path).dropLast) :
    '/' ∉ step.toList ∧ step ≠ "" := by
  obtain ⟨hpiece, hne⟩ := mem_steps (List.dropLast_subset _ h)
  exact ⟨slash_not_mem hpiece, hne⟩

/-- The directory of a path has all names of the path but the last. -/
theorem parent_eq (h : parent? path = some dir) :
    names dir = (names path).dropLast ∧ isAbsolute dir = isAbsolute path := by
  have hsteps : ∀ step ∈ (steps path).dropLast, '/' ∉ step.toList ∧ step ≠ "" :=
    fun step hstep => plain_of_mem_dropLast hstep
  have hnames : ((steps path).dropLast).filter isStep = (names path).dropLast := by
    have hkeep : ∀ l : List String, (∀ s ∈ l, isStep s = true) → l.filter isStep = l :=
      fun l hl => List.filter_eq_self.mpr hl
    have hall : ∀ s ∈ (names path).dropLast, isStep s = true := fun s hs =>
      (List.mem_filter.mp (List.dropLast_subset _ hs)).2
    rcases steps_eq path with heq | heq
    · rw [heq, hkeep _ hall]
    · rw [heq]
      cases hn : names path with
      | nil => rfl
      | cons first rest =>
        rw [List.dropLast_cons_cons, List.filter_cons_of_neg (by decide), ← hn, hkeep _ hall]
  rw [eq_ofSteps_of_parent h, names_ofSteps fun step hstep => (hsteps step hstep).1, hnames]
  exact ⟨rfl, isAbsolute_ofSteps hsteps⟩

/-- The directory of a path is written without a slash at its end, the root apart. -/
theorem withoutTail_parent (h : parent? path = some dir) : withoutTail dir = dir := by
  have hdir : dir = ofSteps (isAbsolute path) (steps path).dropLast := eq_ofSteps_of_parent h
  have hsteps : ∀ step ∈ (steps path).dropLast, '/' ∉ step.toList ∧ step ≠ "" :=
    fun step hstep => plain_of_mem_dropLast hstep
  revert hdir hsteps
  generalize (steps path).dropLast = all
  intro hdir hsteps
  cases all with
  | nil =>
    rw [hdir]
    cases isAbsolute path <;> rfl
  | cons step rest =>
    have hjoined : pieces ("/".intercalate (step :: rest)) = step :: rest :=
      pieces_intercalate (List.cons_ne_nil _ _) fun s hs => (hsteps s hs).1
    have hlast : (pieces dir).getLast? = (step :: rest).getLast? := by
      rw [hdir, ofSteps]
      cases isAbsolute path with
      | false => simp [hjoined]
      | true => rw [if_pos rfl, pieces_slash, hjoined, List.getLast?_cons_cons]
    refine withoutTail_eq ?_
    rw [hlast]
    intro hblank
    exact (hsteps "" (List.mem_of_getLast? hblank)).2 rfl

/-- A path leads through another one that is the directory of it, or of its directory, and so on. -/
def Above (dir path : String) : Prop := Relation.TransGen (fun p q => parent? p = some q) path dir

/-- The names of a path are those of a directory above it and at least one more. -/
theorem Above.names_prefix (h : Above dir path) :
    names dir <+: (names path).dropLast ∧ isAbsolute dir = isAbsolute path := by
  induction h with
  | single h =>
    obtain ⟨hnames, habs⟩ := parent_eq h
    rw [hnames]
    exact ⟨List.prefix_rfl, habs⟩
  | tail _ h ih =>
    obtain ⟨hnames, habs⟩ := parent_eq h
    rw [hnames]
    exact ⟨(List.dropLast_prefix _).trans ih.1, habs.trans ih.2⟩

theorem Above.withoutTail_eq (h : Above dir path) : withoutTail dir = dir := by
  cases h with
  | single h => exact withoutTail_parent h
  | tail _ h => exact withoutTail_parent h

/-! ## Files in a directory -/

theorem mem_intercalate {c : Char} {parts : List String} (h : c ∈ ("/".intercalate parts).toList) :
    c = '/' ∨ ∃ part ∈ parts, c ∈ part.toList := by
  have hlist : c ∈ ['/'].intercalate (parts.map String.toList) := by
    rwa [String.toList_intercalate] at h
  clear h
  induction parts with
  | nil => simp at hlist
  | cons part rest ih =>
    cases rest with
    | nil => exact .inr ⟨part, List.mem_cons_self, by simpa using hlist⟩
    | cons next more =>
      rw [List.map_cons, List.map_cons, List.intercalate_cons_cons] at hlist
      rcases List.mem_append.mp hlist with hlist | hlist
      · rcases List.mem_append.mp hlist with hlist | hlist
        · exact .inr ⟨part, List.mem_cons_self, hlist⟩
        · exact .inl (List.mem_singleton.mp hlist)
      · rcases ih hlist with hc | ⟨p, hp, hc⟩
        · exact .inl hc
        · exact .inr ⟨p, List.mem_cons_of_mem part hp, hc⟩

section File

variable (hstep : isStep name = true) (htail : ∀ piece ∈ tail, isStep piece = false)
include hstep htail

theorem filter_pieces (dirs : List String) :
    (dirs ++ name :: tail).filter isStep = dirs.filter isStep ++ [name] := by
  have hnone : tail.filter isStep = [] :=
    List.filter_eq_nil_iff.mpr fun piece hpiece => by simp [htail piece hpiece]
  rw [List.filter_append, List.filter_cons_of_pos hstep, hnone]

theorem names_of_pieces (hpieces : pieces path = dirs ++ name :: tail) :
    names path = dirs.filter isStep ++ [name] := by
  rw [names, hpieces, filter_pieces hstep htail]

theorem steps_of_pieces (hpieces : pieces path = dirs ++ name :: tail) :
    ∃ before, steps path = before ++ [name] ∧ before ⊆ dirs := by
  rw [steps]
  split
  · rename_i rest hdot
    rw [hpieces] at hdot
    cases dirs with
    | nil =>
      obtain ⟨rfl, -⟩ := List.cons.inj hdot
      exact absurd hstep (by decide)
    | cons first more =>
      obtain ⟨rfl, rfl⟩ := List.cons.inj hdot
      refine ⟨"." :: more.filter isStep, congrArg ("." :: ·) (filter_pieces hstep htail more), ?_⟩
      exact List.cons_subset_cons _ List.filter_sublist.subset
  · rw [hpieces]
    exact ⟨dirs.filter isStep, filter_pieces hstep htail dirs, List.filter_sublist.subset⟩

/-- A file has a directory, which is written with the characters of the pieces before its name. -/
theorem exists_parent (hpieces : pieces path = dirs ++ name :: tail) :
    ∃ dir, parent? path = some dir ∧ names dir = dirs.filter isStep ∧
      ∀ c ∈ dir.toList, c ≠ '/' → ∃ piece ∈ dirs, c ∈ piece.toList := by
  obtain ⟨before, hsteps, hbefore⟩ := steps_of_pieces hstep htail hpieces
  have hparent : parent? path = some (ofSteps (isAbsolute path) before) := by
    rw [parent?, hsteps]
    split
    · simp_all
    · rw [List.dropLast_concat]
  refine ⟨_, hparent, ?_, ?_⟩
  · rw [(parent_eq hparent).1, names_of_pieces hstep htail hpieces, List.dropLast_concat]
  · intro c hc hslash
    have hjoined : c ∈ ("/".intercalate before).toList := by
      rw [ofSteps, String.toList_append] at hc
      rcases List.mem_append.mp hc with hc | hc
      · cases habs : isAbsolute path with
        | true => simp [habs, hslash] at hc
        | false => simp [habs] at hc
      · exact hc
    rcases mem_intercalate hjoined with hc | ⟨piece, hpiece, hc⟩
    · exact absurd hc hslash
    · exact ⟨piece, hbefore hpiece, hc⟩

end File

/-- Of two paths to files of one directory both start at the root or none. -/
theorem isAbsolute_beside {path' name' : String} {tail' : List String}
    (hpieces : pieces path = dirs ++ name :: tail) (hpieces' : pieces path' = dirs ++ name' :: tail')
    (hname : name ≠ "") (hname' : name' ≠ "") : isAbsolute path' = isAbsolute path := by
  rw [Bool.eq_iff_iff, isAbsolute_iff, isAbsolute_iff, hpieces, hpieces']
  cases dirs with
  | nil => simp [hname, hname']
  | cons first rest => simp

/-! ## Another ending -/

/-- A path that leads to a file ends in its name; nothing behind the name is a step. -/
theorem exists_of_fileName (h : fileName? path = some name) : isStep name = true ∧ name ≠ ".." ∧
    ∃ dirs tail, pieces path = dirs ++ name :: tail ∧ ∀ piece ∈ tail, isStep piece = false := by
  have hlast : (steps path).getLast? = some name ∧ name ≠ "." ∧ name ≠ ".." := by
    rw [fileName?] at h
    split at h
    · cases h
    · cases h
    · cases h
    · rename_i last hdot hdots hlast
      cases h
      exact ⟨hlast, hdot, hdots⟩
  obtain ⟨hlast, hdot, hdots⟩ := hlast
  have hnames : (names path).getLast? = some name := by
    rcases steps_eq path with heq | heq
    · rwa [← heq]
    · rw [heq] at hlast
      cases hn : names path with
      | nil =>
        rw [hn] at hlast
        exact absurd (Option.some.inj hlast).symm hdot
      | cons first rest => rwa [hn, List.getLast?_cons_cons] at hlast
  rw [names, List.getLast?_filter, List.find?_eq_some_iff_append] at hnames
  obtain ⟨hstep, after, before, hpieces, htail⟩ := hnames
  refine ⟨hstep, hdots, before.reverse, after.reverse, ?_, ?_⟩
  · rw [← List.reverse_reverse (pieces path), hpieces]
    simp
  · intro piece hpiece
    simpa using htail piece (List.mem_reverse.mp hpiece)

/-- The part of a name before the ending, as a list of characters. -/
theorem stem_cases (name : String) : stem name = name ∨
    ∃ ext, '.' ∉ ext ∧ name.toList = (stem name).toList ++ '.' :: ext := by
  rw [stem]
  split
  · exact .inl rfl
  · exact .inl rfl
  · rename_i c front _ hback
    right
    refine ⟨(name.toList.reverse.takeWhile (· != '.')).reverse, ?_, ?_⟩
    · intro hmem
      have hc := List.mem_takeWhile_imp (List.mem_reverse.mp hmem)
      simp at hc
    · have hc : c = '.' := by
        have hhead := List.head?_dropWhile_not (· != '.') name.toList.reverse
        rw [hback] at hhead
        simpa using hhead
      have hsplit := List.takeWhile_append_dropWhile (p := (· != '.')) (l := name.toList.reverse)
      rw [hback, hc] at hsplit
      rw [String.toList_ofList]
      simpa using (congrArg List.reverse hsplit).symm

/-- An ending with a dot in it is never the one that a name has already. -/
theorem stem_append_ne {ending : String} (h : '.' ∈ ending.toList) :
    stem name ++ "." ++ ending ≠ name := by
  intro heq
  have hlist := congrArg String.toList heq
  rw [String.toList_append, String.toList_append] at hlist
  rcases stem_cases name with hstem | ⟨ext, hext, hname⟩
  · rw [hstem] at hlist
    have hlength := congrArg List.length hlist
    simp at hlength
  · rw [hname, List.append_assoc] at hlist
    have htail : '.' :: ending.toList = '.' :: ext := List.append_cancel_left hlist
    exact hext ((List.cons.inj htail).2 ▸ h)

theorem slash_not_mem_stem (h : '/' ∉ name.toList) : '/' ∉ (stem name).toList := by
  rcases stem_cases name with hstem | ⟨ext, -, hname⟩
  · rwa [hstem]
  · rw [hname] at h
    exact fun hmem => h (List.mem_append_left _ hmem)

/-- With another ending a path leads to the same directory, and to another name there. -/
theorem pieces_withExtension {ending : String} (hstep : isStep name = true) (hdots : name ≠ "..")
    (hpieces : pieces path = dirs ++ name :: tail) (htail : ∀ piece ∈ tail, isStep piece = false)
    (hending : '/' ∉ ending.toList) :
    pieces (withExtension path ending) = dirs ++ [stem name ++ "." ++ ending] := by
  have hslash : ∀ piece ∈ dirs ++ name :: tail, '/' ∉ piece.toList := fun piece hpiece =>
    slash_not_mem (hpieces ▸ hpiece)
  have hback : (pieces path).reverse.dropWhile (fun s => !isStep s) = name :: dirs.reverse := by
    have hskip : ∀ piece ∈ tail.reverse, (!isStep piece) = true := fun piece hpiece => by
      simp [htail piece (List.mem_reverse.mp hpiece)]
    rw [hpieces, List.reverse_append, List.reverse_cons, List.append_assoc,
      List.dropWhile_append_of_pos hskip, List.singleton_append,
      List.dropWhile_cons_of_neg (by simp [hstep])]
  rw [withExtension, hback]
  split
  · contradiction
  · rename_i heq
    exact absurd (List.cons.inj heq).1 hdots
  · rename_i heq
    obtain ⟨rfl, rfl⟩ := List.cons.inj heq
    rw [List.reverse_reverse]
    refine pieces_intercalate (by simp) ?_
    intro piece hpiece
    rcases List.mem_append.mp hpiece with hpiece | hpiece
    · exact hslash piece (List.mem_append_left _ hpiece)
    · rw [List.mem_singleton.mp hpiece, String.toList_append, String.toList_append]
      have hname := slash_not_mem_stem (hslash name (by simp))
      simp [hname, hending]

end Paymaster.Path

import Paymaster.Proofs.Disk.Ways
import Paymaster.Proofs.Reserve.KeptFile
/-!
# A save that is cut off

A record is kept in three steps: the directories of the state file are made, the draft beside it is
written, and the draft takes its place. Up to the last step what is loaded is what was loaded
before, so a save may be cut off anywhere. A draft that is left over is written anew by the next
save, and nothing else looks at it.

The directories are the one thing that a save leaves behind for others to see: where the path goes
up again behind a directory that is missing, making the directory opens the way to a file.
-/

namespace Paymaster.Reserve.StateFile

open Paymaster.Path (isStep pieces isAbsolute)

variable {path name new : String} {d d' : Disk} {r : BridgeRecord} {bytes : List UInt8}
  {dirs tail place : List String}

/-! ## The draft beside the state file -/

/-- Two files stand beside each other under different names: the state file, behind whose name more
slashes and dots may follow, and the draft. -/
structure Beside (path : String) (dirs : List String) (name : String) (tail : List String)
    (new : String) : Prop where
  pieces : pieces path = dirs ++ name :: tail
  step : isStep name = true
  dots : name ≠ ".."
  tail : ∀ piece ∈ tail, isStep piece = false
  draft : Path.pieces (draftPath path) = dirs ++ [new]
  draftStep : isStep new = true
  draftDots : new ≠ ".."
  ne : new ≠ name

theorem exists_beside (hname : Path.fileName? path = some name) :
    ∃ dirs tail new, Beside path dirs name tail new := by
  obtain ⟨hstep, hdots, dirs, tail, hpieces, htail⟩ := Path.exists_of_fileName hname
  have hlength : 8 < (Path.stem name ++ "." ++ "json.tmp").length := by
    have hending : "json.tmp".length = 8 := rfl
    have hdot : ".".length = 1 := rfl
    rw [String.length_append, String.length_append, hending, hdot]
    omega
  have hnew : ∀ short : String, short.length ≤ 2 → Path.stem name ++ "." ++ "json.tmp" ≠ short := by
    rintro short hshort rfl
    omega
  refine ⟨dirs, tail, Path.stem name ++ "." ++ "json.tmp", ?_⟩
  exact
    { pieces := hpieces
      step := hstep
      dots := hdots
      tail := htail
      draft := Path.pieces_withExtension hstep hdots hpieces htail (by decide)
      draftStep := Path.isStep_iff.mpr ⟨hnew "" (by decide), hnew "." (by decide)⟩
      draftDots := hnew ".." (by decide)
      ne := Path.stem_append_ne (by decide) }

namespace Beside

variable (h : Beside path dirs name tail new)
include h

theorem draftPath_ne : draftPath path ≠ path := by
  intro heq
  have hpieces := h.draft
  rw [heq, h.pieces] at hpieces
  exact h.ne (List.cons.inj (List.append_cancel_left hpieces)).1.symm

theorem startOf_draft : d.startOf (draftPath path) = d.startOf path := by
  have habs : isAbsolute (draftPath path) = isAbsolute path :=
    Path.isAbsolute_beside h.pieces h.draft (Path.isStep_iff.mp h.step).1
      (Path.isStep_iff.mp h.draftStep).1
  rw [Disk.startOf, Disk.startOf, habs]

/-- Where the draft stands its directory is, and its name is one of that directory. -/
theorem dir_of_draft {other : List String} (hplace : d.locate (draftPath path) = .ok other) :
    ∃ place, '\x00' ∉ (draftPath path).toList ∧ d.walk (d.startOf path) dirs = .ok place ∧
      d.find? place = some .directory ∧ other = place ++ [new] := by
  rw [← h.startOf_draft]
  exact Disk.exists_dir_of_locate h.draft h.draftStep h.draftDots (by simp) hplace

theorem dir_of_locate {other : List String} (hplace : d.locate path = .ok other) :
    ∃ place, '\x00' ∉ path.toList ∧ d.walk (d.startOf path) dirs = .ok place ∧
      d.find? place = some .directory ∧ other = place ++ [name] :=
  Disk.exists_dir_of_locate h.pieces h.step h.dots h.tail hplace

theorem place_ne {a b : List String} (ha : d.locate path = .ok a)
    (hb : d.locate (draftPath path) = .ok b) : a ≠ b := by
  obtain ⟨place, -, hwalk, -, rfl⟩ := h.dir_of_locate ha
  obtain ⟨place', -, hwalk', -, rfl⟩ := h.dir_of_draft hb
  obtain rfl : place = place' := Except.ok.inj (hwalk.symm.trans hwalk')
  simpa using h.ne.symm

/-- A draft that is written leaves the state file as it was. -/
theorem entryAt_write (hwrite : d.write (draftPath path) bytes = .ok d') :
    d'.entryAt path = d.entryAt path := by
  obtain ⟨other, hother, hnot, -, rfl⟩ := Disk.write_eq_ok.mp hwrite
  obtain ⟨place, -, hwalk, hdir, rfl⟩ := h.dir_of_draft (Disk.placeFor_ok hother).1
  have hkeeps := Disk.keepsDirectories_put hnot (.file bytes)
  have hne : place ++ [name] ≠ place ++ [new] := by simpa using h.ne.symm
  exact Disk.entryAt_congr h.pieces h.step h.dots h.tail rfl hwalk (hkeeps.walk hwalk) hdir
    (hkeeps.find _ hdir) (Disk.find?_put_ne hne _)

/-- Nothing is made where the directory of the file is there. -/
theorem makeParent_of_directory (hd : d.Rooted) (hzero : ∀ piece ∈ dirs, '\x00' ∉ piece.toList)
    (hwalk : d.walk (d.startOf path) dirs = .ok place) (hdir : d.find? place = some .directory) :
    makeParent path d = (.ok (), d) := by
  obtain ⟨dir, hparent, hnames, hchars⟩ := Path.exists_parent h.step h.tail h.pieces
  rw [makeParent, hparent]
  by_cases hempty : dir = ""
  · simp [hempty]
  have hzero' : '\x00' ∉ dir.toList := by
    intro hmem
    obtain ⟨piece, hpiece, hchar⟩ := hchars '\x00' hmem (by decide)
    exact hzero piece hpiece hchar
  have hlocate : d.locate dir = .ok place := by
    have hstart : d.startOf dir = d.startOf path := by
      rw [Disk.startOf, Disk.startOf, (Path.parent_eq hparent).2]
    rw [Disk.locate_eq hzero' hempty, hstart]
    refine Disk.walk_of_filter ?_ hdir
    rw [← Path.names, hnames]
    exact Disk.walk_filter hwalk
  simpa [hempty] using Disk.pave_of_directory hd (Path.withoutTail_parent hparent) hlocate hdir

theorem makeParent_of_locate {other : List String} (hd : d.Rooted)
    (hplace : d.locate path = .ok other) : makeParent path d = (.ok (), d) := by
  obtain ⟨place, hzero, hwalk, hdir, -⟩ := h.dir_of_locate hplace
  refine h.makeParent_of_directory hd ?_ hwalk hdir
  intro piece hpiece hchar
  have hmem : piece ∈ Path.pieces path := h.pieces ▸ List.mem_append_left _ hpiece
  exact hzero (Path.mem_of_mem_pieces hmem hchar)

theorem makeParent_of_write (hd : d.Rooted) (hwrite : d.write (draftPath path) bytes = .ok d') :
    makeParent path d = (.ok (), d) := by
  obtain ⟨other, hother, -⟩ := Disk.write_eq_ok.mp hwrite
  obtain ⟨place, hzero, hwalk, hdir, -⟩ := h.dir_of_draft (Disk.placeFor_ok hother).1
  refine h.makeParent_of_directory hd ?_ hwalk hdir
  intro piece hpiece hchar
  have hmem : piece ∈ Path.pieces (draftPath path) := h.draft ▸ List.mem_append_left _ hpiece
  exact hzero (Path.mem_of_mem_pieces hmem hchar)

/-- A draft that is left over is written anew. -/
theorem save_of_write (hd : d.Rooted) (hwrite : d.write (draftPath path) bytes = .ok d')
    (r : BridgeRecord) : save path r d' = save path r d := by
  obtain ⟨d'', hnew, hanew⟩ := Disk.write_write hwrite r.encode
  rw [save, save, h.makeParent_of_write hd hwrite, h.makeParent_of_write (hd.write hwrite) hanew]
  simp only [hnew, hanew]

end Beside

/-! ## Where a save may be cut off -/

/-- The disks at which a save may be cut off, or end: some of the directories are made, some of the
draft is written, or the draft has taken the place of the state file. -/
inductive CutOff (path : String) (r : BridgeRecord) (d : Disk) : (renamed : Bool) → Disk → Prop
  | paving {d' : Disk} (h : Disk.PavesTo path d d') : CutOff path r d false d'
  | drafting {d₁ d' : Disk} {bytes : List UInt8} (hmake : makeParent path d = (.ok (), d₁))
      (hbytes : bytes <+: r.encode) (hwrite : d₁.write (draftPath path) bytes = .ok d') :
      CutOff path r d false d'
  | renamed {d₁ d₂ d' : Disk} (hmake : makeParent path d = (.ok (), d₁))
      (hwrite : d₁.write (draftPath path) r.encode = .ok d₂)
      (hrename : d₂.rename (draftPath path) path = .ok d') : CutOff path r d true d'

theorem makeParent_paves (path : String) (d : Disk) : Disk.PavesTo path d (makeParent path d).2 := by
  rw [makeParent]
  cases hparent : Path.parent? path with
  | none => exact .refl
  | some dir =>
    simp only
    split_ifs
    · exact .refl
    · exact Disk.paveTo_paves _ (.single hparent)

/-- A save ends at one of these disks, the last one if it succeeds. -/
theorem save_cutOff (path : String) (r : BridgeRecord) (d : Disk) :
    CutOff path r d (save path r d).1.isOk (save path r d).2 := by
  have hpaves := makeParent_paves path d
  rw [save]
  cases hmake : makeParent path d with
  | mk answer d₁ =>
    rw [hmake] at hpaves
    cases answer with
    | error why => exact .paving hpaves
    | ok _ =>
      simp only
      cases hwrite : d₁.write (draftPath path) r.encode with
      | error why => exact .paving hpaves
      | ok d₂ =>
        simp only
        cases hrename : d₂.rename (draftPath path) path with
        | error why => exact .drafting hmake List.prefix_rfl hwrite
        | ok d₃ => exact .renamed hmake hwrite hrename

theorem load_of_readBytes (h : d.readBytes path = .ok r.encode) : load path d = .ok (some r) := by
  rw [load, h]
  simp [BridgeRecord.decode_encode, Except.mapError]

theorem load_of_entryAt (h : d'.entryAt path = d.entryAt path) : load path d' = load path d :=
  load_congr (by rw [Disk.readBytes, Disk.readBytes, h])

/-- Until the draft has taken the place of the state file, the file is as it was. -/
theorem entryAt_drafted {d₁ : Disk} (hname : Path.fileName? path = some name) (hd : d.Rooted)
    (hdown : d.GoesDown path) (hmake : makeParent path d = (.ok (), d₁))
    (hwrite : d₁.write (draftPath path) bytes = .ok d') : d'.entryAt path = d.entryAt path := by
  obtain ⟨dirs, tail, new, h⟩ := exists_beside hname
  have hpaves := makeParent_paves path d
  rw [hmake] at hpaves
  rw [h.entryAt_write hwrite, (hpaves.keeps hname hd hdown).1]

theorem load_of_cutOff {renamed : Bool} (hname : Path.fileName? path = some name) (hd : d.Rooted)
    (hdown : d.GoesDown path) (h : CutOff path r d renamed d') :
    load path d' = if renamed then .ok (some r) else load path d := by
  cases h with
  | paving h => exact load_of_entryAt (h.keeps hname hd hdown).1
  | drafting hmake _ hwrite => exact load_of_entryAt (entryAt_drafted hname hd hdown hmake hwrite)
  | renamed hmake hwrite hrename =>
    rw [if_pos rfl]
    refine load_of_save ?_ (d := d)
    rw [save, hmake]
    simp only [hwrite, hrename]

/-! ## A draft that is left over -/

/-- What may be asked of the state file. -/
inductive Operation where
  | load
  | save (r : BridgeRecord)
  | clear

/-- The answer to an operation and the disk afterwards; only loading answers with a record. -/
def Operation.run (path : String) : Operation → Disk → Except StoreError (Option BridgeRecord) × Disk
  | .load, d => (StateFile.load path d, d)
  | .save r, d => ((StateFile.save path r d).1.map fun _ => none, (StateFile.save path r d).2)
  | .clear, d => ((StateFile.clear path d).1.map fun _ => none, (StateFile.clear path d).2)

/-- The answers to one operation after the other. -/
def answers (path : String) : List Operation → Disk → List (Except StoreError (Option BridgeRecord))
  | [], _ => []
  | op :: rest, d => (op.run path d).1 :: answers path rest (op.run path d).2

/-- A disk, and the same disk with a draft left over by a save that was cut off. -/
inductive Leftover (path : String) : Disk → Disk → Prop
  | none (d : Disk) : Leftover path d d
  | draft {d d₁ d' : Disk} {bytes : List UInt8} (hd : d.Rooted) (hdown : d.GoesDown path)
      (hmake : makeParent path d = (.ok (), d₁))
      (hwrite : d₁.write (draftPath path) bytes = .ok d') : Leftover path d d'

theorem save_drafted {d₁ : Disk} (hname : Path.fileName? path = some name) (hd : d.Rooted)
    (hdown : d.GoesDown path) (hmake : makeParent path d = (.ok (), d₁))
    (hwrite : d₁.write (draftPath path) bytes = .ok d') (r : BridgeRecord) :
    save path r d' = save path r d := by
  obtain ⟨dirs, tail, new, h⟩ := exists_beside hname
  have hpaves := makeParent_paves path d
  rw [hmake] at hpaves
  have hd₁ : d₁.Rooted := (hpaves.keeps hname hd hdown).2.1
  rw [h.save_of_write hd₁ hwrite, save, save, hmake, h.makeParent_of_write hd₁ hwrite]

/-- A file that is removed is missed on both disks, and the draft is still left over. -/
theorem Leftover.erase {d₁ : Disk} {content : List UInt8}
    (hname : Path.fileName? path = some name) (hd : d.Rooted)
    (hmake : makeParent path d = (.ok (), d₁)) (hwrite : d₁.write (draftPath path) bytes = .ok d')
    (hfound : d.entryAt path = .ok (place, .file content)) :
    Leftover path (d.erase place) (d'.erase place) := by
  obtain ⟨dirs, tail, new, h⟩ := exists_beside hname
  obtain ⟨hplace, hfile⟩ := Disk.entryAt_ok hfound
  obtain rfl : d = d₁ := congrArg Prod.snd ((h.makeParent_of_locate hd hplace).symm.trans hmake)
  have hnot : d.find? place ≠ some .directory := by simp [hfile]
  have hkeeps := Disk.keepsDirectories_erase hnot
  obtain ⟨dir, hzero, hwalk, hdir, -⟩ := h.dir_of_locate hplace
  have hwalk' : (d.erase place).walk ((d.erase place).startOf path) dirs = .ok dir :=
    hkeeps.walk hwalk
  have hwrite' : (d.erase place).write (draftPath path) bytes = .ok (d'.erase place) :=
    Disk.write_erase hwrite hnot fun other hother => (h.place_ne hplace hother).symm
  refine .draft (hd.erase hnot) ?_ (h.makeParent_of_write (hd.erase hnot) hwrite') hwrite'
  exact Disk.goesDown_of_directory h.step h.tail h.pieces hwalk' (hkeeps.find _ hdir)

/-- One more operation answers the same, whether a draft was left over or not. -/
theorem Leftover.run (hname : Path.fileName? path = some name) (h : Leftover path d d')
    (op : Operation) :
    (op.run path d').1 = (op.run path d).1 ∧ Leftover path (op.run path d).2 (op.run path d').2 := by
  cases h with
  | none => exact ⟨rfl, .none _⟩
  | draft hd hdown hmake hwrite =>
    have hentry := entryAt_drafted hname hd hdown hmake hwrite
    have hsame : Leftover path d d' := .draft hd hdown hmake hwrite
    cases op with
    | load => exact ⟨load_of_entryAt hentry, hsame⟩
    | save r =>
      rw [Operation.run, Operation.run, save_drafted hname hd hdown hmake hwrite r]
      exact ⟨rfl, .none _⟩
    | clear =>
      simp only [Operation.run, clear, Disk.removeFile_eq, hentry]
      cases hfound : d.entryAt path with
      | error why =>
        cases why with
        | notFound => exact ⟨rfl, hsame⟩
        | _ => exact ⟨rfl, hsame⟩
      | ok found =>
        obtain ⟨place, e⟩ := found
        cases e with
        | directory => exact ⟨rfl, hsame⟩
        | file content => exact ⟨rfl, .erase hname hd hmake hwrite hfound⟩

/-- However many operations follow, a draft that was left over is not seen. -/
theorem Leftover.answers (hname : Path.fileName? path = some name) (h : Leftover path d d')
    (ops : List Operation) : answers path ops d' = answers path ops d := by
  induction ops generalizing d d' with
  | nil => rfl
  | cons op ops ih =>
    obtain ⟨hanswer, hnext⟩ := h.run hname op
    rw [StateFile.answers, StateFile.answers, hanswer, ih hnext]

/-! ## A save happens at once or not at all -/

/-- A save may be cut off wherever it is: the state file is loaded as before, or the new record is
once the draft has taken its place; the draft is never mistaken for the state file, and one that is
left over is not seen by anything that follows. Behind a directory that is missing the path has to
go down. -/
theorem save_all_or_nothing (path : String) (r : BridgeRecord) (d : Disk)
    (hname : (Path.fileName? path).isSome = true) (hd : d.Rooted) (hdown : d.GoesDown path) :
    (draftPath path ≠ path ∧
      ∀ d' place draft, Disk.locate d' path = .ok place → d'.locate (draftPath path) = .ok draft →
        place ≠ draft) ∧
    CutOff path r d (save path r d).1.isOk (save path r d).2 ∧
    (∀ renamed d', CutOff path r d renamed d' →
      load path d' = if renamed then .ok (some r) else load path d) ∧
    ∀ d₁ d' bytes, makeParent path d = (.ok (), d₁) → d₁.write (draftPath path) bytes = .ok d' →
      ∀ ops, answers path ops d' = answers path ops d := by
  obtain ⟨name, hname⟩ := Option.isSome_iff_exists.mp hname
  obtain ⟨dirs, tail, new, h⟩ := exists_beside hname
  refine ⟨⟨h.draftPath_ne, ?_⟩, save_cutOff path r d, ?_, ?_⟩
  · intro d' place draft hplace hdraft
    exact h.place_ne hplace hdraft
  · intro renamed d' hcut
    exact load_of_cutOff hname hd hdown hcut
  · intro d₁ d' bytes hmake hwrite ops
    exact Leftover.answers hname (.draft hd hdown hmake hwrite) ops

/-- A disk on which the directory of the state file is still missing. -/
def freshDisk : Disk := ⟨[(["srv"], .directory)], ["srv"]⟩

/-- The same disk after a save that was cut off behind the first character of the draft. -/
def brokenOffDisk : Disk :=
  ⟨[(["srv", "state", "bridge.json.tmp"], .file [0x7b]), (["srv", "state"], .directory),
    (["srv"], .directory)], ["srv"]⟩

theorem save_all_or_nothing_brokenOff :
    load "state/bridge.json" brokenOffDisk = .ok none ∧
      (∀ ops, answers "state/bridge.json" ops brokenOffDisk =
        answers "state/bridge.json" ops freshDisk) ∧
      load "state/bridge.json" (save "state/bridge.json" widestRecord freshDisk).2 =
        .ok (some widestRecord) := by
  have hnames : Path.names "state/bridge.json" = ["state", "bridge.json"] := rfl
  have hdown : freshDisk.GoesDown "state/bridge.json" :=
    Disk.goesDown_of_names (by rw [hnames]; decide)
  have hrooted : freshDisk.Rooted := by decide
  obtain ⟨-, hcut, hload, hleft⟩ :=
    save_all_or_nothing "state/bridge.json" widestRecord freshDisk rfl hrooted hdown
  have hmake : makeParent "state/bridge.json" freshDisk =
      (.ok (), ⟨[(["srv", "state"], .directory), (["srv"], .directory)], ["srv"]⟩) := rfl
  have hprefix : [0x7b] <+: widestRecord.encode := ⟨widestRecord.encode.tail, rfl⟩
  have hfresh : load "state/bridge.json" freshDisk = .ok none := rfl
  refine ⟨?_, hleft _ _ _ hmake rfl, hload true _ hcut⟩
  exact (hload false _ (.drafting hmake hprefix rfl)).trans hfresh

/-- A state file whose path leads through a directory that is missing and out of it again, with a
directory in the way of the draft. -/
def climbingDisk : Disk :=
  ⟨[(["srv", "bridge.json"], .file widestRecord.encode), (["srv", "bridge.json.tmp"], .directory),
    (["srv"], .directory)], ["srv"]⟩

/-- A record other than the one on that disk. -/
def laterRecord : BridgeRecord := { widestRecord with leafIndex := 0 }

/-- Where the path goes up again behind a directory that is missing, a save that fails shows a file
that was not seen before. -/
theorem failed_save_opens_the_way :
    Path.fileName? "a/../bridge.json" = some "bridge.json" ∧ climbingDisk.Rooted ∧
      load "a/../bridge.json" climbingDisk = .ok none ∧
      (save "a/../bridge.json" laterRecord climbingDisk).1 =
        .error (.io "a/../bridge.json" .isDirectory) ∧
      load "a/../bridge.json" (save "a/../bridge.json" laterRecord climbingDisk).2 =
        .ok (some widestRecord) := by
  have hsave : save "a/../bridge.json" laterRecord climbingDisk =
      (.error (.io "a/../bridge.json" .isDirectory),
        climbingDisk.put ["srv", "a"] .directory) := rfl
  have hmissing : climbingDisk.readBytes "a/../bridge.json" = .error .notFound := rfl
  have hread : (climbingDisk.put ["srv", "a"] .directory).readBytes "a/../bridge.json" =
      .ok widestRecord.encode := rfl
  refine ⟨rfl, by decide, ?_, ?_, ?_⟩
  · rw [load, hmissing]
  · rw [hsave]
  · rw [hsave]
    exact load_of_readBytes hread

end Paymaster.Reserve.StateFile

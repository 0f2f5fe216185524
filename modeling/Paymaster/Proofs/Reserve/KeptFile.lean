import Paymaster.Proofs.Disk.Files
import Paymaster.Proofs.Reserve.RecordRoundTrip
import Paymaster.Reserve.Controller
/-!
# The file behind a store

What is loaded depends on the bytes of the state file alone. A record that was saved is loaded
again, and nothing is loaded after the file has been cleared. A store may fail at any of its
operations; what is asked of it is that a failed operation leaves the file as it was and that an
operation that does not fail is the one of the state file.
-/

namespace Paymaster.Reserve

variable {σ : Type}

namespace StateFile

variable {path : String} {d d' : Disk} {r : BridgeRecord}

theorem load_congr (h : d'.readBytes path = d.readBytes path) : load path d' = load path d := by
  rw [load, load, h]

theorem readBytes_of_save (h : save path r d = (.ok (), d')) :
    d'.readBytes path = .ok r.encode := by
  simp only [save] at h
  split at h
  · cases h
  · split at h
    · cases h
    · rename_i hwrite
      split at h
      · cases h
      · rename_i hrename
        cases h
        exact Disk.readBytes_rename (Disk.readBytes_write hwrite) hrename

/-- A record that was saved is loaded, whatever the file held before. -/
theorem load_of_save (h : save path r d = (.ok (), d')) : load path d' = .ok (some r) := by
  rw [load, readBytes_of_save h]
  simp [BridgeRecord.decode_encode, Except.mapError]

theorem readBytes_of_clear (h : clear path d = (.ok (), d')) :
    d'.readBytes path = .error .notFound := by
  simp only [clear] at h
  split at h
  · rename_i hremove
    cases h
    exact Disk.readBytes_removeFile hremove
  · rename_i hremove
    cases h
    exact Disk.readBytes_of_removeFile_notFound hremove
  · cases h

/-- Nothing is loaded after the file has been cleared. -/
theorem load_of_clear (h : clear path d = (.ok (), d')) : load path d' = .ok none := by
  rw [load, readBytes_of_clear h]

/-- A record that was saved can be forgotten. -/
theorem clear_of_save (h : save path r d = (.ok (), d')) : (clear path d').1 = .ok () := by
  obtain ⟨d'', hremove⟩ := Disk.removeFile_of_readBytes (readBytes_of_save h)
  rw [clear, hremove]

/-- Once a record has been saved it is loaded with all its values, and once the file has been cleared
nothing is loaded, whatever the disk and the file held before. -/
theorem kept_is_loaded (path : String) (r : BridgeRecord) (d : Disk) :
    ((save path r d).1 = .ok () → load path (save path r d).2 = .ok (some r)) ∧
      ((clear path d).1 = .ok () → load path (clear path d).2 = .ok none) := by
  constructor
  · intro hsave
    exact load_of_save (Prod.ext hsave rfl)
  · intro hclear
    exact load_of_clear (Prod.ext hclear rfl)

/-- A disk on which the state file is cut off behind its first character. -/
def spoiledDisk : Disk :=
  ⟨[(["data"], .directory), (["data", "bridge.json"], .file [0x7b])], ["data"]⟩

/-- The record that takes the most room. -/
def widestRecord : BridgeRecord where
  baseline := Amount.max
  amount := Amount.max
  secretHash := BitVec.allOnes 256
  messageHash := BitVec.allOnes 256
  leafIndex := 0xffffffffffffffff
  submittedAt := 0xffffffffffffffff

/-- The widest record is saved over a spoiled file and loaded, and a spoiled file can be cleared. -/
theorem kept_is_loaded_after_spoiled :
    (save "bridge.json" widestRecord spoiledDisk).1 = .ok () ∧
      load "bridge.json" (save "bridge.json" widestRecord spoiledDisk).2 = .ok (some widestRecord) ∧
      (clear "bridge.json" spoiledDisk).1 = .ok () ∧
      load "bridge.json" (clear "bridge.json" spoiledDisk).2 = .ok none := by
  obtain ⟨hload, hgone⟩ := kept_is_loaded "bridge.json" widestRecord spoiledDisk
  have hsave : (save "bridge.json" widestRecord spoiledDisk).1 = .ok () := rfl
  have hclear : (clear "bridge.json" spoiledDisk).1 = .ok () := rfl
  exact ⟨hsave, hload hsave, hclear, hgone hclear⟩

end StateFile

/-! ## Stores that may fail -/

/-- A store keeps its record in a file, and each of its operations may fail. -/
structure RecordStore.OnFile (s : RecordStore σ) (path : String) (disk : σ → Disk) : Prop where
  /-- Loading leaves the file as it is. -/
  load_bytes : ∀ x, (disk (s.load x).2).readBytes path = (disk x).readBytes path
  /-- What is loaded is what the file holds. -/
  load_ok : ∀ x a, (s.load x).1 = .ok a → StateFile.load path (disk x) = .ok a
  /-- A record that is kept is in the file. -/
  save_ok : ∀ r x, (s.save r x).1 = .ok () →
    StateFile.save path r (disk x) = (.ok (), disk (s.save r x).2)
  /-- A record that cannot be kept leaves the file as it was. -/
  save_error : ∀ r x why, (s.save r x).1 = .error why →
    (disk (s.save r x).2).readBytes path = (disk x).readBytes path
  /-- A record that is forgotten is in the file no more. -/
  clear_ok : ∀ x, (s.clear x).1 = .ok () →
    StateFile.clear path (disk x) = (.ok (), disk (s.clear x).2)
  /-- A record that cannot be forgotten stays in the file. -/
  clear_error : ∀ x why, (s.clear x).1 = .error why →
    (disk (s.clear x).2).readBytes path = (disk x).readBytes path

/-- A store whose file can be relied on after an operation that went well. A record that could not be
kept, or not be forgotten, may have left anything in the file. -/
structure RecordStore.Durable (s : RecordStore σ) (path : String) (disk : σ → Disk) : Prop where
  /-- Loading leaves the file as it is. -/
  load_bytes : ∀ x, (disk (s.load x).2).readBytes path = (disk x).readBytes path
  /-- What is loaded is what the file holds. -/
  load_ok : ∀ x a, (s.load x).1 = .ok a → StateFile.load path (disk x) = .ok a
  /-- A record that is kept is in the file. -/
  save_ok : ∀ r x, (s.save r x).1 = .ok () →
    StateFile.save path r (disk x) = (.ok (), disk (s.save r x).2)

namespace RecordStore

variable {s : RecordStore σ} {path : String} {disk : σ → Disk} {x : σ} {r : BridgeRecord}

theorem OnFile.durable (h : s.OnFile path disk) : s.Durable path disk :=
  ⟨h.load_bytes, h.load_ok, h.save_ok⟩

theorem Durable.load_load (h : s.Durable path disk) :
    StateFile.load path (disk (s.load x).2) = StateFile.load path (disk x) :=
  StateFile.load_congr (h.load_bytes x)

theorem Durable.load_save (h : s.Durable path disk) (hok : (s.save r x).1 = .ok ()) :
    StateFile.load path (disk (s.save r x).2) = .ok (some r) :=
  StateFile.load_of_save (h.save_ok r x hok)

end RecordStore

/-! ## A disk that fails when it is told to -/

/-- A disk with a list that says which of the coming operations are carried out. -/
structure ShakyDisk where
  /-- The disk. -/
  disk : Disk
  /-- For each coming operation, whether it is carried out; beyond the list all are. -/
  works : List Bool

namespace ShakyDisk

/-- An operation on the state file, unless it is its turn to fail. One that fails changes
nothing. -/
def attempt {α : Type} (path : String) (f : Disk → Except StoreError α × Disk) (x : ShakyDisk) :
    Except StoreError α × ShakyDisk :=
  match x.works with
  | false :: rest => (.error (.io path .invalid), ⟨x.disk, rest⟩)
  | works =>
    match f x.disk with
    | (.ok a, d) => (.ok a, ⟨d, works.tail⟩)
    | (.error why, _) => (.error why, ⟨x.disk, works.tail⟩)

/-- The store on such a disk. -/
def store (path : String) : RecordStore ShakyDisk where
  load := attempt path fun d => (StateFile.load path d, d)
  save r := attempt path (StateFile.save path r)
  clear := attempt path (StateFile.clear path)

variable {α : Type} {path : String} {f : Disk → Except StoreError α × Disk} {x : ShakyDisk}

theorem attempt_ok {a : α} (h : (attempt path f x).1 = .ok a) :
    f x.disk = (.ok a, (attempt path f x).2.disk) := by
  rw [attempt] at h ⊢
  split at h
  · cases h
  · split at h
    · rename_i hf
      cases h
      simp [hf]
    · cases h

theorem attempt_error {why : StoreError} (h : (attempt path f x).1 = .error why) :
    (attempt path f x).2.disk = x.disk := by
  rw [attempt] at h ⊢
  split at h
  · rfl
  · split at h
    · cases h
    · rfl

theorem onFile_store (path : String) : (store path).OnFile path ShakyDisk.disk where
  load_bytes x := by
    cases h : ((store path).load x).1 with
    | ok a => exact congrArg (Disk.readBytes · path) (Prod.mk.inj (attempt_ok h)).2.symm
    | error why => exact congrArg (Disk.readBytes · path) (attempt_error h)
  load_ok _ _ h := (Prod.mk.inj (attempt_ok h)).1
  save_ok _ _ h := attempt_ok h
  save_error _ _ _ h := congrArg (Disk.readBytes · path) (attempt_error h)
  clear_ok _ h := attempt_ok h
  clear_error _ _ h := congrArg (Disk.readBytes · path) (attempt_error h)

end ShakyDisk
end Paymaster.Reserve

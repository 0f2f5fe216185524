import Paymaster.Metrics.Exposition
import Paymaster.Proofs.Text.ReadBack
import Paymaster.Text.Split
/-!
# Samples read back

An exposition is read line by line: a sample is what stands before the first blank, and its value is
the rest of the line. The lines that say what a family is begin with a number sign, so they are never
taken for a sample. What is read of a sample is what its families hold.
-/

namespace Paymaster.Metrics

/-- The sample of a line with its value. -/
def readSample (line : List Char) : Option (String × String) :=
  match Text.cut ' ' line with
  | (key, some value) => some (String.ofList key, String.ofList value)
  | (_, none) => none

/-- The values of a sample in some lines. -/
def valuesOf (key : String) (lines : List (List Char)) : List String :=
  (lines.filterMap readSample).filterMap fun s => if s.1 = key then some s.2 else none

/-- The values of a sample in the text of an exposition. -/
def readValues (key text : String) : List String := valuesOf key (Text.splitOn '\n' text.toList)

/-- The values of a sample in a family. -/
def Family.values (key : String) (f : Family) : List String :=
  f.samples.filterMap fun s => if f.name ++ s.1 = key then some s.2 else none

/-- The name and the samples of a family have no blanks, and nothing of it has a line break. -/
structure Family.Neat (f : Family) : Prop where
  name : ' ' ∉ f.name.toList ∧ '\n' ∉ f.name.toList
  help : '\n' ∉ f.help.toList
  samples : ∀ s ∈ f.samples, ' ' ∉ s.1.toList ∧ '\n' ∉ s.1.toList ∧ '\n' ∉ s.2.toList

variable {key : String} {f : Family}

/-- A family whose name does not begin a sample's has nothing of that sample. -/
theorem Family.values_eq_nil (h : ¬ f.name.toList <+: key.toList) : f.values key = [] := by
  rw [values, List.filterMap_eq_nil_iff]
  intro s _
  rw [if_neg]
  rintro rfl
  exact h (by simp)

theorem valuesOf_append (lines more : List (List Char)) :
    valuesOf key (lines ++ more) = valuesOf key lines ++ valuesOf key more := by
  simp [valuesOf]

theorem readSample_append {name : String} (h : ' ' ∉ name.toList) (value : String) :
    readSample (name ++ " " ++ value).toList = some (name, value) := by
  have htext : (name ++ " " ++ value).toList = name.toList ++ ' ' :: value.toList := by simp
  rw [readSample, htext, Text.cut_append h]
  simp

/-- A line behind a number sign is no sample. -/
theorem valuesOf_comment (hkey : key ≠ "#") (text : String) :
    valuesOf key [("#" ++ " " ++ text).toList] = [] := by
  have hread : readSample ("#" ++ " " ++ text).toList = some ("#", text) :=
    readSample_append (by decide) text
  rw [valuesOf, List.filterMap_cons, hread]
  simp [Ne.symm hkey]

theorem Family.values_samples (hf : f.Neat) : ∀ samples : List (String × String),
    samples ⊆ f.samples →
    valuesOf key (samples.map fun s => (f.name ++ s.1 ++ " " ++ s.2).toList) =
      samples.filterMap fun s => if f.name ++ s.1 = key then some s.2 else none
  | [], _ => rfl
  | s :: samples, hsub => by
    have hblank : ' ' ∉ (f.name ++ s.1).toList := by
      have hs := (hf.samples s (hsub List.mem_cons_self)).1
      simpa using ⟨hf.name.1, hs⟩
    have hmore := values_samples hf samples fun x hx => hsub (List.mem_cons_of_mem s hx)
    rw [List.map_cons, List.filterMap_cons, ← hmore, valuesOf, List.filterMap_cons,
      readSample_append hblank, List.filterMap_cons]
    rfl

/-- The lines of a family hold its values. -/
theorem Family.values_lines (hf : f.Neat) (hkey : key ≠ "#") :
    valuesOf key (f.lines.map String.toList) = f.values key := by
  rw [Family.lines]
  split
  · rename_i hempty
    have hnone : f.samples = [] := by
      rw [Bool.and_eq_true] at hempty
      exact List.isEmpty_iff.mp hempty.1
    rw [values, hnone]
    rfl
  · have hcomments : valuesOf key
        [(s!"# HELP {f.name} {f.help}").toList, (s!"# TYPE {f.name} {f.kind.name}").toList] = [] := by
      have hhelp : s!"# HELP {f.name} {f.help}" = "#" ++ " " ++ s!"HELP {f.name} {f.help}" := by
        simp [String.ext_iff, toString]
      have htype : s!"# TYPE {f.name} {f.kind.name}" =
          "#" ++ " " ++ s!"TYPE {f.name} {f.kind.name}" := by
        simp [String.ext_iff, toString]
      rw [← List.singleton_append, valuesOf_append, hhelp, htype, valuesOf_comment hkey,
        valuesOf_comment hkey, List.append_nil]
    have hsamples : valuesOf key (f.samples.map fun s => (f.name ++ s.1 ++ " " ++ s.2).toList) =
        f.values key := values_samples hf f.samples (fun _ h => h)
    rw [← hsamples, ← List.nil_append (valuesOf key (f.samples.map _)), ← hcomments,
      ← valuesOf_append, List.map_cons, List.map_cons, List.map_map]
    rfl

theorem Family.lineBreak_lines (hf : f.Neat) : ∀ l ∈ f.lines, '\n' ∉ l.toList := by
  intro l hl
  rw [Family.lines] at hl
  split at hl
  · cases hl
  · rcases List.mem_cons.mp hl with rfl | hl
    · simp [hf.name.2, hf.help, toString]
    rcases List.mem_cons.mp hl with rfl | hl
    · cases f.kind <;> simp [hf.name.2, Kind.name, toString]
    obtain ⟨s, hs, rfl⟩ := List.mem_map.mp hl
    obtain ⟨-, hname, hvalue⟩ := hf.samples s hs
    simp [hf.name.2, hname, hvalue]

/-- What is read of a sample in an exposition is what its families hold. -/
theorem readValues_exposition {families : List Family} (h : ∀ f ∈ families, f.Neat)
    (hkey : key ≠ "#") :
    readValues key (exposition families) = families.flatMap (Family.values key) := by
  have htext : (exposition families).toList =
      ((families.flatMap Family.lines).map String.toList).flatMap (· ++ ['\n']) := by
    rw [exposition, String.toList_join, List.flatMap_map, List.flatMap_map]
    simp
  have hlines : ∀ l ∈ (families.flatMap Family.lines).map String.toList, '\n' ∉ l := by
    intro l hl
    obtain ⟨line, hline, rfl⟩ := List.mem_map.mp hl
    obtain ⟨f, hf, hline⟩ := List.mem_flatMap.mp hline
    exact Family.lineBreak_lines (h f hf) line hline
  have hlast : valuesOf key [[]] = [] := rfl
  rw [readValues, htext, Text.splitOn_lines hlines, valuesOf_append, hlast, List.append_nil]
  clear htext hlines
  induction families with
  | nil => rfl
  | cons f families ih =>
    rw [List.flatMap_cons, List.map_append, valuesOf_append,
      Family.values_lines (h f List.mem_cons_self) hkey,
      ih fun g hg => h g (List.mem_cons_of_mem f hg), List.flatMap_cons]

/-! ## Tallies -/

theorem lineBreak_toString (n : Nat) : '\n' ∉ (toString n).toList := by
  rw [Nat.toString_eq_ofList_toDigits, String.toList_ofList]
  intro h
  exact absurd (Text.isDigit_of_mem_toDigits h) (by decide)

theorem label_inj {labelName value value' : String}
    (h : label labelName value = label labelName value') : value = value' := by
  simpa [label, String.ext_iff] using h

section Tally

variable {κ : Type} [DecidableEq κ] {suffix labelName : String} {name : κ → String}

/-- The samples of a tally are neat if the labels are. -/
theorem Tally.neat_samples (t : Tally κ) (order : List κ)
    (hname : ∀ k, ' ' ∉ (suffix ++ label labelName (name k)).toList ∧
      '\n' ∉ (suffix ++ label labelName (name k)).toList) :
    ∀ s ∈ t.samples order suffix labelName name,
      ' ' ∉ s.1.toList ∧ '\n' ∉ s.1.toList ∧ '\n' ∉ s.2.toList := by
  intro s hs
  obtain ⟨k, -, rfl⟩ := List.mem_map.mp hs
  exact ⟨(hname k).1, (hname k).2, lineBreak_toString _⟩

/-- A tally shows the count of a label, once the label is listed. -/
theorem Tally.values_samples (t : Tally κ) {order : List κ} (horder : order.Nodup)
    (hname : ∀ k l, name k = name l → k = l) (family help : String) (kind : Kind) (k : κ) :
    Family.values (family ++ (suffix ++ label labelName (name k)))
        ⟨family, help, kind, t.samples order suffix labelName name, false⟩ =
      if k ∈ order ∧ t.lists k = true then [toString (t.count k)] else [] := by
  have hkey (l : κ) : label labelName (name l) = label labelName (name k) ↔ l = k := by
    constructor
    · intro h
      exact hname l k (label_inj h)
    · rintro rfl
      rfl
  rw [Family.values, Tally.samples]
  simp only
  rw [List.filterMap_map]
  induction order with
  | nil => rfl
  | cons l order ih =>
    obtain ⟨hl, hrest⟩ := List.nodup_cons.mp horder
    have hvalue := ih hrest
    by_cases hlisted : t.lists l = true
    · rw [List.filter_cons_of_pos hlisted, List.filterMap_cons, hvalue]
      by_cases heq : l = k
      · subst heq
        simp [hl, hlisted]
      · simp [hkey, heq, Ne.symm heq]
    · rw [List.filter_cons_of_neg hlisted, hvalue]
      by_cases heq : l = k
      · subst heq
        simp [hlisted]
      · simp [Ne.symm heq]

/-- A tally lists what it has counted, and nothing else. -/
def Tally.Bare (t : Tally κ) : Prop := ∀ k, t.lists k = true ↔ t.count k ≠ 0

theorem Tally.bare_empty : (Tally.empty : Tally κ).Bare := by
  intro k
  simp [lists, count, empty]

theorem Tally.Bare.bump {t : Tally κ} (h : t.Bare) (k : κ) : (t.bump k).Bare := by
  intro l
  rw [lists_bump, count_bump]
  by_cases heq : l = k
  · simp [heq]
  · simpa [heq] using h l

end Tally

end Paymaster.Metrics

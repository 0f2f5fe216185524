/-!
# Splitting texts

A text is cut at a separator character, once or at every occurrence. Putting the separator back
between the parts gives the text again.
-/

namespace Paymaster.Text

/-- The parts of a text between occurrences of a character; there is always one. -/
def splitOn (sep : Char) : List Char → List (List Char)
  | [] => [[]]
  | c :: rest =>
    if c = sep then [] :: splitOn sep rest
    else
      match splitOn sep rest with
      | [] => [[c]]
      | part :: more => (c :: part) :: more

/-- The text before the first occurrence of a character, and the text behind it if it occurs. -/
def cut (sep : Char) : List Char → List Char × Option (List Char)
  | [] => ([], none)
  | c :: rest =>
    if c = sep then ([], some rest)
    else
      let (before, after) := cut sep rest
      (c :: before, after)

theorem splitOn_ne_nil (sep : Char) (cs : List Char) : splitOn sep cs ≠ [] := by
  fun_induction splitOn sep cs <;> simp

/-- Two texts with the separator between them have the parts of both. -/
theorem splitOn_append_cons (sep : Char) (front back : List Char) :
    splitOn sep (front ++ sep :: back) = splitOn sep front ++ splitOn sep back := by
  induction front with
  | nil => simp [splitOn]
  | cons c rest ih =>
    rw [List.cons_append, splitOn, splitOn, ih]
    split
    · rfl
    · cases hrest : splitOn sep rest with
      | nil => exact absurd hrest (splitOn_ne_nil sep rest)
      | cons part more => rfl

/-- A text without the separator is its only part. -/
theorem splitOn_of_not_mem (sep : Char) (cs : List Char) (h : sep ∉ cs) :
    splitOn sep cs = [cs] := by
  induction cs with
  | nil => rfl
  | cons c rest ih =>
    simp only [List.mem_cons, not_or] at h
    simp [splitOn, Ne.symm h.1, ih h.2]

theorem splitOn_append {sep : Char} {cs : List Char} (h : sep ∉ cs) (rest : List Char) :
    splitOn sep (cs ++ sep :: rest) = cs :: splitOn sep rest := by
  rw [splitOn_append_cons, splitOn_of_not_mem sep cs h, List.singleton_append]

/-- Lines that each end in a separator are the parts between them; nothing stands behind the
last. -/
theorem splitOn_lines {sep : Char} {lines : List (List Char)} (h : ∀ l ∈ lines, sep ∉ l) :
    splitOn sep (lines.flatMap (· ++ [sep])) = lines ++ [[]] := by
  induction lines with
  | nil => rfl
  | cons l lines ih =>
    have hl : sep ∉ l := h l List.mem_cons_self
    have hlines : ∀ l' ∈ lines, sep ∉ l' := fun l' hl' => h l' (List.mem_cons_of_mem l hl')
    rw [List.flatMap_cons, List.append_assoc, List.singleton_append, splitOn_append hl, ih hlines,
      List.cons_append]

/-- No part holds the separator. -/
theorem not_mem_of_mem_splitOn {sep : Char} {part cs : List Char} (h : part ∈ splitOn sep cs) :
    sep ∉ part := by
  induction cs generalizing part with
  | nil => simp_all [splitOn]
  | cons c rest ih =>
    rw [splitOn] at h
    split at h
    · rcases List.mem_cons.mp h with rfl | h
      · exact List.not_mem_nil
      · exact ih h
    · rename_i hc
      split at h
      · exact absurd ‹_› (splitOn_ne_nil sep rest)
      · rename_i first more hrest
        rcases List.mem_cons.mp h with rfl | h
        · have hfirst := ih (hrest ▸ List.mem_cons_self)
          simp [Ne.symm hc, hfirst]
        · exact ih (hrest ▸ List.mem_cons_of_mem first h)

/-- A part holds nothing that the text does not hold. -/
theorem mem_of_mem_splitOn {sep c : Char} {part cs : List Char} (h : part ∈ splitOn sep cs)
    (hc : c ∈ part) : c ∈ cs := by
  induction cs generalizing part with
  | nil => simp_all [splitOn]
  | cons first rest ih =>
    rw [splitOn] at h
    split at h
    · rcases List.mem_cons.mp h with rfl | h
      · exact absurd hc List.not_mem_nil
      · exact List.mem_cons_of_mem first (ih h hc)
    · split at h
      · exact absurd ‹_› (splitOn_ne_nil sep rest)
      · rename_i part' more hrest
        rcases List.mem_cons.mp h with rfl | h
        · rcases List.mem_cons.mp hc with rfl | hc
          · exact List.mem_cons_self
          · exact List.mem_cons_of_mem first (ih (hrest ▸ List.mem_cons_self) hc)
        · exact List.mem_cons_of_mem first (ih (hrest ▸ List.mem_cons_of_mem part' h) hc)

/-- A separator at the end stands before a last part that is empty. -/
theorem splitOn_concat (sep : Char) (cs : List Char) :
    splitOn sep (cs ++ [sep]) = splitOn sep cs ++ [[]] := splitOn_append_cons sep cs []

/-- Parts that are put together with the separator between them are found again. -/
theorem splitOn_intercalate {sep : Char} {parts : List (List Char)} (hne : parts ≠ [])
    (h : ∀ part ∈ parts, sep ∉ part) : splitOn sep ([sep].intercalate parts) = parts := by
  induction parts with
  | nil => exact absurd rfl hne
  | cons part rest ih =>
    have hpart : sep ∉ part := h part List.mem_cons_self
    cases rest with
    | nil =>
      rw [List.intercalate_singleton]
      exact splitOn_of_not_mem sep part hpart
    | cons next more =>
      rw [List.intercalate_cons_cons, List.append_assoc, List.singleton_append,
        splitOn_append hpart, ih (List.cons_ne_nil next more)
          fun p hp => h p (List.mem_cons_of_mem part hp)]

theorem cut_append {sep : Char} {cs : List Char} (h : sep ∉ cs) (rest : List Char) :
    cut sep (cs ++ sep :: rest) = (cs, some rest) := by
  induction cs with
  | nil => simp [cut]
  | cons c cs ih =>
    obtain ⟨hc, hcs⟩ : sep ≠ c ∧ sep ∉ cs := by simpa using h
    rw [List.cons_append, cut, if_neg (Ne.symm hc), ih hcs]

theorem cut_of_not_mem (sep : Char) (cs : List Char) (h : sep ∉ cs) : cut sep cs = (cs, none) := by
  induction cs with
  | nil => rfl
  | cons c rest ih =>
    simp only [List.mem_cons, not_or] at h
    simp [cut, Ne.symm h.1, ih h.2]

end Paymaster.Text

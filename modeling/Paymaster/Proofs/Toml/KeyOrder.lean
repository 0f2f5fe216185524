import Mathlib.Data.List.Infix
import Mathlib.Data.List.Nodup
import Paymaster.Proofs.Toml.Leaves
import Paymaster.Toml.Reader
/-!
# The order of keys

The reader builds tables from drafts, whose fields stand in the order in which the document has them,
and sorts the fields when a table is complete. No draft ever gets a key twice, however its tables are
put together from headers and keys with points. So in every value that is read the keys of all tables
ascend, and each of them is there once.
-/

namespace Paymaster.Toml

/-! ## Sorting fields -/

section Sorting

variable {α : Type} {key : String} {a : α} {x : String × α} {fields sorted : List (String × α)}

theorem mem_insertField : x ∈ insertField key a fields ↔ x = (key, a) ∨ x ∈ fields := by
  induction fields with
  | nil => simp [insertField]
  | cons y rest ih =>
    rw [insertField]
    split
    · simp
    · rw [List.mem_cons, ih, List.mem_cons]
      exact or_left_comm

theorem ascending_insertField (h : (fields.map Prod.fst).Pairwise (· < ·))
    (hkey : key ∉ fields.map Prod.fst) :
    ((insertField key a fields).map Prod.fst).Pairwise (· < ·) := by
  induction fields with
  | nil => simp [insertField]
  | cons y rest ih =>
    rw [List.map_cons, List.pairwise_cons] at h
    rw [List.map_cons, List.mem_cons, not_or] at hkey
    rw [insertField]
    split
    · rename_i hlt
      simp only [List.map_cons, List.pairwise_cons]
      refine ⟨fun k hk => ?_, h⟩
      rcases List.mem_cons.mp hk with rfl | hk
      · exact hlt
      · exact String.lt_trans hlt (h.1 k hk)
    · rename_i hge
      have hlt : y.1 < key :=
        Std.lt_of_le_of_ne (String.not_lt.mp hge) (Ne.symm hkey.1)
      rw [List.map_cons, List.pairwise_cons]
      refine ⟨fun k hk => ?_, ih h.2 hkey.2⟩
      obtain ⟨z, hz, rfl⟩ := List.mem_map.mp hk
      rcases mem_insertField.mp hz with rfl | hz
      · exact hlt
      · exact h.1 _ (List.mem_map_of_mem hz)

theorem mem_foldl_insertField :
    x ∈ fields.foldl (fun sorted x => insertField x.1 x.2 sorted) sorted ↔
      x ∈ sorted ∨ x ∈ fields := by
  induction fields generalizing sorted with
  | nil => simp
  | cons y rest ih =>
    rw [List.foldl_cons, ih, mem_insertField, List.mem_cons, or_comm (a := x = _), or_assoc]

theorem ascending_foldl_insertField (hsorted : (sorted.map Prod.fst).Pairwise (· < ·))
    (hkeys : (fields.map Prod.fst).Nodup)
    (hnew : ∀ k ∈ fields.map Prod.fst, k ∉ sorted.map Prod.fst) :
    ((fields.foldl (fun sorted x => insertField x.1 x.2 sorted) sorted).map Prod.fst).Pairwise
      (· < ·) := by
  induction fields generalizing sorted with
  | nil => exact hsorted
  | cons y rest ih =>
    rw [List.map_cons, List.nodup_cons] at hkeys
    rw [List.foldl_cons]
    have hinsert := ascending_insertField (a := y.2) hsorted (hnew y.1 List.mem_cons_self)
    refine ih hinsert hkeys.2 fun k hk hmem => ?_
    obtain ⟨z, hz, rfl⟩ := List.mem_map.mp hmem
    rcases mem_insertField.mp hz with rfl | hz
    · exact hkeys.1 hk
    · exact hnew _ (List.mem_cons_of_mem _ hk) (List.mem_map_of_mem hz)

theorem mem_sortFields : x ∈ sortFields fields ↔ x ∈ fields := by
  rw [sortFields, mem_foldl_insertField]
  simp

theorem ascending_sortFields (hkeys : (fields.map Prod.fst).Nodup) :
    ((sortFields fields).map Prod.fst).Pairwise (· < ·) :=
  ascending_foldl_insertField .nil hkeys fun _ _ => List.not_mem_nil

end Sorting

/-! ## Drafts without double keys -/

namespace Draft

mutual

/-- No table has a key twice, and what is finished is in order. -/
def Sound : Draft → Prop
  | .value v => v.InOrder
  | .table _ _ fields => SoundFields fields
  | .tables items => SoundItems items

/-- No key is there twice, and the draft under each of them is sound. -/
def SoundFields : List (String × Draft) → Prop
  | [] => True
  | (k, d) :: rest => k ∉ rest.map Prod.fst ∧ Sound d ∧ SoundFields rest

/-- The fields of each table are sound. -/
def SoundItems : List (List (String × Draft)) → Prop
  | [] => True
  | fields :: rest => SoundFields fields ∧ SoundItems rest

end

variable {d : Draft} {key : String} {fields inner : Fields} {items : List Fields}
  {path : List String} {here dotted : Bool}

theorem soundFields_iff :
    SoundFields fields ↔ (fields.map Prod.fst).Nodup ∧ ∀ x ∈ fields, Sound x.2 := by
  induction fields with
  | nil => simp [SoundFields]
  | cons x rest ih =>
    rw [SoundFields, ih, List.map_cons, List.nodup_cons, List.forall_mem_cons]
    exact ⟨fun ⟨hnew, hx, hkeys, hrest⟩ => ⟨⟨hnew, hkeys⟩, hx, hrest⟩,
      fun ⟨⟨hnew, hkeys⟩, hx, hrest⟩ => ⟨hnew, hx, hkeys, hrest⟩⟩

theorem soundItems_iff : SoundItems items ↔ ∀ fields ∈ items, SoundFields fields := by
  induction items with
  | nil => simp [SoundItems]
  | cons fields rest ih => rw [SoundItems, ih, List.forall_mem_cons]

theorem lookup_eq_none_iff_not_mem : fields.lookup key = none ↔ key ∉ fields.map Prod.fst := by
  rw [List.lookup_eq_none_iff, List.mem_map]
  simp only [bne_iff_ne]
  exact ⟨fun h ⟨x, hx, heq⟩ => h x hx heq.symm, fun h x hx heq => h ⟨x, hx, heq.symm⟩⟩

theorem SoundFields.of_lookup (h : SoundFields fields) (hd : fields.lookup key = some d) :
    d.Sound := by
  obtain ⟨front, back, rfl, -⟩ := List.lookup_eq_some_iff.mp hd
  exact (soundFields_iff.mp h).2 (key, d) (by simp)

theorem SoundFields.concat (h : SoundFields fields) (hnew : fields.lookup key = none)
    (hd : d.Sound) : SoundFields (fields ++ [(key, d)]) := by
  obtain ⟨hkeys, hall⟩ := soundFields_iff.mp h
  refine soundFields_iff.mpr ⟨?_, fun x hx => ?_⟩
  · rw [List.map_append, List.map_singleton, ← List.concat_eq_append]
    exact List.nodup_concat _ _ |>.mpr ⟨lookup_eq_none_iff_not_mem.mp hnew, hkeys⟩
  · rcases List.mem_append.mp hx with hx | hx
    · exact hall x hx
    · cases List.mem_singleton.mp hx
      exact hd

theorem SoundFields.replace (h : SoundFields fields) (hd : d.Sound) :
    SoundFields (replace key d fields) := by
  obtain ⟨hkeys, hall⟩ := soundFields_iff.mp h
  have hsame : (Draft.replace key d fields).map Prod.fst = fields.map Prod.fst := by
    rw [Draft.replace, List.map_map]
    refine List.map_congr_left fun x _ => ?_
    by_cases hx : x.1 = key <;> simp [hx]
  refine soundFields_iff.mpr ⟨by rwa [hsame], fun x hx => ?_⟩
  obtain ⟨y, hy, rfl⟩ := List.mem_map.mp hx
  by_cases hkey : y.1 = key
  · simpa only [if_pos hkey] using hd
  · simpa only [if_neg hkey] using hall y hy

theorem SoundFields.without (h : SoundFields fields) (key : String) :
    SoundFields (fields.filter fun x => x.1 != key) := by
  obtain ⟨hkeys, hall⟩ := soundFields_iff.mp h
  exact soundFields_iff.mpr ⟨hkeys.sublist (List.filter_sublist.map _),
    fun x hx => hall x (List.mem_of_mem_filter hx)⟩

/-! ## Building tables -/

/-- A change that keeps tables sound may be made at the end of any path. -/
theorem SoundFields.descend {change : Bool → Fields → Option Fields}
    (hchange : ∀ here inner inner', SoundFields inner → change here inner = some inner' →
      SoundFields inner')
    {fields' : Fields} (h : SoundFields fields)
    (hdescend : Draft.descend dotted change path here fields = some fields') :
    SoundFields fields' := by
  -- the path ends in a table that is changed; each step back puts the changed one in its place
  induction path generalizing here fields fields' with
  | nil => exact hchange here fields fields' h hdescend
  | cons key path ih =>
    rw [Draft.descend] at hdescend
    cases hkey : fields.lookup key with
    | none =>
      rw [hkey] at hdescend
      obtain ⟨inner, hinner, heq⟩ := Option.bind_eq_some_iff.mp hdescend
      cases heq
      have hnone : SoundFields [] := trivial
      exact h.concat hkey (ih hnone hinner)
    | some d =>
      have hd := h.of_lookup hkey
      rw [hkey] at hdescend
      cases d with
      | value v => cases hdescend
      | tables items =>
        have hitems := soundItems_iff.mp hd
        cases hlast : items.getLast? with
        | none =>
          simp only [hlast] at hdescend
          cases hdescend
        | some last =>
          simp only [hlast] at hdescend
          obtain ⟨inner, hinner, heq⟩ := Option.bind_eq_some_iff.mp hdescend
          cases heq
          -- only the last table of a list is open
          have hlast' := hitems last (List.mem_of_getLast? hlast)
          refine h.replace (soundItems_iff.mpr fun table htable => ?_)
          rcases List.mem_append.mp htable with htable | htable
          · exact hitems table (List.mem_of_mem_dropLast htable)
          · cases List.mem_singleton.mp htable
            exact ih hlast' hinner
      | table implicit byPoints inner =>
        simp only at hdescend
        split at hdescend
        · cases hdescend
        · obtain ⟨inner', hinner, heq⟩ := Option.bind_eq_some_iff.mp hdescend
          cases heq
          exact h.replace (ih hd hinner)

variable {fields' table : Fields}

theorem SoundFields.assign (h : SoundFields fields) (hd : d.Sound)
    (hassign : Draft.assign path key d fields = some fields') : SoundFields fields' := by
  refine h.descend (fun here inner inner' hinner hchange => ?_) hassign
  split at hchange
  · cases hchange
  · split at hchange
    · cases hchange
    · rename_i hnone
      cases hchange
      exact hinner.concat (Option.not_isSome_iff_eq_none.mp hnone) hd

theorem SoundFields.closeTable (h : SoundFields fields) (htable : SoundFields table)
    (hclose : Draft.closeTable path key table fields = some fields') : SoundFields fields' := by
  refine h.descend (fun here inner inner' hinner hchange => ?_) hclose
  split at hchange
  · rename_i hnone
    cases hchange
    exact hinner.concat hnone htable
  · cases hchange
    exact hinner.replace htable
  · cases hchange

theorem SoundFields.closeItem (h : SoundFields fields) (htable : SoundFields table)
    (hclose : Draft.closeItem path key table fields = some fields') : SoundFields fields' := by
  refine h.descend (fun here inner inner' hinner hchange => ?_) hclose
  split at hchange
  · rename_i hnone
    cases hchange
    exact hinner.concat hnone ⟨htable, trivial⟩
  · rename_i items hitems
    cases hchange
    refine hinner.replace (soundItems_iff.mpr fun item hitem => ?_)
    rcases List.mem_append.mp hitem with hitem | hitem
    · exact soundItems_iff.mp (hinner.of_lookup hitems) item hitem
    · cases List.mem_singleton.mp hitem
      exact htable
  · cases hchange

theorem SoundFields.openItem (h : SoundFields fields)
    (hopen : Draft.openItem path key fields = some fields') : SoundFields fields' := by
  refine h.descend (fun here inner inner' hinner hchange => ?_) hopen
  split at hchange <;> cases hchange <;> exact hinner

theorem SoundFields.of_lookUp (h : SoundFields fields)
    (hfound : Draft.openTable.lookUp key path fields = some (some d)) : d.Sound := by
  induction path generalizing fields with
  | nil =>
    rw [Draft.openTable.lookUp] at hfound
    exact h.of_lookup (Option.some.inj hfound)
  | cons step rest ih =>
    rw [Draft.openTable.lookUp] at hfound
    cases hstep : fields.lookup step with
    | none =>
      rw [hstep] at hfound
      cases hfound
    | some e =>
      have he := h.of_lookup hstep
      rw [hstep] at hfound
      cases e with
      | value v => cases hfound
      | table implicit byPoints inner => exact ih he hfound
      | tables items =>
        refine ih ?_ hfound
        cases hlast : items.getLast? with
        | none => trivial
        | some last => exact soundItems_iff.mp he last (List.mem_of_getLast? hlast)

theorem SoundFields.openTable (h : SoundFields fields)
    (hopen : Draft.openTable path key fields = some (fields', table)) :
    SoundFields fields' ∧ SoundFields table := by
  rw [Draft.openTable] at hopen
  obtain ⟨removed, hremoved, hopen⟩ := Option.bind_eq_some_iff.mp hopen
  obtain ⟨found, hfound, hopen⟩ := Option.bind_eq_some_iff.mp hopen
  have hsound : SoundFields removed := by
    refine h.descend (fun here inner inner' hinner hchange => ?_) hremoved
    cases hchange
    exact hinner.without key
  split at hopen
  · cases hopen
    exact ⟨hsound, trivial⟩
  · cases hopen
    exact ⟨hsound, h.of_lookUp hfound⟩
  · cases hopen

/-! ## Finished values -/

theorem keys_freezeFields (fields : Fields) :
    (freezeFields fields).map Prod.fst = fields.map Prod.fst := by
  induction fields with
  | nil => rfl
  | cons x rest ih => rw [freezeFields, List.map_cons, List.map_cons, ih]

/-- Sorting puts the fields of a table in order. -/
theorem inOrder_sortFields {fields : List (String × Value)} (hkeys : (fields.map Prod.fst).Nodup)
    (hall : Value.FieldsInOrder fields) : (Value.table (sortFields fields)).InOrder := by
  refine ⟨ascending_sortFields hkeys, Value.fieldsInOrder_iff.mpr fun x hx => ?_⟩
  exact hall.of_mem (mem_sortFields.mp hx)

theorem SoundFields.inOrder (h : SoundFields fields)
    (hall : Value.FieldsInOrder (freezeFields fields)) :
    (Value.table (sortFields (freezeFields fields))).InOrder := by
  refine inOrder_sortFields ?_ hall
  rw [keys_freezeFields]
  exact (soundFields_iff.mp h).1

mutual

/-- A sound draft becomes a value in order. -/
theorem Sound.freeze : ∀ d : Draft, d.Sound → d.freeze.InOrder
  | .value _, h => h
  | .table _ _ fields, h => h.inOrder (SoundFields.freezeFields fields h)
  | .tables items, h => SoundItems.freezeItems items h

theorem SoundFields.freezeFields : ∀ fields : List (String × Draft), SoundFields fields →
    Value.FieldsInOrder (freezeFields fields)
  | [], _ => trivial
  | (_, d) :: rest, h => ⟨Sound.freeze d h.2.1, SoundFields.freezeFields rest h.2.2⟩

theorem SoundItems.freezeItems : ∀ items : List (List (String × Draft)), SoundItems items →
    Value.ItemsInOrder (freezeItems items)
  | [], _ => trivial
  | fields :: rest, h =>
    ⟨h.1.inOrder (SoundFields.freezeFields fields h.1), SoundItems.freezeItems rest h.2⟩

end

end Draft

/-! ## Reading -/

theorem readScalar_inOrder {cs rest : List Char} {v : Value} (h : readScalar cs = some (v, rest)) :
    v.InOrder := by
  unfold readScalar at h
  split at h
  · cases h
  · split_ifs at h
    · obtain ⟨r, -, heq⟩ := Option.map_eq_some_iff.mp h
      cases heq
      trivial
    · split at h <;> cases h
      trivial
    · split at h <;> cases h
      trivial
    · split at h
      · cases h
        trivial
      · split at h
        · cases h
          trivial
        · split at h
          · cases h
            trivial
          · obtain ⟨r, -, heq⟩ := Option.map_eq_some_iff.mp h
            cases heq
            trivial

mutual

theorem readValue_inOrder : ∀ {fuel depth : Nat} {cs rest : List Char} {v : Value},
    readValue fuel depth cs = some (v, rest) → v.InOrder
  | 0, _, _, _, _, h => by
    rw [readValue] at h
    cases h
  | fuel + 1, depth, cs, rest, v, h => by
    rw [readValue.eq_def] at h
    simp only at h
    split at h
    · split_ifs at h
      obtain ⟨⟨items, more⟩, hitems, heq⟩ := Option.bind_eq_some_iff.mp h
      cases heq
      exact readItems_inOrder hitems
    · split_ifs at h
      split at h
      · cases h
        exact ⟨.nil, trivial⟩
      · obtain ⟨⟨fields, more⟩, hfields, heq⟩ := Option.bind_eq_some_iff.mp h
        cases heq
        have hnone : Draft.SoundFields [] := trivial
        exact Draft.Sound.freeze (.table false false fields) (readPairs_sound hnone hfields)
    · exact readScalar_inOrder h

theorem readItems_inOrder : ∀ {fuel depth : Nat} {cs rest : List Char} {items : List Value},
    readItems fuel depth cs = some (items, rest) → Value.ItemsInOrder items
  | 0, _, _, _, _, h => by
    rw [readItems] at h
    cases h
  | fuel + 1, depth, cs, rest, items, h => by
    rw [readItems.eq_def] at h
    simp only at h
    split at h
    · cases h
      trivial
    · obtain ⟨⟨v, more⟩, hv, h⟩ := Option.bind_eq_some_iff.mp h
      simp only at h
      split at h
      · obtain ⟨⟨items, more⟩, hitems, heq⟩ := Option.bind_eq_some_iff.mp h
        cases heq
        exact ⟨readValue_inOrder hv, readItems_inOrder hitems⟩
      · cases h
        exact ⟨readValue_inOrder hv, trivial⟩
      · cases h

theorem readPairs_sound : ∀ {fuel depth : Nat} {before fields : Draft.Fields}
    {cs rest : List Char}, Draft.SoundFields before →
      readPairs fuel depth before cs = some (fields, rest) → Draft.SoundFields fields
  | 0, _, _, _, _, _, _, h => by
    rw [readPairs] at h
    cases h
  | fuel + 1, depth, before, fields, cs, rest, hbefore, h => by
    rw [readPairs] at h
    obtain ⟨⟨⟨path, key⟩, more⟩, -, h⟩ := Option.bind_eq_some_iff.mp h
    obtain ⟨⟨_, more⟩, -, h⟩ := Option.bind_eq_some_iff.mp h
    obtain ⟨⟨v, more⟩, hv, h⟩ := Option.bind_eq_some_iff.mp h
    obtain ⟨after, hafter, h⟩ := Option.bind_eq_some_iff.mp h
    have hsound : Draft.SoundFields after :=
      hbefore.assign (d := .value v) (readValue_inOrder hv) hafter
    split at h
    · exact readPairs_sound hsound h
    · cases h
      exact hsound
    · cases h

end

namespace Progress

/-- Nothing read so far has a key twice. -/
structure Sound (p : Progress) : Prop where
  root : Draft.SoundFields p.root
  fields : Draft.SoundFields p.fields

variable {p p' : Progress} {cs rest : List Char} {fields : Draft.Fields}

theorem sound_initial : initial.Sound := ⟨trivial, trivial⟩

theorem Sound.close (h : p.Sound) (hclose : p.close = some fields) : Draft.SoundFields fields := by
  rw [Progress.close] at hclose
  split at hclose
  · cases hclose
    exact h.fields
  · exact h.root.closeTable h.fields hclose
  · exact h.root.closeItem h.fields hclose

theorem Sound.pair (h : p.Sound) (hpair : p.pair cs = some (p', rest)) : p'.Sound := by
  rw [Progress.pair] at hpair
  obtain ⟨⟨⟨path, key⟩, more⟩, -, hpair⟩ := Option.bind_eq_some_iff.mp hpair
  obtain ⟨⟨_, more⟩, -, hpair⟩ := Option.bind_eq_some_iff.mp hpair
  obtain ⟨⟨v, more⟩, hv, hpair⟩ := Option.bind_eq_some_iff.mp hpair
  obtain ⟨⟨_, more⟩, -, hpair⟩ := Option.bind_eq_some_iff.mp hpair
  obtain ⟨after, hafter, heq⟩ := Option.bind_eq_some_iff.mp hpair
  cases heq
  exact ⟨h.root, h.fields.assign (d := .value v) (readValue_inOrder hv) hafter⟩

theorem Sound.tableHeader (h : p.Sound) (hheader : p.tableHeader cs = some (p', rest)) :
    p'.Sound := by
  rw [Progress.tableHeader] at hheader
  obtain ⟨⟨⟨path, key⟩, more⟩, -, hheader⟩ := Option.bind_eq_some_iff.mp hheader
  obtain ⟨⟨_, more⟩, -, hheader⟩ := Option.bind_eq_some_iff.mp hheader
  obtain ⟨⟨_, more⟩, -, hheader⟩ := Option.bind_eq_some_iff.mp hheader
  obtain ⟨root, hroot, hheader⟩ := Option.bind_eq_some_iff.mp hheader
  obtain ⟨⟨removed, table⟩, hopen, heq⟩ := Option.bind_eq_some_iff.mp hheader
  cases heq
  obtain ⟨hremoved, htable⟩ := (h.close hroot).openTable hopen
  exact ⟨hremoved, htable⟩

theorem Sound.itemHeader (h : p.Sound) (hheader : p.itemHeader cs = some (p', rest)) :
    p'.Sound := by
  rw [Progress.itemHeader] at hheader
  obtain ⟨⟨⟨path, key⟩, more⟩, -, hheader⟩ := Option.bind_eq_some_iff.mp hheader
  obtain ⟨⟨_, more⟩, -, hheader⟩ := Option.bind_eq_some_iff.mp hheader
  obtain ⟨⟨_, more⟩, -, hheader⟩ := Option.bind_eq_some_iff.mp hheader
  obtain ⟨⟨_, more⟩, -, hheader⟩ := Option.bind_eq_some_iff.mp hheader
  obtain ⟨root, hroot, hheader⟩ := Option.bind_eq_some_iff.mp hheader
  obtain ⟨opened, hopen, heq⟩ := Option.bind_eq_some_iff.mp hheader
  cases heq
  exact ⟨(h.close hroot).openItem hopen, trivial⟩

theorem Sound.lines {fuel : Nat} (h : p.Sound) (hlines : lines fuel p cs = some p') :
    p'.Sound := by
  induction fuel generalizing p cs with
  | zero => cases hlines
  | succ fuel ih =>
    rw [Progress.lines] at hlines
    split at hlines
    · cases hlines
      exact h
    · obtain ⟨⟨next, more⟩, hnext, hlines⟩ := Option.bind_eq_some_iff.mp hlines
      exact ih (h.itemHeader hnext) hlines
    · obtain ⟨⟨next, more⟩, hnext, hlines⟩ := Option.bind_eq_some_iff.mp hlines
      exact ih (h.tableHeader hnext) hlines
    · split_ifs at hlines
      · obtain ⟨⟨_, more⟩, -, hlines⟩ := Option.bind_eq_some_iff.mp hlines
        exact ih h hlines
      · obtain ⟨⟨next, more⟩, hnext, hlines⟩ := Option.bind_eq_some_iff.mp hlines
        exact ih (h.pair hnext) hlines

end Progress

/-- What is read from a document is in order: in every table, however deep, the keys ascend. -/
theorem parse_inOrder {text : String} {v : Value} (h : parse text = some v) : v.InOrder := by
  obtain ⟨p, hp, h⟩ := Option.bind_eq_some_iff.mp h
  obtain ⟨fields, hfields, heq⟩ := Option.bind_eq_some_iff.mp h
  cases heq
  have hsound : p.Sound := Progress.sound_initial.lines hp
  exact Draft.Sound.freeze (.table false false fields) (hsound.close hfields)

end Paymaster.Toml

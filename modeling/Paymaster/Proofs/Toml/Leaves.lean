import Mathlib.Data.List.Lex
import Paymaster.Toml.Value
/-!
# The texts of a TOML value

The texts in a value, however deep, are its leaves here, and each of them has a place: the steps that
lead to it, into lists by index and into tables by key. The list of all leaves with their places is
what a walk through the value meets, item after item and key after key. In a value whose tables are in
order it holds each text at exactly its place, and the places are in order too.
-/

namespace Paymaster.Toml

/-- A step into a value. -/
inductive Step where
  /-- To the item of a list at an index. -/
  | item (index : Nat)
  /-- To the field of a table under a key. -/
  | field (key : String)
  deriving DecidableEq, Repr

/-- One step comes before another one into the same list or table. -/
inductive Step.Before : Step → Step → Prop
  | item {i j : Nat} (h : i < j) : Before (.item i) (.item j)
  | field {k l : String} (h : k < l) : Before (.field k) (.field l)

/-- One place comes before another one, as decided by the first steps that differ. -/
def Precedes : List Step → List Step → Prop := List.Lex Step.Before

theorem Precedes.asymm {p q : List Step} (h : Precedes p q) : ¬Precedes q p := by
  refine List.lex_asymm ?_ h
  rintro x y (hij | hkl) hback
  · cases hback
    omega
  · cases hback
    exact String.lt_asymm hkl ‹_›

namespace Value

/-- What stands at a place of a value. -/
def at? : List Step → Value → Option Value
  | [], v => some v
  | .item i :: rest, .list items => items[i]?.bind (at? rest)
  | .field k :: rest, .table fields => (fields.lookup k).bind (at? rest)
  | _ :: _, _ => none

mutual

/-- The keys of all tables ascend. -/
def InOrder : Value → Prop
  | .list items => ItemsInOrder items
  | .table fields => (fields.map Prod.fst).Pairwise (· < ·) ∧ FieldsInOrder fields
  | _ => True

/-- In all items the keys ascend. -/
def ItemsInOrder : List Value → Prop
  | [] => True
  | v :: rest => InOrder v ∧ ItemsInOrder rest

/-- In all fields the keys ascend. -/
def FieldsInOrder : List (String × Value) → Prop
  | [] => True
  | (_, v) :: rest => InOrder v ∧ FieldsInOrder rest

end

/-- Leaves with the places that they have one level further up. -/
def behind (step : Step) (leaves : List (List Step × String)) : List (List Step × String) :=
  leaves.map fun x => (step :: x.1, x.2)

mutual

/-- The texts of a value with their places, in the order of a walk through it. -/
def leaves : Value → List (List Step × String)
  | .text s => [([], s)]
  | .list items => itemLeaves 0 items
  | .table fields => fieldLeaves fields
  | _ => []

/-- The texts of the items of a list from an index on. -/
def itemLeaves (i : Nat) : List Value → List (List Step × String)
  | [] => []
  | v :: rest => behind (.item i) (leaves v) ++ itemLeaves (i + 1) rest

/-- The texts of the fields of a table. -/
def fieldLeaves : List (String × Value) → List (List Step × String)
  | [] => []
  | (k, v) :: rest => behind (.field k) (leaves v) ++ fieldLeaves rest

end

mutual

/-- The value with other texts, and all else as it is. -/
def mapTexts (f : String → String) : Value → Value
  | .text s => .text (f s)
  | .list items => .list (mapItems f items)
  | .table fields => .table (mapFields f fields)
  | v => v

/-- Items with other texts. -/
def mapItems (f : String → String) : List Value → List Value
  | [] => []
  | v :: rest => mapTexts f v :: mapItems f rest

/-- Fields with other texts, under the same keys. -/
def mapFields (f : String → String) : List (String × Value) → List (String × Value)
  | [] => []
  | (k, v) :: rest => (k, mapTexts f v) :: mapFields f rest

end

/-- Two values are of one form, as far as their first level shows: their texts are related, lists
have as many items, tables have the same keys in the same order, and all else is equal. -/
inductive Matches (related : String → String → Prop) : Value → Value → Prop
  | text {s t : String} (h : related s t) : Matches related (.text s) (.text t)
  | int (n : Int) : Matches related (.int n) (.int n)
  | float (x : Decimal.Binary64) : Matches related (.float x) (.float x)
  | bool (b : Bool) : Matches related (.bool b) (.bool b)
  | datetime (d : Datetime) : Matches related (.datetime d) (.datetime d)
  | list {items items' : List Value} (h : items'.length = items.length) :
      Matches related (.list items) (.list items')
  | table {fields fields' : List (String × Value)}
      (h : fields'.map Prod.fst = fields.map Prod.fst) :
      Matches related (.table fields) (.table fields')

variable {f : String → String} {p : List Step} {s : String} {v : Value} {items : List Value}
  {fields : List (String × Value)}

/-! ## Other texts -/

theorem mapItems_eq (f : String → String) (items : List Value) :
    mapItems f items = items.map (mapTexts f) := by
  induction items with
  | nil => rfl
  | cons v rest ih => rw [mapItems, ih, List.map_cons]

theorem mapFields_eq (f : String → String) (fields : List (String × Value)) :
    mapFields f fields = fields.map fun x => (x.1, mapTexts f x.2) := by
  induction fields with
  | nil => rfl
  | cons x rest ih => rw [mapFields, ih, List.map_cons]

theorem lookup_mapFields (k : String) :
    (mapFields f fields).lookup k = (fields.lookup k).map (mapTexts f) := by
  induction fields with
  | nil => rfl
  | cons x rest ih =>
    obtain ⟨l, v⟩ := x
    rw [mapFields, List.lookup_cons, List.lookup_cons]
    cases hk : k == l with
    | true => rfl
    | false => exact ih

theorem at?_mapTexts (p : List Step) (v : Value) :
    (v.mapTexts f).at? p = (v.at? p).map (mapTexts f) := by
  induction p generalizing v with
  | nil => rfl
  | cons step rest ih =>
    cases step with
    | item i =>
      cases v with
      | list items =>
        rw [mapTexts, at?, at?, mapItems_eq, List.getElem?_map]
        cases items[i]? with
        | none => rfl
        | some v => exact ih v
      | _ => rfl
    | field k =>
      cases v with
      | table fields =>
        rw [mapTexts, at?, at?, lookup_mapFields]
        cases fields.lookup k with
        | none => rfl
        | some v => exact ih v
      | _ => rfl

/-- A value with other texts has the form of the value. -/
theorem matches_mapTexts {related : String → String → Prop}
    (h : ∀ s, v = .text s → related s (f s)) : Matches related v (v.mapTexts f) := by
  cases v with
  | text s => exact .text (h s rfl)
  | int n => exact .int n
  | float x => exact .float x
  | bool b => exact .bool b
  | datetime d => exact .datetime d
  | list items => exact .list (by rw [mapItems_eq, List.length_map])
  | table fields =>
    refine .table ?_
    rw [mapFields_eq, List.map_map]
    rfl

/-! ## Every leaf at its place -/

theorem mem_behind {step : Step} {found : List (List Step × String)} :
    (p, s) ∈ behind step found ↔ ∃ rest, p = step :: rest ∧ (rest, s) ∈ found := by
  constructor
  · intro h
    obtain ⟨⟨rest, t⟩, hmem, heq⟩ := List.mem_map.mp h
    cases heq
    exact ⟨rest, rfl, hmem⟩
  · rintro ⟨rest, rfl, hmem⟩
    exact List.mem_map.mpr ⟨(rest, s), hmem, rfl⟩

/-- The leaves of items are those of each item, behind its index. -/
theorem mem_itemLeaves {i : Nat} : (p, s) ∈ itemLeaves i items ↔
    ∃ j rest v, p = .item (i + j) :: rest ∧ items[j]? = some v ∧ (rest, s) ∈ leaves v := by
  induction items generalizing i with
  | nil => simp [itemLeaves]
  | cons v more ih =>
    rw [itemLeaves, List.mem_append, mem_behind, ih]
    constructor
    · rintro (⟨rest, rfl, hmem⟩ | ⟨j, rest, w, rfl, hw, hmem⟩)
      · exact ⟨0, rest, v, rfl, rfl, hmem⟩
      · exact ⟨j + 1, rest, w, by rw [Nat.add_assoc, Nat.add_comm 1 j], hw, hmem⟩
    · rintro ⟨j, rest, w, rfl, hw, hmem⟩
      cases j with
      | zero =>
        cases hw
        exact .inl ⟨rest, rfl, hmem⟩
      | succ j => exact .inr ⟨j, rest, w, by rw [Nat.add_assoc, Nat.add_comm 1 j], hw, hmem⟩

/-- The leaves of fields are those of each field, behind its key. -/
theorem mem_fieldLeaves : (p, s) ∈ fieldLeaves fields ↔
    ∃ k rest v, p = .field k :: rest ∧ (k, v) ∈ fields ∧ (rest, s) ∈ leaves v := by
  induction fields with
  | nil => simp [fieldLeaves]
  | cons x more ih =>
    obtain ⟨l, v⟩ := x
    rw [fieldLeaves, List.mem_append, mem_behind, ih]
    constructor
    · rintro (⟨rest, rfl, hmem⟩ | ⟨k, rest, w, rfl, hw, hmem⟩)
      · exact ⟨l, rest, v, rfl, List.mem_cons_self, hmem⟩
      · exact ⟨k, rest, w, rfl, List.mem_cons_of_mem _ hw, hmem⟩
    · rintro ⟨k, rest, w, rfl, hw, hmem⟩
      rcases List.mem_cons.mp hw with heq | hw
      · cases heq
        exact .inl ⟨rest, rfl, hmem⟩
      · exact .inr ⟨k, rest, w, rfl, hw, hmem⟩

theorem ItemsInOrder.of_mem (h : ItemsInOrder items) (hv : v ∈ items) : v.InOrder := by
  induction items with
  | nil => cases hv
  | cons w rest ih =>
    rcases List.mem_cons.mp hv with rfl | hv
    · exact h.1
    · exact ih h.2 hv

theorem fieldsInOrder_iff : FieldsInOrder fields ↔ ∀ x ∈ fields, x.2.InOrder := by
  induction fields with
  | nil => simp [FieldsInOrder]
  | cons x rest ih => rw [FieldsInOrder, ih, List.forall_mem_cons]

theorem FieldsInOrder.of_mem {k : String} (h : FieldsInOrder fields) (hv : (k, v) ∈ fields) :
    v.InOrder := fieldsInOrder_iff.mp h (k, v) hv

/-- Where keys ascend, each of them is there once. -/
theorem lookup_eq_some_iff_mem (h : (fields.map Prod.fst).Pairwise (· < ·)) {k : String} :
    fields.lookup k = some v ↔ (k, v) ∈ fields := by
  induction fields with
  | nil => simp
  | cons x rest ih =>
    obtain ⟨l, w⟩ := x
    rw [List.map_cons, List.pairwise_cons] at h
    rw [List.lookup_cons, List.mem_cons]
    cases hkl : k == l with
    | true =>
      have heq : k = l := beq_iff_eq.mp hkl
      subst heq
      constructor
      · intro hv
        cases hv
        exact .inl rfl
      · rintro (hv | hv)
        · cases hv
          rfl
        · exact absurd (h.1 k (List.mem_map_of_mem hv)) (String.lt_irrefl k)
    | false =>
      have hne : k ≠ l := fun heq => by simp [heq] at hkl
      show rest.lookup k = some v ↔ _
      rw [ih h.2]
      simp [hne]

/-- The leaves of a value are its texts, each with the place where it stands. -/
theorem mem_leaves (hv : v.InOrder) : (p, s) ∈ leaves v ↔ v.at? p = some (.text s) := by
  induction p generalizing v with
  | nil =>
    cases v with
    | text t => simp [leaves, at?, eq_comm]
    | list items => simp [leaves, at?, mem_itemLeaves]
    | table fields => simp [leaves, at?, mem_fieldLeaves]
    | _ => simp [leaves, at?]
  | cons step rest ih =>
    cases v with
    | list items =>
      rw [leaves, mem_itemLeaves]
      cases step with
      | field k => simp [at?]
      | item i =>
        rw [at?, Option.bind_eq_some_iff]
        constructor
        · rintro ⟨j, rest', w, heq, hw, hmem⟩
          rw [Nat.zero_add] at heq
          cases heq
          exact ⟨w, hw, (ih (ItemsInOrder.of_mem hv (List.mem_of_getElem? hw))).mp hmem⟩
        · rintro ⟨w, hw, hat⟩
          refine ⟨i, rest, w, by rw [Nat.zero_add], hw, ?_⟩
          exact (ih (ItemsInOrder.of_mem hv (List.mem_of_getElem? hw))).mpr hat
    | table fields =>
      rw [leaves, mem_fieldLeaves]
      cases step with
      | item i => simp [at?]
      | field k =>
        rw [at?, Option.bind_eq_some_iff]
        constructor
        · rintro ⟨l, rest', w, heq, hw, hmem⟩
          cases heq
          exact ⟨w, (lookup_eq_some_iff_mem hv.1).mpr hw, (ih (hv.2.of_mem hw)).mp hmem⟩
        · rintro ⟨w, hw, hat⟩
          have hw' := (lookup_eq_some_iff_mem hv.1).mp hw
          exact ⟨k, rest, w, rfl, hw', (ih (hv.2.of_mem hw')).mpr hat⟩
    | _ => cases step <;> simp [leaves, at?]

/-! ## The order of the leaves -/

theorem pairwise_behind {step : Step} {found : List (List Step × String)}
    (h : found.Pairwise fun x y => Precedes x.1 y.1) :
    (behind step found).Pairwise fun x y => Precedes x.1 y.1 := by
  rw [behind, List.pairwise_map]
  exact h.imp fun hxy => List.Lex.cons hxy

mutual

/-- The leaves of a value stand in the order of their places. -/
theorem pairwise_leaves : ∀ v : Value, v.InOrder → v.leaves.Pairwise fun x y => Precedes x.1 y.1
  | .text s, _ => by rw [leaves]; exact List.pairwise_singleton _ _
  | .list items, h => by rw [leaves]; exact pairwise_itemLeaves 0 items h
  | .table fields, h => by rw [leaves]; exact pairwise_fieldLeaves fields h.1 h.2
  | .int _, _ => .nil
  | .float _, _ => .nil
  | .bool _, _ => .nil
  | .datetime _, _ => .nil

theorem pairwise_itemLeaves (i : Nat) : ∀ items : List Value, ItemsInOrder items →
    (itemLeaves i items).Pairwise fun x y => Precedes x.1 y.1
  | [], _ => .nil
  | v :: rest, h => by
    rw [itemLeaves, List.pairwise_append]
    refine ⟨pairwise_behind (pairwise_leaves v h.1), pairwise_itemLeaves (i + 1) rest h.2, ?_⟩
    rintro ⟨p, s⟩ hp ⟨q, t⟩ hq
    obtain ⟨p', rfl, -⟩ := mem_behind.mp hp
    obtain ⟨j, q', w, rfl, -, -⟩ := mem_itemLeaves.mp hq
    exact List.Lex.rel (.item (by omega))

theorem pairwise_fieldLeaves : ∀ fields : List (String × Value),
    (fields.map Prod.fst).Pairwise (· < ·) → FieldsInOrder fields →
      (fieldLeaves fields).Pairwise fun x y => Precedes x.1 y.1
  | [], _, _ => .nil
  | (k, v) :: rest, hkeys, h => by
    rw [List.map_cons, List.pairwise_cons] at hkeys
    rw [fieldLeaves, List.pairwise_append]
    refine ⟨pairwise_behind (pairwise_leaves v h.1), pairwise_fieldLeaves rest hkeys.2 h.2, ?_⟩
    rintro ⟨p, s⟩ hp ⟨q, t⟩ hq
    obtain ⟨p', rfl, -⟩ := mem_behind.mp hp
    obtain ⟨l, q', w, rfl, hw, -⟩ := mem_fieldLeaves.mp hq
    exact List.Lex.rel (.field (hkeys.1 l (List.mem_map_of_mem hw)))

end

end Value
end Paymaster.Toml

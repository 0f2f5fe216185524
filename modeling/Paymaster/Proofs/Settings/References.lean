import Paymaster.Proofs.Outcomes
import Paymaster.Proofs.Toml.KeyOrder
import Paymaster.Settings.Environment
/-!
# References resolved

Resolving walks through a value and looks at each text once. So its outcome is decided by the leaves
of the value in their order: the first leaf that refers to nothing is the error, and if there is none
the value comes back with other texts in it and nothing else changed. Whether a text refers to a
variable, and what it then stands for, is told here without the walk.
-/

namespace Paymaster

/-- A variable is set to a text. -/
def Sets (vars : List (String × List UInt8)) (name value : String) : Prop :=
  vars.lookup name = some (Text.Utf8.encode value)

/-- The environment holds the variables that are set to texts. -/
theorem Environment.lookup_ofVariables (vars : List (String × List UInt8)) (name : String) :
    (ofVariables vars).lookup name = (vars.lookup name).bind Text.Utf8.decode? := by
  have hfilter (found : Environment) (hidden : String) :
      (found.filter fun x => x.1 != hidden).lookup name =
        if name = hidden then none else found.lookup name := by
    induction found with
    | nil => simp
    | cons x rest ih =>
      obtain ⟨other, value⟩ := x
      by_cases hother : other = hidden
      · rw [List.filter_cons_of_neg (by simpa using hother), ih, List.lookup_cons]
        by_cases hname : name = hidden
        · simp [hname]
        · have hne : (name == other) = false := by simpa [hother] using hname
          simp [hname, hne]
      · rw [List.filter_cons_of_pos (by simpa using hother), List.lookup_cons, List.lookup_cons, ih]
        by_cases hname : name = hidden
        · have hne : (name == other) = false := by
            simpa [hname] using fun h => hother h.symm
          simp [hname ▸ hne, hname]
        · simp [hname]
  induction vars with
  | nil => rfl
  | cons x rest ih =>
    obtain ⟨other, bytes⟩ := x
    rw [ofVariables, List.lookup_cons]
    cases hdecode : Text.Utf8.decode? bytes with
    | some value =>
      simp only [List.lookup_cons]
      cases name == other with
      | true => exact hdecode.symm
      | false => exact ih
    | none =>
      simp only [hfilter]
      cases hname : name == other with
      | true => simp [beq_iff_eq.mp hname, hdecode]
      | false => simp [show name ≠ other by simpa using hname, ih]

theorem Environment.get?_ofVariables {vars : List (String × List UInt8)} {name value : String} :
    (ofVariables vars).get? name = some value ↔ Sets vars name value := by
  rw [get?, lookup_ofVariables, Sets, Option.bind_eq_some_iff]
  constructor
  · rintro ⟨bytes, hbytes, hdecode⟩
    rw [hbytes, Text.Utf8.encode_of_decode? hdecode]
  · intro h
    exact ⟨_, h, Text.Utf8.decode?_encode value⟩

namespace Settings

open Toml (Value Step Precedes)

variable {env : Environment} {vars : List (String × List UInt8)} {s t name : String}
  {e : ReferenceError} {v w : Value}

/-! ## What a text stands for -/

/-- A text refers to a variable: behind the mark stands the name, with blanks around it or none. -/
def RefersTo (s name : String) : Prop := ∃ rest, s = referenceMark ++ rest ∧ Text.trim rest = name

/-- What a text stands for: the value of the variable that it refers to, whatever the value looks
like, and itself if it refers to none. -/
inductive StandsFor (vars : List (String × List UInt8)) : String → String → Prop
  | plain {s : String} (h : ∀ name, ¬RefersTo s name) : StandsFor vars s s
  | value {s name value : String} (h : RefersTo s name) (hname : name ≠ "")
      (hset : Sets vars name value) : StandsFor vars s value

/-- What is wrong with a reference: it names no variable, or one that is not set to a text. -/
inductive LeadsNowhere (vars : List (String × List UInt8)) : String → ReferenceError → Prop
  | unnamed {s : String} (h : RefersTo s "") : LeadsNowhere vars s .noName
  | unset {s name : String} (h : RefersTo s name) (hname : name ≠ "")
      (hunset : ∀ value, ¬Sets vars name value) : LeadsNowhere vars s (.missing name)

/-- What is wrong with the first text of a value that leads nowhere: no other one comes before it, with
items in their order and fields in the order of their keys. -/
def FirstFlaw (vars : List (String × List UInt8)) (v : Value) (e : ReferenceError) : Prop :=
  ∃ p s, v.at? p = some (.text s) ∧ LeadsNowhere vars s e ∧
    ∀ q t e', v.at? q = some (.text t) → LeadsNowhere vars t e' → q = p ∨ Precedes p q

theorem RefersTo.unique {name' : String} (h : RefersTo s name) (h' : RefersTo s name') :
    name' = name := by
  obtain ⟨rest, rfl, rfl⟩ := h
  obtain ⟨rest', heq, rfl⟩ := h'
  have hlist := congrArg String.toList heq
  rw [String.toList_append, String.toList_append] at hlist
  rw [String.toList_injective (List.append_cancel_left hlist)]

theorem reference?_eq_some : reference? s = some name ↔ RefersTo s name := by
  rw [reference?, Text.stripPrefix?, Option.map_eq_some_iff]
  constructor
  · rintro ⟨rest, hrest, rfl⟩
    split at hrest
    · rename_i hmark
      cases hrest
      obtain ⟨more, hmore⟩ := List.isPrefixOf_iff_prefix.mp hmark
      refine ⟨_, ?_, rfl⟩
      apply String.toList_injective
      rw [← hmore, List.drop_left, String.toList_append, String.toList_ofList, hmore]
    · cases hrest
  · rintro ⟨rest, rfl, rfl⟩
    refine ⟨rest, ?_, rfl⟩
    rw [if_pos (List.isPrefixOf_iff_prefix.mpr (by simp [String.toList_append])),
      String.toList_append, List.drop_left, String.ofList_toList]

/-- Each text stands for another one, or leads nowhere. -/
theorem resolveText_cases (vars : List (String × List UInt8)) (s : String) :
    (∃ t, resolveText (.ofVariables vars) s = .ok t ∧ StandsFor vars s t) ∨
      ∃ e, resolveText (.ofVariables vars) s = .error e ∧ LeadsNowhere vars s e := by
  rw [resolveText]
  cases href : reference? s with
  | none =>
    refine .inl ⟨s, rfl, .plain fun name h => ?_⟩
    rw [reference?_eq_some.mpr h] at href
    cases href
  | some name =>
    have h := reference?_eq_some.mp href
    by_cases hname : name = ""
    · subst hname
      exact .inr ⟨.noName, rfl, .unnamed h⟩
    · have hempty : ¬name.isEmpty = true := by rwa [String.isEmpty_iff]
      simp only [if_neg hempty]
      cases hvalue : (Environment.ofVariables vars).get? name with
      | some value =>
        exact .inl ⟨value, rfl, .value h hname (Environment.get?_ofVariables.mp hvalue)⟩
      | none =>
        refine .inr ⟨_, rfl, .unset h hname fun value hset => ?_⟩
        rw [Environment.get?_ofVariables.mpr hset] at hvalue
        cases hvalue

theorem StandsFor.unique {t' : String} (h : StandsFor vars s t) (h' : StandsFor vars s t') :
    t' = t := by
  cases h with
  | plain hplain =>
    cases h' with
    | plain => rfl
    | value href => exact absurd href (hplain _)
  | value href hname hset =>
    cases h' with
    | plain hplain => exact absurd href (hplain _)
    | value href' hname' hset' =>
      cases href.unique href'
      rw [← Environment.get?_ofVariables] at hset hset'
      exact Option.some.inj (hset'.symm.trans hset)

theorem LeadsNowhere.unique {e' : ReferenceError} (h : LeadsNowhere vars s e)
    (h' : LeadsNowhere vars s e') : e' = e := by
  cases h with
  | unnamed href =>
    cases h' with
    | unnamed => rfl
    | unset href' hname => exact absurd (href.unique href') hname
  | unset href hname =>
    cases h' with
    | unnamed href' => exact absurd (href'.unique href) hname
    | unset href' => rw [href.unique href']

theorem StandsFor.not_leadsNowhere (h : StandsFor vars s t) : ¬LeadsNowhere vars s e := by
  intro hnowhere
  cases hnowhere with
  | unnamed href =>
    cases h with
    | plain hplain => exact hplain _ href
    | value href' hname => exact hname (href.unique href')
  | unset href hname hunset =>
    cases h with
    | plain hplain => exact hplain _ href
    | value href' _ hset =>
      cases href.unique href'
      exact hunset _ hset

theorem resolveText_eq_ok :
    resolveText (.ofVariables vars) s = .ok t ↔ StandsFor vars s t := by
  rcases resolveText_cases vars s with ⟨u, hok, hstands⟩ | ⟨e, herror, hnowhere⟩
  · rw [hok, Except.ok.injEq]
    exact ⟨fun heq => heq ▸ hstands, fun h => h.unique hstands⟩
  · rw [herror]
    exact ⟨nofun, fun h => absurd hnowhere h.not_leadsNowhere⟩

theorem resolveText_eq_error :
    resolveText (.ofVariables vars) s = .error e ↔ LeadsNowhere vars s e := by
  rcases resolveText_cases vars s with ⟨t, hok, hstands⟩ | ⟨e', herror, hnowhere⟩
  · rw [hok]
    exact ⟨nofun, fun h => absurd h hstands.not_leadsNowhere⟩
  · rw [herror, Except.error.injEq]
    exact ⟨fun heq => heq ▸ hnowhere, fun h => h.unique hnowhere⟩

/-! ## The walk -/

/-- What a text is replaced by. -/
def replacement (env : Environment) (s : String) : String :=
  match resolveText env s with
  | .ok t => t
  | .error _ => s

/-- What is wrong with a leaf. -/
def flaw? (env : Environment) (leaf : List Step × String) : Option ReferenceError :=
  match resolveText env leaf.2 with
  | .ok _ => none
  | .error e => some e

/-- A result, unless something is wrong with one of the leaves. -/
def unlessFlawed {α : Type} (env : Environment) (leaves : List (List Step × String)) (a : α) :
    Except ReferenceError α :=
  match leaves.findSome? (flaw? env) with
  | some e => .error e
  | none => .ok a

theorem map_unlessFlawed {α β : Type} {leaves : List (List Step × String)} {a : α} {f : α → β} :
    (unlessFlawed env leaves a).map f = unlessFlawed env leaves (f a) := by
  rw [unlessFlawed, unlessFlawed]
  cases leaves.findSome? (flaw? env) <;> rfl

theorem unlessFlawed_append {α β : Type} {front back : List (List Step × String)} {a : α} {b : β} :
    unlessFlawed env (front ++ back) b =
      match unlessFlawed env front a with
      | .error e => .error e
      | .ok _ => unlessFlawed env back b := by
  rw [unlessFlawed, unlessFlawed, List.findSome?_append]
  cases front.findSome? (flaw? env) <;> rfl

/-- Only the texts of the leaves decide whether something is wrong with them, not their places. -/
theorem unlessFlawed_behind {α : Type} {step : Step} {leaves : List (List Step × String)} {a : α} :
    unlessFlawed env (Value.behind step leaves) a = unlessFlawed env leaves a := by
  rw [unlessFlawed, unlessFlawed, Value.behind, List.findSome?_map]
  rfl

mutual

/-- The walk through a value ends at the first flaw of its leaves, or replaces all of them. -/
theorem resolve_eq (env : Environment) : ∀ v : Value,
    resolve env v = unlessFlawed env v.leaves (v.mapTexts (replacement env))
  | .text s => by
    rw [resolve, Value.leaves, Value.mapTexts, unlessFlawed, replacement, List.findSome?_singleton,
      flaw?]
    cases resolveText env s <;> rfl
  | .list items => by
    rw [resolve, resolveItems_eq env 0 items, map_unlessFlawed, Value.leaves, Value.mapTexts]
  | .table fields => by
    rw [resolve, resolveFields_eq env fields, map_unlessFlawed, Value.leaves, Value.mapTexts]
  | .int _ => rfl
  | .float _ => rfl
  | .bool _ => rfl
  | .datetime _ => rfl

theorem resolveItems_eq (env : Environment) (i : Nat) : ∀ items : List Value,
    resolveItems env items =
      unlessFlawed env (Value.itemLeaves i items) (Value.mapItems (replacement env) items)
  | [] => rfl
  | v :: rest => by
    rw [resolveItems, resolve_eq env v, resolveItems_eq env (i + 1) rest, Value.itemLeaves,
      Value.mapItems, unlessFlawed_append (a := v.mapTexts (replacement env)), unlessFlawed_behind]
    rw [unlessFlawed.eq_def env v.leaves]
    cases v.leaves.findSome? (flaw? env) with
    | some e => rfl
    | none => exact map_unlessFlawed

theorem resolveFields_eq (env : Environment) : ∀ fields : List (String × Value),
    resolveFields env fields =
      unlessFlawed env (Value.fieldLeaves fields) (Value.mapFields (replacement env) fields)
  | [] => rfl
  | (k, v) :: rest => by
    rw [resolveFields, resolve_eq env v, resolveFields_eq env rest, Value.fieldLeaves,
      Value.mapFields, unlessFlawed_append (a := v.mapTexts (replacement env)), unlessFlawed_behind]
    rw [unlessFlawed.eq_def env v.leaves]
    cases v.leaves.findSome? (flaw? env) with
    | some e => rfl
    | none => exact map_unlessFlawed

end

theorem flaw?_eq_none {leaf : List Step × String} :
    flaw? env leaf = none ↔ ∃ t, resolveText env leaf.2 = .ok t := by
  rw [flaw?]
  cases resolveText env leaf.2 <;> simp

theorem flaw?_eq_some {leaf : List Step × String} :
    flaw? env leaf = some e ↔ resolveText env leaf.2 = .error e := by
  rw [flaw?]
  cases resolveText env leaf.2 <;> simp

theorem resolve_eq_ok : resolve env v = .ok w ↔
    (∀ leaf ∈ v.leaves, ∃ t, resolveText env leaf.2 = .ok t) ∧
      w = v.mapTexts (replacement env) := by
  simp only [← flaw?_eq_none, ← List.findSome?_eq_none_iff]
  rw [resolve_eq, unlessFlawed]
  cases v.leaves.findSome? (flaw? env) <;> simp [eq_comm]

theorem resolve_eq_error : resolve env v = .error e ↔ ∃ front leaf back,
    v.leaves = front ++ leaf :: back ∧ resolveText env leaf.2 = .error e ∧
      ∀ before ∈ front, ∃ t, resolveText env before.2 = .ok t := by
  simp only [← flaw?_eq_none, ← flaw?_eq_some, ← List.findSome?_eq_some_iff]
  rw [resolve_eq, unlessFlawed]
  cases v.leaves.findSome? (flaw? env) <;> simp

/-! ## References by their places -/

theorem exists_standsFor_iff : (∃ t, StandsFor vars s t) ↔
    ∀ name, RefersTo s name → name ≠ "" ∧ ∃ value, Sets vars name value := by
  constructor
  · rintro ⟨t, h⟩ name href
    cases h with
    | plain hplain => exact absurd href (hplain name)
    | value href' hname hset =>
      cases href.unique href'
      exact ⟨hname, _, hset⟩
  · intro h
    by_cases hrefers : ∃ name, RefersTo s name
    · obtain ⟨name, href⟩ := hrefers
      obtain ⟨hname, value, hset⟩ := h name href
      exact ⟨value, .value href hname hset⟩
    · exact ⟨s, .plain fun name href => hrefers ⟨name, href⟩⟩

/-- The first flaw in the order of the places is the error. -/
theorem resolve_eq_error_iff_first (hv : v.InOrder) :
    resolve (.ofVariables vars) v = .error e ↔ FirstFlaw vars v e := by
  have hfirst {e : ReferenceError} (h : resolve (.ofVariables vars) v = .error e) :
      FirstFlaw vars v e := by
    obtain ⟨front, ⟨p, s⟩, back, hleaves, herror, hfront⟩ := resolve_eq_error.mp h
    have hp : v.at? p = some (.text s) := (Value.mem_leaves hv).mp (by simp [hleaves])
    refine ⟨p, s, hp, resolveText_eq_error.mp herror, fun q t e' hq hnowhere => ?_⟩
    have hmem : (q, t) ∈ v.leaves := (Value.mem_leaves hv).mpr hq
    have hsorted := Value.pairwise_leaves v hv
    rw [hleaves] at hmem hsorted
    rcases List.mem_append.mp hmem with hmem | hmem
    · obtain ⟨u, hu⟩ := hfront _ hmem
      exact absurd hnowhere (resolveText_eq_ok.mp hu).not_leadsNowhere
    · rcases List.mem_cons.mp hmem with heq | hmem
      · exact .inl (Prod.mk.inj heq).1
      · have hback := (List.pairwise_append.mp hsorted).2.1
        exact .inr ((List.pairwise_cons.mp hback).1 _ hmem)
  refine ⟨hfirst, ?_⟩
  rintro ⟨p, s, hp, hnowhere, hmin⟩
  cases hresolve : resolve (.ofVariables vars) v with
  | ok w =>
    obtain ⟨t, ht⟩ := (resolve_eq_ok.mp hresolve).1 _ ((Value.mem_leaves hv).mpr hp)
    exact absurd hnowhere (resolveText_eq_ok.mp ht).not_leadsNowhere
  | error e' =>
    -- of two first flaws each is the other one or comes before it, so they are the same
    obtain ⟨q, t, hq, hnowhere', hmin'⟩ := hfirst hresolve
    have heq : q = p := by
      rcases hmin q t e' hq hnowhere' with heq | hbefore
      · exact heq
      · rcases hmin' p s e hp hnowhere with heq | hafter
        · exact heq.symm
        · exact absurd hafter hbefore.asymm
    subst heq
    rw [hp] at hq
    cases hq
    rw [hnowhere.unique hnowhere']

/-- Settings are refused for a reference exactly if their file is a document in which some reference
leads nowhere. The tables of a document that is read are in order, so there is a first one. -/
theorem load_eq_reference_error {α : Type} {decoder : Document.Decoder α} {disk : Disk}
    {path : String} : load decoder (.ofVariables vars) disk path = .error (.reference e) ↔
      ∃ text v, disk.readText path = .ok text ∧ Toml.parse text = some v ∧ FirstFlaw vars v e := by
  simp only [load, Except.bind_eq_error, Except.mapError_eq_ok, Except.mapError_eq_error,
    reduceCtorEq, and_false, exists_false, false_or]
  refine exists_congr fun text => ?_
  cases hparse : Toml.parse text with
  | none => simp [throw, throwThe, MonadExceptOf.throw]
  | some v =>
    have hfirst : resolve (.ofVariables vars) v = .error e ↔ FirstFlaw vars v e :=
      resolve_eq_error_iff_first (Toml.parse_inOrder hparse)
    simp [Except.bind_eq_error, Except.mapError_eq_error, hfirst]

/-- Resolving succeeds exactly if every text that refers to a variable, however deep it stands, names
one that is set to a text. Then the result has the form of the value at every place, and every text
in it is what the text in its place stands for: the value of the variable, taken as it is, or the text
itself. Else the error is the flaw of the first text that leads nowhere, items in their order and
fields in the order of their keys. -/
theorem references_resolved_once (hv : v.InOrder) (vars : List (String × List UInt8)) :
    ((∃ w, resolve (.ofVariables vars) v = .ok w) ↔ ∀ p s, v.at? p = some (.text s) →
      ∀ name, RefersTo s name → name ≠ "" ∧ ∃ value, Sets vars name value) ∧
    (∀ w, resolve (.ofVariables vars) v = .ok w →
      ∀ p, Option.Rel (Value.Matches (StandsFor vars)) (v.at? p) (w.at? p)) ∧
    ∀ e, resolve (.ofVariables vars) v = .error e ↔ FirstFlaw vars v e := by
  refine ⟨?_, fun w hw p => ?_, fun e => resolve_eq_error_iff_first hv⟩
  · simp only [← exists_standsFor_iff, ← resolveText_eq_ok]
    constructor
    · rintro ⟨w, hw⟩ p s hp
      exact (resolve_eq_ok.mp hw).1 _ ((Value.mem_leaves hv).mpr hp)
    · intro h
      exact ⟨_, resolve_eq_ok.mpr ⟨fun leaf hleaf => h _ _ ((Value.mem_leaves hv).mp hleaf), rfl⟩⟩
  · obtain ⟨hleaves, rfl⟩ := resolve_eq_ok.mp hw
    rw [Value.at?_mapTexts]
    cases hp : v.at? p with
    | none => exact .none
    | some inner =>
      refine .some (Value.matches_mapTexts fun s hs => ?_)
      subst hs
      obtain ⟨t, ht⟩ := hleaves _ ((Value.mem_leaves hv).mpr hp)
      rw [replacement, ht]
      exact resolveText_eq_ok.mp ht

/-- Settings with a reference in a list within a table, and a text that only looks like one. -/
def nestedSettings : Value :=
  .table [("items", .list [.int 7, .table [("key", .text "env: KEY ")]]), ("name", .text " env:KEY")]

/-- The value of the variable looks like a reference, and stays. -/
theorem references_resolved_once_nested : nestedSettings.InOrder ∧ ∃ w,
    resolve (.ofVariables [("KEY", Text.Utf8.encode "env:OTHER")]) nestedSettings = .ok w ∧
      w.at? [.field "items", .item 1, .field "key"] = some (.text "env:OTHER") ∧
        ∀ p, Option.Rel (Value.Matches (StandsFor [("KEY", Text.Utf8.encode "env:OTHER")]))
          (nestedSettings.at? p) (w.at? p) := by
  have hkeys : ["items", "name"].Pairwise (· < ·) := by decide
  have horder : nestedSettings.InOrder :=
    ⟨hkeys, ⟨trivial, ⟨List.pairwise_singleton _ _, trivial, trivial⟩, trivial⟩, trivial, trivial⟩
  have henv : Environment.ofVariables [("KEY", Text.Utf8.encode "env:OTHER")] =
      [("KEY", "env:OTHER")] := by
    simp [Environment.ofVariables, Text.Utf8.decode?_encode]
  have hresolve : resolve (.ofVariables [("KEY", Text.Utf8.encode "env:OTHER")]) nestedSettings =
      .ok (.table [("items", .list [.int 7, .table [("key", .text "env:OTHER")]]),
        ("name", .text " env:KEY")]) := by
    rw [henv]
    rfl
  exact ⟨horder, _, hresolve, rfl, (references_resolved_once horder _).2.1 _ hresolve⟩

end Settings
end Paymaster

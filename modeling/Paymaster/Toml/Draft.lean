import Paymaster.Toml.Value
/-!
# Building TOML tables

A TOML document defines its tables in pieces: by headers, by keys with points, by tables within
lines. A draft remembers how each table came to be, since that decides whether it may be extended: a
table made only on the way to another may still get its own header; one that a key with points made
takes more keys with points; everything else is closed.
-/

namespace Paymaster.Toml

/-- A value under construction. -/
inductive Draft where
  /-- A value that is complete. -/
  | value (v : Value)
  /-- A table; it was made on the way to another one, perhaps by a key with points. -/
  | table (implicit dotted : Bool) (fields : List (String × Draft))
  /-- A list of tables, one for each header. -/
  | tables (items : List (List (String × Draft)))

namespace Draft

/-- The fields of a table under construction. -/
abbrev Fields := List (String × Draft)

/-- The fields with another value under a key. -/
def replace (key : String) (d : Draft) (fields : Fields) : Fields :=
  fields.map fun x => if x.1 = key then (key, d) else x

/-- Follows a path from table to table, making the tables that are not there, and changes the last
one by a function, which is also told whether a key with points made that table. -/
def descend (dotted : Bool) (change : Bool → Fields → Option Fields) :
    List String → Bool → Fields → Option Fields
  | [], here, fields => change here fields
  | key :: path, _, fields =>
    match fields.lookup key with
    | none => do
      let inner ← descend dotted change path dotted []
      some (fields ++ [(key, .table true dotted inner)])
    | some (.value _) => none
    | some (.tables items) =>
      match items.getLast? with
      | none => none
      | some last => do
        let inner ← descend dotted change path false last
        some (replace key (.tables (items.dropLast ++ [inner])) fields)
    | some (.table implicit byPoints inner) =>
      if dotted && !implicit then none
      else do
        let inner ← descend dotted change path byPoints inner
        some (replace key (.table implicit byPoints inner) fields)

/-- Puts a value under the last part of a key. -/
def assign (path : List String) (key : String) (v : Draft) (fields : Fields) : Option Fields :=
  descend true
    (fun byPoints inner =>
      if byPoints == path.isEmpty then none
      else if (inner.lookup key).isSome then none
      else some (inner ++ [(key, v)]))
    path false fields

/-- Puts a finished table where its header says. -/
def closeTable (path : List String) (key : String) (table : Fields) (root : Fields) : Option Fields :=
  descend false
    (fun _ inner =>
      match inner.lookup key with
      | none => some (inner ++ [(key, .table false false table)])
      | some (.table true _ _) => some (replace key (.table false false table) inner)
      | some _ => none)
    path false root

/-- Puts a finished table at the end of the list that its header names. -/
def closeItem (path : List String) (key : String) (table : Fields) (root : Fields) : Option Fields :=
  descend false
    (fun _ inner =>
      match inner.lookup key with
      | none => some (inner ++ [(key, .tables [table])])
      | some (.tables items) => some (replace key (.tables (items ++ [table])) inner)
      | some _ => none)
    path false root

/-- Finds the table a header opens: nothing may be there but a table made on the way to another. The
second part is what that table already holds, which moves into the opened table. -/
def openTable (path : List String) (key : String) (root : Fields) : Option (Fields × Fields) := do
  let removed ← descend false (fun _ inner => some (inner.filter fun x => x.1 != key)) path false root
  let found ← lookUp path root
  match found with
  | none => some (removed, [])
  | some (.table true false inner) => some (removed, inner)
  | some _ => none
where
  /-- The value under the key at the end of a path; nothing where the path leads nowhere. -/
  lookUp : List String → Fields → Option (Option Draft)
    | [], fields => some (fields.lookup key)
    | step :: rest, fields =>
      match fields.lookup step with
      | none => some none
      | some (.value _) => none
      | some (.tables items) => lookUp rest (items.getLast?.getD [])
      | some (.table _ _ inner) => lookUp rest inner

/-- Checks that a header may add to a list of tables. -/
def openItem (path : List String) (key : String) (root : Fields) : Option Fields :=
  descend false
    (fun _ inner =>
      match inner.lookup key with
      | none => some inner
      | some (.tables _) => some inner
      | some _ => none)
    path false root

mutual

/-- The finished value. -/
def freeze : Draft → Value
  | .value v => v
  | .table _ _ fields => .table (sortFields (freezeFields fields))
  | .tables items => .list (freezeItems items)

/-- The finished fields. -/
def freezeFields : List (String × Draft) → List (String × Value)
  | [] => []
  | (k, d) :: rest => (k, freeze d) :: freezeFields rest

/-- The finished tables of a list. -/
def freezeItems : List (List (String × Draft)) → List Value
  | [] => []
  | fields :: rest => .table (sortFields (freezeFields fields)) :: freezeItems rest

end

end Draft
end Paymaster.Toml

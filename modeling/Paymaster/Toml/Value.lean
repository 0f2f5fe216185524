import Paymaster.Document.Tree
import Paymaster.Toml.Datetime
/-!
# TOML values

A TOML value. The fields of a table stand in the order of their keys, and no key is there twice.
-/

namespace Paymaster.Toml

open Decimal (Binary64)
open Document (Tree)

/-- A TOML value. -/
inductive Value where
  | text (s : String)
  /-- A whole number. -/
  | int (n : Int)
  /-- A floating point number. -/
  | float (x : Binary64)
  /-- A truth value. -/
  | bool (b : Bool)
  /-- A date or a time. -/
  | datetime (d : Datetime)
  /-- Items in order. -/
  | list (items : List Value)
  /-- Fields in the order of their keys. -/
  | table (fields : List (String × Value))
  deriving Inhabited

/-- Fields in the order of their keys with one more. -/
def insertField {α : Type} (key : String) (a : α) : List (String × α) → List (String × α)
  | [] => [(key, a)]
  | x :: rest => if key < x.1 then (key, a) :: x :: rest else x :: insertField key a rest

/-- Fields in the order of their keys. -/
def sortFields {α : Type} (fields : List (String × α)) : List (String × α) :=
  fields.foldl (fun sorted x => insertField x.1 x.2 sorted) []

namespace Value

mutual

/-- The value as a document. -/
def toTree : Value → Tree
  | .text s => .text s
  | .int n => .int n
  | .float x => .float x
  | .bool b => .bool b
  | .datetime d => .datetime d.text
  | .list items => .list (treesOfItems items)
  | .table fields => .table (treesOfFields fields)

/-- Items as documents. -/
def treesOfItems : List Value → List Tree
  | [] => []
  | v :: rest => toTree v :: treesOfItems rest

/-- Fields as documents. -/
def treesOfFields : List (String × Value) → List (String × Tree)
  | [] => []
  | (k, v) :: rest => (k, toTree v) :: treesOfFields rest

end

end Value
end Paymaster.Toml

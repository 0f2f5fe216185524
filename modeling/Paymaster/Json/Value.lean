import Paymaster.Document.Tree
/-!
# JSON values

A JSON value, its compact text and its indented text. A number is either whole or binary floating
point; the fields of a table keep the order they were given in, unless the value was read from a
text, when they are sorted and the last of several fields with one key counts.
-/

namespace Paymaster

/-- A JSON value. -/
inductive Json where
  /-- The absent value. -/
  | null
  /-- A truth value. -/
  | bool (b : Bool)
  /-- A whole number. -/
  | int (n : Int)
  /-- A number with a fraction or a power. -/
  | float (x : Decimal.Binary64)
  | text (s : String)
  /-- Items in order. -/
  | list (items : List Json)
  /-- Fields in order. -/
  | table (fields : List (String × Json))
  deriving Inhabited

namespace Json

/-- A natural number. -/
def nat (n : Nat) : Json := .int n

/-- A text, or the absent value. -/
def textOrNull : Option String → Json
  | some s => .text s
  | none => .null

/-- The four digits of a code point below `2 ^ 16`. -/
def fourDigits (n : Nat) : List Char :=
  let ds := Nat.toDigits 16 n
  List.replicate (4 - ds.length) '0' ++ ds

/-- A character inside a JSON string. -/
def escapeChar (c : Char) : List Char :=
  if c = '"' then ['\\', '"']
  else if c = '\\' then ['\\', '\\']
  else if c = '\n' then ['\\', 'n']
  else if c = '\r' then ['\\', 'r']
  else if c = '\t' then ['\\', 't']
  else if c = '\x08' then ['\\', 'b']
  else if c = '\x0c' then ['\\', 'f']
  else if c.toNat < 32 then '\\' :: 'u' :: fourDigits c.toNat
  else [c]

/-- A text as a JSON string. -/
def quoteText (s : String) : String :=
  String.ofList ('"' :: (s.toList.flatMap escapeChar ++ ['"']))

mutual

/-- The value without blanks. -/
def compact : Json → String
  | .null => "null"
  | .bool true => "true"
  | .bool false => "false"
  | .int n => toString n
  | .float x => x.json
  | .text s => quoteText s
  | .list items => "[" ++ compactItems items ++ "]"
  | .table fields => "\x7b" ++ compactFields fields ++ "\x7d"

/-- Items with commas between them. -/
def compactItems : List Json → String
  | [] => ""
  | [j] => compact j
  | j :: rest => compact j ++ "," ++ compactItems rest

/-- Fields with commas between them. -/
def compactFields : List (String × Json) → String
  | [] => ""
  | [(k, j)] => quoteText k ++ ":" ++ compact j
  | (k, j) :: rest => quoteText k ++ ":" ++ compact j ++ "," ++ compactFields rest

end

/-- The start of a line at a depth: two blanks for each level. -/
def indent (depth : Nat) : String := "\n" ++ String.ofList (List.replicate (2 * depth) ' ')

mutual

/-- The value with a line for each item; `depth` counts the levels around it. -/
def indented (depth : Nat) : Json → String
  | .list [] => "[]"
  | .table [] => "\x7b\x7d"
  | .list items => "[" ++ indentedItems (depth + 1) items ++ indent depth ++ "]"
  | .table fields => "\x7b" ++ indentedFields (depth + 1) fields ++ indent depth ++ "\x7d"
  | j => compact j

/-- Items, a line each. -/
def indentedItems (depth : Nat) : List Json → String
  | [] => ""
  | [j] => indent depth ++ indented depth j
  | j :: rest => indent depth ++ indented depth j ++ "," ++ indentedItems depth rest

/-- Fields, a line each. -/
def indentedFields (depth : Nat) : List (String × Json) → String
  | [] => ""
  | [(k, j)] => indent depth ++ quoteText k ++ ": " ++ indented depth j
  | (k, j) :: rest =>
    indent depth ++ quoteText k ++ ": " ++ indented depth j ++ "," ++ indentedFields depth rest

end

/-- The value with a line for each item, indented by two blanks. -/
def pretty (j : Json) : String := indented 0 j

/-- The value under a key. -/
def get? (key : String) : Json → Option Json
  | .table fields => fields.lookup key
  | _ => none

/-- Sorted fields with one more; a field with the same key is replaced. -/
def insertField (key : String) (j : Json) : List (String × Json) → List (String × Json)
  | [] => [(key, j)]
  | (k, i) :: rest =>
    if key = k then (key, j) :: rest
    else if key < k then (key, j) :: (k, i) :: rest
    else (k, i) :: insertField key j rest

/-- Levels of nesting that are read. -/
def maxDepth : Nat := 127

mutual

/-- The value a document denotes, if the document is whole and not nested too deeply. -/
def ofTreeWithin (depth : Nat) : Document.Tree → Except Document.Fault Json
  | .null => .ok .null
  | .bool b => .ok (.bool b)
  | .int n => .ok (.int n)
  | .float x => .ok (.float x)
  | .text s | .datetime s => .ok (.text s)
  | .list items => if depth = 0 then .error .tooDeep else (itemsWithin (depth - 1) items).map .list
  | .table fields =>
    if depth = 0 then .error .tooDeep else (fieldsWithin (depth - 1) [] fields).map .table
  | .broken why => .error why
  | .unreadable why => .error why

/-- The items a list denotes. -/
def itemsWithin (depth : Nat) : List Document.Tree → Except Document.Fault (List Json)
  | [] => .ok []
  | t :: rest =>
    match ofTreeWithin depth t with
    | .error why => .error why
    | .ok j => (itemsWithin depth rest).map (j :: ·)

/-- The sorted fields a table denotes, added to those before. -/
def fieldsWithin (depth : Nat) (before : List (String × Json)) :
    List (String × Document.Tree) → Except Document.Fault (List (String × Json))
  | [] => .ok before
  | (k, t) :: rest =>
    match ofTreeWithin depth t with
    | .error why => .error why
    | .ok j => fieldsWithin depth (insertField k j before) rest

end

/-- The value a document denotes. -/
def ofTree (t : Document.Tree) : Except Document.Fault Json := ofTreeWithin maxDepth t

mutual

/-- The value as a document. -/
def toTree : Json → Document.Tree
  | .null => .null
  | .bool b => .bool b
  | .int n => .int n
  | .float x => .float x
  | .text s => .text s
  | .list items => .list (treesOfItems items)
  | .table fields => .table (treesOfFields fields)

/-- Items as documents. -/
def treesOfItems : List Json → List Document.Tree
  | [] => []
  | j :: rest => toTree j :: treesOfItems rest

/-- Fields as documents. -/
def treesOfFields : List (String × Json) → List (String × Document.Tree)
  | [] => []
  | (k, j) :: rest => (k, toTree j) :: treesOfFields rest

end

end Json
end Paymaster

import Paymaster.Toml.Draft
import Paymaster.Toml.Scalar
/-!
# Reading TOML

A TOML document is a list of lines: keys with values, and headers that open tables. Reading gives
the table of the whole document, or nothing where the document breaks a rule.
-/

namespace Paymaster.Toml

/-- What follows blanks, comments and line ends. -/
def skipFiller : Nat → List Char → List Char
  | 0, cs => cs
  | fuel + 1, cs =>
    let rest := skipComment (skipSpaces cs)
    match readNewline rest with
    | some (_, next) => skipFiller fuel next
    | none => if (skipSpaces cs).head? == some '#' then cs else skipSpaces cs

/-- What follows blanks, comments and line ends inside a list. -/
def skipListFiller (cs : List Char) : List Char := skipFiller cs.length cs

/-- Reads the rest of a line: blanks, perhaps a comment, and the end of the line or of the
document. -/
def readLineEnd : Parser Unit := fun cs =>
  match skipComment (skipSpaces cs) with
  | [] => some ((), [])
  | rest => readNewline rest

mutual

/-- Reads a value; `depth` bounds the levels of nesting, `fuel` the number of steps. -/
def readValue : Nat → Nat → Parser Value
  | 0, _, _ => none
  | fuel + 1, depth, cs =>
    match cs with
    | '[' :: rest =>
      if depth = 0 then none
      else do
        let (items, rest) ← readItems fuel (depth - 1) (skipListFiller rest)
        some (.list items, rest)
    | '\x7b' :: rest =>
      if depth = 0 then none
      else
        match skipSpaces rest with
        | '\x7d' :: rest => some (.table [], rest)
        | rest => do
          let (fields, rest) ← readPairs fuel (depth - 1) [] rest
          some ((Draft.table false false fields).freeze, rest)
    | _ => readScalar cs

/-- Reads the items of a list up to its bracket; a comma may follow the last. -/
def readItems : Nat → Nat → Parser (List Value)
  | 0, _, _ => none
  | fuel + 1, depth, cs =>
    match cs with
    | ']' :: rest => some ([], rest)
    | _ => do
      let (v, rest) ← readValue fuel depth cs
      match skipListFiller rest with
      | ',' :: rest => do
        let (items, rest) ← readItems fuel depth (skipListFiller rest)
        some (v :: items, rest)
      | ']' :: rest => some ([v], rest)
      | _ => none

/-- Reads the fields of a table within a line up to its brace; `before` are those already read. -/
def readPairs : Nat → Nat → Draft.Fields → Parser Draft.Fields
  | 0, _, _, _ => none
  | fuel + 1, depth, before, cs => do
    let ((path, key), rest) ← readKey cs
    let (_, rest) ← expect '=' rest
    let (v, rest) ← readValue fuel depth (skipSpaces rest)
    let fields ← Draft.assign path key (.value v) before
    match skipSpaces rest with
    | ',' :: rest => readPairs fuel depth fields rest
    | '\x7d' :: rest => some (fields, rest)
    | _ => none

end

/-- Levels of nesting that are read. -/
def maxDepth : Nat := depthLimit - 1

/-- The table that the lines being read belong to. -/
inductive Section where
  /-- The document itself. -/
  | root
  /-- The table of a header. -/
  | table (path : List String) (key : String)
  /-- An item of the list of a header. -/
  | item (path : List String) (key : String)

/-- A document under construction. -/
structure Progress where
  /-- Everything before the current section. -/
  root : Draft.Fields
  current : Section
  /-- What the current section holds. -/
  fields : Draft.Fields

namespace Progress

/-- The document before its first line. -/
def initial : Progress := ⟨[], .root, []⟩

/-- The document with the current section put in its place. -/
def close (p : Progress) : Option Draft.Fields :=
  match p.current with
  | .root => some p.fields
  | .table path key => Draft.closeTable path key p.fields p.root
  | .item path key => Draft.closeItem path key p.fields p.root

/-- Reads a key with its value. -/
def pair (p : Progress) (cs : List Char) : Option (Progress × List Char) := do
  let ((path, key), rest) ← readKey cs
  let (_, rest) ← expect '=' rest
  let rest := skipSpaces rest
  let (v, rest) ← readValue (2 * rest.length + 2) maxDepth rest
  let (_, rest) ← readLineEnd rest
  let fields ← Draft.assign path key (.value v) p.fields
  some ({ p with fields }, rest)

/-- Reads the header of a table behind its bracket. -/
def tableHeader (p : Progress) (cs : List Char) : Option (Progress × List Char) := do
  let ((path, key), rest) ← readKey cs
  let (_, rest) ← expect ']' rest
  let (_, rest) ← readLineEnd rest
  let root ← p.close
  let (root, fields) ← Draft.openTable path key root
  some (⟨root, .table path key, fields⟩, rest)

/-- Reads the header of an item behind its two brackets. -/
def itemHeader (p : Progress) (cs : List Char) : Option (Progress × List Char) := do
  let ((path, key), rest) ← readKey cs
  let (_, rest) ← expect ']' rest
  let (_, rest) ← expect ']' rest
  let (_, rest) ← readLineEnd rest
  let root ← p.close
  let root ← Draft.openItem path key root
  some (⟨root, .item path key, []⟩, rest)

/-- Reads the lines of a document; `fuel` bounds their number. -/
def lines : Nat → Progress → List Char → Option Progress
  | 0, _, _ => none
  | fuel + 1, p, cs =>
    match skipSpaces cs with
    | [] => some p
    | '[' :: '[' :: rest => do
      let (p, rest) ← p.itemHeader rest
      lines fuel p rest
    | '[' :: rest => do
      let (p, rest) ← p.tableHeader rest
      lines fuel p rest
    | c :: rest =>
      if c = '#' ∨ c = '\n' ∨ c = '\r' then do
        let (_, rest) ← readLineEnd (c :: rest)
        lines fuel p rest
      else do
        let (p, rest) ← p.pair (c :: rest)
        lines fuel p rest

end Progress

/-- The mark that may stand at the very start of a document. -/
def byteOrderMark : Char := '\ufeff'

/-- Reads a document. -/
def parse (text : String) : Option Value := do
  let cs :=
    match text.toList with
    | c :: rest => if c = byteOrderMark then rest else c :: rest
    | [] => []
  let p ← Progress.lines (cs.length + 1) .initial cs
  let fields ← p.close
  some (Draft.table false false fields).freeze

end Paymaster.Toml

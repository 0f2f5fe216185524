import Paymaster.Decimal.Shortest
/-!
# Document trees

A settings file, a state file and a reply of a node are read into one shape before their meaning is
looked at. A tree may end early: where the text stops making sense, the tree holds the fault in the
place of the value, so that what stands before it can still be judged first.
-/

namespace Paymaster.Document

/-- What is wrong with the text of a document. -/
inductive Fault where
  /-- The text ends inside a list. -/
  | endInList
  /-- The text ends inside a table. -/
  | endInTable
  /-- The text ends inside a string. -/
  | endInText
  /-- The text ends where a value is due. -/
  | endInValue
  /-- No colon follows a key. -/
  | expectedColon
  /-- Neither a comma nor a bracket follows an item. -/
  | expectedCommaOrBracket
  /-- Neither a comma nor a brace follows a field. -/
  | expectedCommaOrBrace
  /-- A word other than `true`, `false` and `null`. -/
  | expectedWord
  /-- No value starts here. -/
  | expectedValue
  /-- An escape that has no meaning. -/
  | invalidEscape
  /-- A number that is not well formed. -/
  | invalidNumber
  /-- A number too large for any format. -/
  | numberOutOfRange
  /-- Bytes or escapes that are no character. -/
  | invalidCodePoint
  /-- A control character inside a string. -/
  | controlCharacter
  /-- A key that is no string. -/
  | keyNotText
  /-- The first half of a character without the second. -/
  | loneSurrogate
  /-- A comma with nothing after it. -/
  | trailingComma
  /-- Text after the document. -/
  | trailingText
  /-- An escape by a code point that is cut short. -/
  | endOfEscape
  /-- Values inside values, too many levels of them. -/
  | tooDeep
  deriving DecidableEq, Repr

/-- The wording of a fault. -/
def Fault.message : Fault → String
  | .endInList => "EOF while parsing a list"
  | .endInTable => "EOF while parsing an object"
  | .endInText => "EOF while parsing a string"
  | .endInValue => "EOF while parsing a value"
  | .expectedColon => "expected `:`"
  | .expectedCommaOrBracket => "expected `,` or `]`"
  | .expectedCommaOrBrace => "expected `,` or `\x7d`"
  | .expectedWord => "expected ident"
  | .expectedValue => "expected value"
  | .invalidEscape => "invalid escape"
  | .invalidNumber => "invalid number"
  | .numberOutOfRange => "number out of range"
  | .invalidCodePoint => "invalid unicode code point"
  | .controlCharacter => "control character (\\u0000-\\u001F) found while parsing a string"
  | .keyNotText => "key must be a string"
  | .loneSurrogate => "lone leading surrogate in hex escape"
  | .trailingComma => "trailing comma"
  | .trailingText => "trailing characters"
  | .endOfEscape => "unexpected end of hex escape"
  | .tooDeep => "recursion limit exceeded"

/-- A document, or as much of it as can be read. -/
inductive Tree where
  /-- The absent value. -/
  | null
  /-- A truth value. -/
  | bool (b : Bool)
  /-- A whole number. -/
  | int (n : Int)
  /-- A number with a fraction or a power. -/
  | float (x : Decimal.Binary64)
  | text (s : String)
  /-- A date or a time; but for choices it reads like a string. -/
  | datetime (s : String)
  /-- Items in order. -/
  | list (items : List Tree)
  /-- Fields in the order of the document. -/
  | table (fields : List (String × Tree))
  /-- The text makes no sense from here on. -/
  | broken (why : Fault)
  /-- A value that can be skipped but not read. -/
  | unreadable (why : Fault)
  deriving Inhabited

mutual

/-- The fault that stops a reader who skips over a tree, if there is one. -/
def Tree.fault? : Tree → Option Fault
  | .broken why => some why
  | .list items => Tree.faultIn? items
  | .table fields => Tree.faultAmong? fields
  | _ => none

/-- The first fault among some items. -/
def Tree.faultIn? : List Tree → Option Fault
  | [] => none
  | t :: rest =>
    match t.fault? with
    | some why => some why
    | none => Tree.faultIn? rest

/-- The first fault among some fields. -/
def Tree.faultAmong? : List (String × Tree) → Option Fault
  | [] => none
  | (_, t) :: rest =>
    match t.fault? with
    | some why => some why
    | none => Tree.faultAmong? rest

end

end Paymaster.Document

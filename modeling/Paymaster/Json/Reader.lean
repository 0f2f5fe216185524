import Paymaster.Document.Decode
import Paymaster.Json.Number
import Paymaster.Json.Value
import Paymaster.Text.Hex
import Paymaster.Text.Utf8
/-!
# Reading JSON

A JSON text is read from its bytes into a document tree. Reading never fails: what makes no sense
ends the tree with a fault. A string whose bytes or escapes are no characters, and a number beyond
the floating point range, can still be skipped, so they are kept as unreadable values.
-/

namespace Paymaster.Json

open Document (Tree Fault)

/-- The byte is a blank of JSON. -/
def isSpace (b : UInt8) : Bool := b == 0x20 || b == 0x0a || b == 0x0d || b == 0x09

/-- What follows the blanks. -/
def skipSpaces (bytes : List UInt8) : List UInt8 := bytes.dropWhile isSpace

/-- The byte is a digit. -/
def isDigitByte (b : UInt8) : Bool := 48 ≤ b && b ≤ 57

/-- Some ASCII bytes as characters. -/
def asciiChars (bytes : List UInt8) : List Char := bytes.map fun b => Char.ofNat b.toNat

/-- What a reader finds, and the bytes that follow unless the text makes no sense any more. -/
abbrev Reading (α : Type) := α × Option (List UInt8)

/-! ## Strings -/

/-- The contents of a string: its bytes, and the first place where it is no text. -/
structure TextParts where
  /-- The bytes in order. -/
  bytes : List UInt8
  /-- Why the string is no text. -/
  flaw : Option Fault

/-- The contents with some bytes in front. -/
def TextParts.before (front : List UInt8) (p : TextParts) : TextParts := ⟨front ++ p.bytes, p.flaw⟩

/-- The contents with a flaw in front of all others. -/
def TextParts.flawed (why : Fault) (p : TextParts) : TextParts := ⟨p.bytes, some why⟩

/-- The byte that an escape letter stands for. -/
def escapeByte? (b : UInt8) : Option UInt8 :=
  if b = 0x22 ∨ b = 0x5c ∨ b = 0x2f then some b
  else if b = 0x62 then some 0x08
  else if b = 0x66 then some 0x0c
  else if b = 0x6e then some 0x0a
  else if b = 0x72 then some 0x0d
  else if b = 0x74 then some 0x09
  else none

/-- The number that four digits denote. -/
def fourHex? (a b c d : UInt8) : Option Nat := do
  let w ← Text.Hex.value? a
  let x ← Text.Hex.value? b
  let y ← Text.Hex.value? c
  let z ← Text.Hex.value? d
  return ((16 * w + x) * 16 + y) * 16 + z

/-- The code unit is the first half of a character. -/
def isHighHalf (n : Nat) : Bool := 0xd800 ≤ n && n ≤ 0xdbff

/-- The code unit is the second half of a character. -/
def isLowHalf (n : Nat) : Bool := 0xdc00 ≤ n && n ≤ 0xdfff

/-- The bytes of a character given by its code point. -/
def bytesOfCode (n : Nat) : List UInt8 := Text.Utf8.encode (Char.ofNat n).toString

/-- What an escape by code point denotes, when its four digits are read. -/
inductive UnitEscape where
  /-- A character; `rest` follows it. -/
  | character (code : Nat) (rest : List UInt8)
  /-- Half a character; `rest` follows the four digits. -/
  | half (why : Fault) (rest : List UInt8)
  /-- No sense. -/
  | none (why : Fault)

/-- What follows the first half of a character. -/
def secondHalf (high : Nat) (rest : List UInt8) : UnitEscape :=
  match rest with
  | [] => .none .endInText
  | 0x5c :: [] => .none .endInText
  | 0x5c :: 0x75 :: a :: b :: c :: d :: more =>
    match fourHex? a b c d with
    | .none => .none .invalidEscape
    | some low =>
      if isLowHalf low then .character ((high - 0xd800) * 0x400 + (low - 0xdc00) + 0x10000) more
      else .half .loneSurrogate rest
  | 0x5c :: 0x75 :: _ => .none .endInText
  | _ => .half .endOfEscape rest

/-- What stands behind `\u`. -/
def unitEscape : List UInt8 → UnitEscape
  | a :: b :: c :: d :: rest =>
    match fourHex? a b c d with
    | .none => .none .invalidEscape
    | some n =>
      if isLowHalf n then .half .loneSurrogate rest
      else if isHighHalf n then secondHalf n rest
      else .character n rest
  | _ => .none .endInText

/-- Reads a string up to its closing quote; `fuel` bounds the number of characters. -/
def textParts : Nat → List UInt8 → Except Fault (TextParts × List UInt8)
  | 0, _ => .error .endInText
  | _ + 1, [] => .error .endInText
  | fuel + 1, b :: rest =>
    if b = 0x22 then .ok (⟨[], none⟩, rest)
    else if b < 0x20 then .error .controlCharacter
    else if b ≠ 0x5c then (textParts fuel rest).map fun (p, r) => (p.before [b], r)
    else
      match rest with
      | [] => .error .endInText
      | 0x75 :: digits =>
        match unitEscape digits with
        | .none why => .error why
        | .half why more => (textParts fuel more).map fun (p, r) => (p.flawed why, r)
        | .character n more => (textParts fuel more).map fun (p, r) => (p.before (bytesOfCode n), r)
      | e :: more =>
        match escapeByte? e with
        | none => .error .invalidEscape
        | some x => (textParts fuel more).map fun (p, r) => (p.before [x], r)

/-- The text of the contents. -/
def TextParts.text (p : TextParts) : Except Fault String :=
  match p.flaw with
  | some why => .error why
  | none =>
    match Text.Utf8.decode? p.bytes with
    | some s => .ok s
    | none => .error .invalidCodePoint

/-- Reads a string whose opening quote has been read. -/
def readText (bytes : List UInt8) : Reading (Except Fault String) :=
  match textParts (bytes.length + 1) bytes with
  | .error why => (.error why, none)
  | .ok (p, rest) => (p.text, some rest)

/-! ## Numbers and words -/

/-- The digits at the start, and the rest. -/
def splitDigits (bytes : List UInt8) : List Char × List UInt8 :=
  (asciiChars (bytes.takeWhile isDigitByte), bytes.dropWhile isDigitByte)

/-- Digits of which there has to be one. -/
def someDigits (bytes : List UInt8) : Except Fault (List Char × List UInt8) :=
  match splitDigits bytes with
  | ([], []) => .error .endInValue
  | ([], _ :: _) => .error .invalidNumber
  | r => .ok r

/-- The digits before the point: no zero in front of others. -/
def wholePart (bytes : List UInt8) : Except Fault (List Char × List UInt8) := do
  match ← someDigits bytes with
  | ('0' :: _ :: _, _) => throw .invalidNumber
  | r => return r

/-- The fraction, if a point follows. -/
def fractionPart : List UInt8 → Except Fault (Option (List Char) × List UInt8)
  | 0x2e :: rest => (someDigits rest).map fun (ds, r) => (some ds, r)
  | rest => .ok (none, rest)

/-- The power, if its letter follows. -/
def powerPart : List UInt8 → Except Fault (Option (Bool × List Char) × List UInt8)
  | b :: rest =>
    if b = 0x65 ∨ b = 0x45 then
      match rest with
      | 0x2d :: more => (someDigits more).map fun (ds, r) => (some (true, ds), r)
      | 0x2b :: more => (someDigits more).map fun (ds, r) => (some (false, ds), r)
      | more => (someDigits more).map fun (ds, r) => (some (false, ds), r)
    else .ok (none, b :: rest)
  | [] => .ok (none, [])

/-- The parts of a number after its sign. -/
def numberParts (negative : Bool) (bytes : List UInt8) :
    Except Fault (NumberParts × List UInt8) := do
  let (whole, rest) ← wholePart bytes
  let (fraction, rest) ← fractionPart rest
  let (power, rest) ← powerPart rest
  return (⟨negative, whole, fraction, power⟩, rest)

/-- Reads a number after its sign. -/
def readNumber (negative : Bool) (bytes : List UInt8) : Reading Tree :=
  match numberParts negative bytes with
  | .ok (p, rest) => (p.value, some rest)
  | .error why => (.broken why, none)

/-- Reads the letters of a word that are left. -/
def readWord (value : Tree) : List UInt8 → List UInt8 → Reading Tree
  | [], rest => (value, some rest)
  | _ :: _, [] => (.broken .endInValue, none)
  | letter :: letters, b :: rest =>
    if b = letter then readWord value letters rest else (.broken .expectedWord, none)

/-- Reads a value that has no parts. -/
def readScalar (b : UInt8) (rest : List UInt8) : Reading Tree :=
  if b = 0x22 then
    match readText rest with
    | (.ok s, after) => (.text s, after)
    | (.error why, some after) => (.unreadable why, some after)
    | (.error why, none) => (.broken why, none)
  else if b = 0x2d then readNumber true rest
  else if isDigitByte b then readNumber false (b :: rest)
  else if b = 0x74 then readWord (.bool true) [0x72, 0x75, 0x65] rest
  else if b = 0x66 then readWord (.bool false) [0x61, 0x6c, 0x73, 0x65] rest
  else if b = 0x6e then readWord .null [0x75, 0x6c, 0x6c] rest
  else (.broken .expectedValue, none)

/-! ## Values -/

/-- The items or fields end here, with a fault. -/
def stop (why : Fault) : Reading (List Tree) := ([.broken why], none)

/-- The fields end here, with a fault. -/
def stopTable (why : Fault) : Reading (List (String × Tree)) := ([("", .broken why)], none)

mutual

/-- Reads a value; `fuel` bounds the number of values and commas. -/
def readValue : Nat → List UInt8 → Reading Tree
  | 0, _ => (.broken .tooDeep, none)
  | fuel + 1, bytes =>
    match skipSpaces bytes with
    | [] => (.broken .endInValue, none)
    | 0x5b :: rest =>
      let (items, after) := readItems fuel true rest
      (.list items, after)
    | 0x7b :: rest =>
      let (fields, after) := readFields fuel true rest
      (.table fields, after)
    | b :: rest => readScalar b rest

/-- Reads the items of a list up to its bracket. -/
def readItems : Nat → Bool → List UInt8 → Reading (List Tree)
  | 0, _, _ => stop .tooDeep
  | fuel + 1, first, bytes =>
    match skipSpaces bytes with
    | [] => stop .endInList
    | 0x5d :: rest => ([], some rest)
    | b :: rest =>
      if first then readItem fuel (b :: rest)
      else if b = 0x2c then
        match skipSpaces rest with
        | [] => stop .endInValue
        | 0x5d :: _ => stop .trailingComma
        | more => readItem fuel more
      else stop .expectedCommaOrBracket

/-- Reads an item and those that follow it. -/
def readItem : Nat → List UInt8 → Reading (List Tree)
  | 0, _ => stop .tooDeep
  | fuel + 1, bytes =>
    match readValue fuel bytes with
    | (t, none) => ([t], none)
    | (t, some rest) =>
      let (items, after) := readItems fuel false rest
      (t :: items, after)

/-- Reads the fields of a table up to its brace. -/
def readFields : Nat → Bool → List UInt8 → Reading (List (String × Tree))
  | 0, _, _ => stopTable .tooDeep
  | fuel + 1, first, bytes =>
    match skipSpaces bytes with
    | [] => stopTable .endInTable
    | 0x7d :: rest => ([], some rest)
    | b :: rest =>
      if first then readField fuel (b :: rest)
      else if b = 0x2c then
        match skipSpaces rest with
        | [] => stopTable .endInValue
        | 0x7d :: _ => stopTable .trailingComma
        | more => readField fuel more
      else stopTable .expectedCommaOrBrace

/-- Reads a field and those that follow it. -/
def readField : Nat → List UInt8 → Reading (List (String × Tree))
  | 0, _ => stopTable .tooDeep
  | fuel + 1, bytes =>
    match bytes with
    | 0x22 :: rest =>
      match readText rest with
      | (.error why, _) => stopTable why
      | (.ok _, none) => stopTable .endInText
      | (.ok key, some rest) =>
        match skipSpaces rest with
        | [] => ([(key, .broken .endInTable)], none)
        | 0x3a :: rest =>
          match readValue fuel rest with
          | (t, none) => ([(key, t)], none)
          | (t, some rest) =>
            let (fields, after) := readFields fuel false rest
            ((key, t) :: fields, after)
        | _ => ([(key, .broken .expectedColon)], none)
    | _ => stopTable .keyNotText

end

/-- Reads a document: one value with blanks around it, and the fault behind it if more follows. -/
def readDocument (bytes : List UInt8) : Tree × Option Fault :=
  match readValue (3 * bytes.length + 3) bytes with
  | (t, none) => (t, none)
  | (t, some rest) => (t, if (skipSpaces rest).isEmpty then none else some .trailingText)

/-- Decodes the value of a document. -/
def decode {α : Type} (d : Document.Decoder α) (bytes : List UInt8) :
    Except Document.DecodeError α := do
  let (t, after) := readDocument bytes
  let a ← d t
  match after with
  | some why => throw (.of (.fault why))
  | none => return a

/-- Reads a JSON value. -/
def parse (bytes : List UInt8) : Except Fault Json := do
  let (t, after) := readDocument bytes
  let j ← ofTree t
  match after with
  | some why => throw why
  | none => return j

end Paymaster.Json

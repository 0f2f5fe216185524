import Paymaster.Text.Hex
import Paymaster.Toml.Value
/-!
# Strings, numbers and keys in TOML

The readers of everything in TOML that has no parts: strings in four forms, numbers in four bases
with underscores between digits, floating point numbers, truth values and keys.
-/

namespace Paymaster.Toml

open Decimal (Binary64)

/-- The character is a blank or a tab. -/
def isSpace (c : Char) : Bool := c == ' ' || c == '\t'

/-- What follows blanks and tabs. -/
def skipSpaces (cs : List Char) : List Char := cs.dropWhile isSpace

/-- The character may stand in a comment. -/
def isCommentChar (c : Char) : Bool := c == '\t' || (0x20 ≤ c.toNat && c.toNat != 0x7f)

/-- Reads the end of a line. -/
def readNewline : Parser Unit
  | '\n' :: rest => some ((), rest)
  | '\r' :: '\n' :: rest => some ((), rest)
  | _ => none

/-- What follows a comment, if there is one. -/
def skipComment : List Char → List Char
  | '#' :: rest => rest.dropWhile isCommentChar
  | cs => cs

/-! ## Strings -/

/-- The character may stand in a basic string. -/
def isBasicChar (c : Char) : Bool := isCommentChar c && c != '"' && c != '\\'

/-- The character may stand in a literal string. -/
def isLiteralChar (c : Char) : Bool := isCommentChar c && c != '\''

/-- The number that some digits denote. -/
def hexValue? (cs : List Char) : Option Nat :=
  cs.foldlM (fun n c =>
    if c.toNat < 128 then (Text.Hex.value? (UInt8.ofNat c.toNat)).map (16 * n + ·) else none) 0

/-- The character with a code point, if there is one. -/
def charOf? (n : Nat) : Option Char :=
  if h : n.isValidChar then some (Char.ofNatAux n h) else none

/-- Reads an escape by a code point of so many digits. -/
def readCodePoint (count : Nat) : Parser Char := fun cs => do
  let ds := cs.take count
  if ds.length = count then
    let c ← charOf? (← hexValue? ds)
    some (c, cs.drop count)
  else none

/-- Reads what stands behind a backslash. -/
def readEscape : Parser Char
  | 'b' :: rest => some ('\x08', rest)
  | 'f' :: rest => some ('\x0c', rest)
  | 'n' :: rest => some ('\n', rest)
  | 'r' :: rest => some ('\r', rest)
  | 't' :: rest => some ('\t', rest)
  | '\\' :: rest => some ('\\', rest)
  | '"' :: rest => some ('"', rest)
  | 'u' :: rest => readCodePoint 4 rest
  | 'U' :: rest => readCodePoint 8 rest
  | _ => none

/-- Reads a basic string up to its quote; `fuel` bounds the number of characters. -/
def readBasic : Nat → Parser (List Char)
  | 0, _ => none
  | _ + 1, [] => none
  | fuel + 1, c :: rest =>
    if c = '"' then some ([], rest)
    else if c = '\\' then do
      let (d, rest) ← readEscape rest
      let (ds, rest) ← readBasic fuel rest
      some (d :: ds, rest)
    else if isBasicChar c then do
      let (ds, rest) ← readBasic fuel rest
      some (c :: ds, rest)
    else none

/-- Reads a literal string up to its quote. -/
def readLiteral (cs : List Char) : Option (List Char × List Char) :=
  match cs.dropWhile isLiteralChar with
  | '\'' :: rest => some (cs.takeWhile isLiteralChar, rest)
  | _ => none

/-- What follows a line end right at the start. -/
def skipNewline (cs : List Char) : List Char :=
  match readNewline cs with
  | some (_, rest) => rest
  | none => cs

/-- What follows blanks and line ends. -/
def skipBlankLines : Nat → List Char → List Char
  | 0, cs => cs
  | fuel + 1, cs =>
    match readNewline (skipSpaces cs) with
    | some (_, rest) => skipBlankLines fuel rest
    | none => skipSpaces cs

/-- The quotes at the start: at most two of them belong to the string, three end it. -/
def closingQuotes (quote : Char) (cs : List Char) : Option (List Char × List Char) :=
  let run := (cs.takeWhile (· == quote)).length
  if run < 3 then none
  else
    let kept := min (run - 3) 2
    some (List.replicate kept quote, cs.drop (kept + 3))

/-- Reads a string of several lines up to its three quotes; `fuel` bounds the number of
characters. -/
def readLines (quote : Char) (escapes : Bool) : Nat → Parser (List Char)
  | 0, _ => none
  | _ + 1, [] => none
  | fuel + 1, c :: rest =>
    if c = quote then
      match closingQuotes quote (c :: rest) with
      | some r => some r
      | none => do
        let (ds, rest) ← readLines quote escapes fuel rest
        some (c :: ds, rest)
    else if escapes && c == '\\' then
      match readNewline (skipSpaces rest) with
      | some (_, next) => readLines quote escapes fuel (skipBlankLines fuel next)
      | none => do
        let (d, rest) ← readEscape rest
        let (ds, rest) ← readLines quote escapes fuel rest
        some (d :: ds, rest)
    else if isCommentChar c then do
      let (ds, rest) ← readLines quote escapes fuel rest
      some (c :: ds, rest)
    else do
      let (_, rest) ← readNewline (c :: rest)
      let (ds, rest) ← readLines quote escapes fuel rest
      some ('\n' :: ds, rest)

/-- Reads a string in any of the four forms. -/
def readString : Parser String := fun cs =>
  let text := fun (r : List Char × List Char) => (String.ofList r.1, r.2)
  match cs with
  | '"' :: '"' :: '"' :: rest => (readLines '"' true cs.length (skipNewline rest)).map text
  | '"' :: rest => (readBasic cs.length rest).map text
  | '\'' :: '\'' :: '\'' :: rest => (readLines '\'' false cs.length (skipNewline rest)).map text
  | '\'' :: rest => (readLiteral rest).map text
  | _ => none

/-! ## Keys -/

/-- The character may stand in a key without quotes. -/
def isKeyChar (c : Char) : Bool := c.isAlphanum || c == '_' || c == '-'

/-- Reads one part of a key. -/
def readKeyPart : Parser String := fun cs =>
  match cs with
  | '"' :: rest => (readBasic cs.length rest).map fun r => (String.ofList r.1, r.2)
  | '\'' :: rest => (readLiteral rest).map fun r => (String.ofList r.1, r.2)
  | _ =>
    match cs.takeWhile isKeyChar with
    | [] => none
    | key => some (String.ofList key, cs.dropWhile isKeyChar)

/-- Reads the parts of a key with points between them; `fuel` bounds their number. -/
def readKeyParts : Nat → Parser (List String)
  | 0, _ => none
  | fuel + 1, cs => do
    let (part, rest) ← readKeyPart (skipSpaces cs)
    match skipSpaces rest with
    | '.' :: more => do
      let (parts, rest) ← readKeyParts fuel more
      some (part :: parts, rest)
    | rest => some ([part], rest)

/-- The levels of nesting, counted from one, that are not read any more. -/
def depthLimit : Nat := 80

/-- Reads a key: the path to its table and its last part. -/
def readKey : Parser (List String × String) := fun cs => do
  let (parts, rest) ← readKeyParts (depthLimit - 1) cs
  let last ← parts.getLast?
  some ((parts.dropLast, last), rest)

/-! ## Numbers and truth values -/

/-- Digits with single underscores between them, and the rest. -/
def digitRun (ok : Char → Bool) : List Char → List Char × List Char
  | '_' :: c :: rest =>
    if ok c then
      let (ds, left) := digitRun ok rest
      (c :: ds, left)
    else ([], '_' :: c :: rest)
  | c :: rest =>
    if ok c then
      let (ds, left) := digitRun ok rest
      (c :: ds, left)
    else ([], c :: rest)
  | [] => ([], [])

/-- Reads digits with single underscores between them. -/
def readDigits (ok : Char → Bool) : Parser (List Char)
  | c :: rest => if ok c then some (digitRun ok (c :: rest)) else none
  | [] => none

/-- The sign at the start, and what follows. -/
def splitSign : List Char → Bool × List Char
  | '-' :: rest => (true, rest)
  | '+' :: rest => (false, rest)
  | cs => (false, cs)

/-- Reads decimal digits without a zero in front of others. -/
def readWhole : Parser (List Char)
  | '0' :: rest => some (['0'], rest)
  | cs => readDigits Text.isDigit cs

/-- The number if it fits 64 bits with a sign. -/
def fitInt (negative : Bool) (n : Nat) : Option Int :=
  let v : Int := if negative then -n else n
  if Int64.minValue.toInt ≤ v ∧ v ≤ Int64.maxValue.toInt then some v else none

/-- The value of digits in a base. -/
def valueInBase (base : Nat) (ds : List Char) : Option Nat :=
  if base = 16 then hexValue? ds else some (ds.foldl (fun n c => base * n + (c.toNat - 48)) 0)

/-- Reads a number in a base after its marker. -/
def readInBase (base : Nat) (ok : Char → Bool) : Parser Int := fun cs => do
  let (ds, rest) ← readDigits ok cs
  let n ← valueInBase base ds
  let v ← fitInt false n
  some (v, rest)

/-- The character is a digit of base sixteen. -/
def isHexDigit (c : Char) : Bool :=
  c.toNat < 128 && (Text.Hex.value? (UInt8.ofNat c.toNat)).isSome

/-- Reads a whole number. -/
def readInt : Parser Int := fun cs =>
  match cs with
  | '0' :: 'x' :: rest => readInBase 16 isHexDigit rest
  | '0' :: 'o' :: rest => readInBase 8 (fun c => '0' ≤ c && c ≤ '7') rest
  | '0' :: 'b' :: rest => readInBase 2 (fun c => c == '0' || c == '1') rest
  | _ => do
    let (negative, rest) := splitSign cs
    let (ds, rest) ← readWhole rest
    let v ← fitInt negative (Text.digitsValue ds)
    some (v, rest)

/-- Reads a power of ten. -/
def readPower : Parser Int
  | c :: rest =>
    if c = 'e' ∨ c = 'E' then do
      let (negative, rest) := splitSign rest
      let (ds, rest) ← readDigits Text.isDigit rest
      let n : Int := Text.digitsValue ds
      some (if negative then -n else n, rest)
    else none
  | [] => none

/-- A floating point number that is not too large. -/
def finiteOrBelow : Binary64 → Option Binary64
  | .infinite false => none
  | x => some x

/-- Reads a floating point number with a fraction or a power. -/
def readDecimal : Parser Binary64 := fun cs => do
  let (negative, rest) := splitSign cs
  let (whole, rest) ← readWhole rest
  match readPower rest with
  | some (power, rest) => do
    let x ← finiteOrBelow (Binary64.ofDecimal negative (Text.digitsValue whole) power)
    some (x, rest)
  | none => do
    let (_, rest) ← expect '.' rest
    let (fraction, rest) ← readDigits Text.isDigit rest
    let (power, rest) := (readPower rest).getD (0, rest)
    let x ← finiteOrBelow
      (Binary64.ofDecimal negative (Text.digitsValue (whole ++ fraction)) (power - fraction.length))
    some (x, rest)

/-- Reads one of the words for values that are no finite numbers. -/
def readSpecial : Parser Binary64 := fun cs =>
  let (negative, rest) := splitSign cs
  match rest with
  | 'i' :: 'n' :: 'f' :: rest => some (.infinite negative, rest)
  | 'n' :: 'a' :: 'n' :: rest => some (.nan, rest)
  | _ => none

/-- Reads a value that has no parts. -/
def readScalar : Parser Value := fun cs =>
  match cs with
  | [] => none
  | c :: _ =>
    if c = '"' ∨ c = '\'' then (readString cs).map fun r => (.text r.1, r.2)
    else if c = 't' then
      match cs with
      | 't' :: 'r' :: 'u' :: 'e' :: rest => some (.bool true, rest)
      | _ => none
    else if c = 'f' then
      match cs with
      | 'f' :: 'a' :: 'l' :: 's' :: 'e' :: rest => some (.bool false, rest)
      | _ => none
    else
      match readDatetime cs with
      | some (d, rest) => some (.datetime d, rest)
      | none =>
        match readDecimal cs with
        | some (x, rest) => some (.float x, rest)
        | none =>
          match readSpecial cs with
          | some (x, rest) => some (.float x, rest)
          | none => (readInt cs).map fun r => (.int r.1, r.2)

end Paymaster.Toml

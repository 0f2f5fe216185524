import Paymaster.Text.Unsigned
/-!
# Dates and times in TOML

A date, a time of day, or both, perhaps with an offset from universal time. Only days that the
calendar has are read; a second may be a leap second. Fractions of a second are kept to nine digits
and written without zeros at the end.
-/

namespace Paymaster.Toml

/-- A day of the calendar. -/
structure Date where
  year : Nat
  month : Nat
  /-- The day of the month. -/
  day : Nat
  deriving DecidableEq, Repr

/-- A time of day. -/
structure Time where
  hour : Nat
  minute : Nat
  second : Nat
  /-- The rest in billionths of a second. -/
  nanosecond : Nat
  deriving DecidableEq, Repr

/-- An offset from universal time. -/
inductive Offset where
  /-- Universal time itself. -/
  | universal
  /-- Minutes ahead of universal time. -/
  | minutes (n : Int)
  deriving DecidableEq, Repr

/-- A date, a time, or both. -/
structure Datetime where
  date : Option Date
  time : Option Time
  offset : Option Offset
  deriving DecidableEq, Repr

/-- The year has a 29 February. -/
def isLeapYear (year : Nat) : Bool := year % 4 == 0 && (year % 100 != 0 || year % 400 == 0)

/-- The number of days of a month. -/
def daysIn (year month : Nat) : Nat :=
  if month = 2 then (if isLeapYear year then 29 else 28)
  else if month = 4 ∨ month = 6 ∨ month = 9 ∨ month = 11 then 30
  else 31

/-- A parser: what is read, and the characters that are left. -/
abbrev Parser (α : Type) := List Char → Option (α × List Char)

/-- Reads exactly some digits as a number. -/
def fixedDigits (count : Nat) : Parser Nat := fun cs =>
  let ds := cs.take count
  if ds.length = count ∧ ds.all Text.isDigit then some (Text.digitsValue ds, cs.drop count) else none

/-- Reads one character. -/
def expect (c : Char) : Parser Unit
  | d :: rest => if c = d then some ((), rest) else none
  | [] => none

/-- Reads a number of two digits between bounds. -/
def twoDigits (low high : Nat) : Parser Nat := fun cs => do
  let (n, rest) ← fixedDigits 2 cs
  if low ≤ n ∧ n ≤ high then some (n, rest) else none

/-- Reads a date. -/
def readDate : Parser Date := fun cs => do
  let (year, cs) ← fixedDigits 4 cs
  let (_, cs) ← expect '-' cs
  let (month, cs) ← twoDigits 1 12 cs
  let (_, cs) ← expect '-' cs
  let (day, cs) ← twoDigits 1 31 cs
  if day ≤ daysIn year month then some (⟨year, month, day⟩, cs) else none

/-- The digits of a fraction of a second that are kept. -/
def fractionDigits : Nat := 9

/-- Reads the fraction of a second, if a point and a digit follow. -/
def readFraction : List Char → Nat × List Char
  | '.' :: rest =>
    match rest.takeWhile Text.isDigit with
    | [] => (0, '.' :: rest)
    | ds =>
      let kept := ds.take fractionDigits
      (Text.digitsValue kept * Nat.pow 10 (fractionDigits - kept.length), rest.dropWhile Text.isDigit)
  | cs => (0, cs)

/-- Reads a time of day. -/
def readTime : Parser Time := fun cs => do
  let (hour, cs) ← twoDigits 0 23 cs
  let (_, cs) ← expect ':' cs
  let (minute, cs) ← twoDigits 0 59 cs
  let (_, cs) ← expect ':' cs
  let (second, cs) ← twoDigits 0 60 cs
  let (nanosecond, cs) := readFraction cs
  some (⟨hour, minute, second, nanosecond⟩, cs)

/-- Reads an offset. -/
def readOffset : Parser Offset
  | [] => none
  | sign :: cs =>
    if sign = 'Z' ∨ sign = 'z' then some (.universal, cs)
    else if sign = '+' ∨ sign = '-' then do
      let (hour, cs) ← twoDigits 0 23 cs
      let (_, cs) ← expect ':' cs
      let (minute, cs) ← twoDigits 0 59 cs
      let n : Int := 60 * hour + minute
      some (.minutes (if sign = '-' then -n else n), cs)
    else none

/-- Reads what may follow a date: a separator and a time, perhaps with an offset. -/
def readTimeAfterDate : List Char → Option ((Time × Option Offset) × List Char)
  | sep :: cs =>
    if sep = 'T' ∨ sep = 't' ∨ sep = ' ' then do
      let (time, cs) ← readTime cs
      match readOffset cs with
      | some (offset, cs) => some ((time, some offset), cs)
      | none => some ((time, none), cs)
    else none
  | [] => none

/-- Reads a date, a time, or both. -/
def readDatetime : Parser Datetime := fun cs =>
  match readDate cs with
  | some (date, cs) =>
    match readTimeAfterDate cs with
    | some ((time, offset), cs) => some (⟨some date, some time, offset⟩, cs)
    | none => some (⟨some date, none, none⟩, cs)
  | none => (readTime cs).map fun (time, cs) => (⟨none, some time, none⟩, cs)

/-- A number with zeros in front up to a width. -/
def padded (width n : Nat) : String :=
  let ds := Nat.toDigits 10 n
  String.ofList (List.replicate (width - ds.length) '0' ++ ds)

/-- A date as text. -/
def Date.text (d : Date) : String := padded 4 d.year ++ "-" ++ padded 2 d.month ++ "-" ++ padded 2 d.day

/-- A time as text. -/
def Time.text (t : Time) : String :=
  let fraction :=
    if t.nanosecond = 0 then ""
    else
      let ds := (padded fractionDigits t.nanosecond).toList
      "." ++ String.ofList (ds.reverse.dropWhile (· == '0')).reverse
  padded 2 t.hour ++ ":" ++ padded 2 t.minute ++ ":" ++ padded 2 t.second ++ fraction

/-- An offset as text. -/
def Offset.text : Offset → String
  | .universal => "Z"
  | .minutes n =>
    (if n < 0 then "-" else "+") ++ padded 2 (n.natAbs / 60) ++ ":" ++ padded 2 (n.natAbs % 60)

/-- A date, a time, or both as text. -/
def Datetime.text (d : Datetime) : String :=
  let date := (d.date.map Date.text).getD ""
  let separator := if d.date.isSome && d.time.isSome then "T" else ""
  let time := (d.time.map Time.text).getD ""
  let offset := (d.offset.map Offset.text).getD ""
  date ++ separator ++ time ++ offset

end Paymaster.Toml

import Paymaster.Text.Blank
/-!
# Unsigned decimal numbers

A number is a non-empty run of the digits `0` to `9`, with an optional plus sign in front, whose
value lies below a bound. Leading zeros are allowed and nothing else is.
-/

namespace Paymaster.Text

/-- Why a text is not an unsigned number below the bound. -/
inductive UnsignedError where
  /-- There is no character at all. -/
  | empty
  /-- A character is no digit, or a sign stands alone. -/
  | badDigit
  /-- The value reaches the bound. -/
  | tooLarge
  deriving DecidableEq, Repr

/-- The wording of a reading error. -/
def UnsignedError.message : UnsignedError → String
  | .empty => "cannot parse integer from empty string"
  | .badDigit => "invalid digit found in string"
  | .tooLarge => "number too large to fit in target type"

/-- The character is one of the ten ASCII digits. -/
def isDigit (c : Char) : Bool := '0' ≤ c && c ≤ '9'

/-- The value of a run of digits, the most significant first. -/
def digitsValue (cs : List Char) : Nat :=
  cs.foldl (fun n c => 10 * n + (c.toNat - 48)) 0

/-- Reads digits from the left until one is wrong or the value reaches the bound. -/
def readDigits (bound : Nat) : Nat → List Char → Except UnsignedError Nat
  | n, [] => .ok n
  | n, c :: rest =>
    if isDigit c then
      let m := 10 * n + (c.toNat - 48)
      if m < bound then readDigits bound m rest else .error .tooLarge
    else .error .badDigit

/-- Reads an unsigned number below the bound. -/
def readUnsigned (bound : Nat) (s : String) : Except UnsignedError Nat :=
  match s.toList with
  | [] => .error .empty
  | '+' :: rest => if rest.isEmpty then .error .badDigit else readDigits bound 0 rest
  | cs => readDigits bound 0 cs

end Paymaster.Text

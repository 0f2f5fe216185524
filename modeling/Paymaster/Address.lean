import Paymaster.Document.Decode
import Paymaster.Json.Value
import Paymaster.Text.Blank
import Paymaster.Word
/-!
# Addresses

An address names a contract, an account or an asset on the rollup. It is a word; its text is `0x`
and up to 64 hexadecimal digits, padded with zeros on the left.
-/

namespace Paymaster

/-- A contract, account or asset of the rollup. -/
structure Address where
  /-- The field element that is the address. -/
  word : Word
  deriving DecidableEq, Repr

/-- Why a text is not an address. -/
inductive AddressError where
  /-- Nothing is left after trimming, or no digit follows the marker. -/
  | empty
  /-- The text does not begin with `0x` or `0X`. -/
  | missingMarker
  /-- More than 64 bytes follow the marker. -/
  | tooLong (bytes : Nat)
  /-- The bytes that follow the marker are not all digits. -/
  | invalidHex (cause : Text.Hex.Error)
  deriving DecidableEq, Repr

/-- The wording of an address error. -/
def AddressError.message : AddressError → String
  | .empty => "address is empty"
  | .missingMarker => "address must be 0x-prefixed hex"
  | .tooLong n => s!"address has {n} hex digits, expected at most 64"
  | .invalidHex e => s!"address is not valid hex: {e.message}"

namespace Address

instance : Inhabited Address := ⟨⟨0⟩⟩

/-- The address that no account has. -/
def zero : Address := ⟨0⟩

/-- The address is the one that no account has. -/
def isZero (a : Address) : Bool := a.word == 0

/-- An address as `0x` and 64 digits. -/
def toHex (a : Address) : String := a.word.toHex

/-- An address as it is shown inside a larger value. -/
def display (a : Address) : String := s!"Address({a.toHex})"

/-- The address written by the digits behind the marker: at most 64 bytes, filled up with zeros on
the left to 64 characters. -/
def ofDigits (digits : List Char) : Except AddressError Address :=
  let bytes := (String.ofList digits).utf8ByteSize
  if bytes = 0 then .error .empty
  else if 64 < bytes then .error (.tooLong bytes)
  else
    let padded := List.replicate (64 - digits.length) '0' ++ digits
    match Text.Hex.decode (String.ofList padded) with
    | .ok raw => .ok ⟨Word.ofBytes raw⟩
    | .error e => .error (.invalidHex e)

/-- Reads an address, blanks at the ends ignored. -/
def ofText (s : String) : Except AddressError Address :=
  match Text.trimChars s.toList with
  | [] => .error .empty
  | '0' :: 'x' :: digits => ofDigits digits
  | '0' :: 'X' :: digits => ofDigits digits
  | _ => .error .missingMarker

/-- An address as a JSON string. -/
def toJson (a : Address) : Json := .text a.toHex

/-- Decodes an address from a string. -/
def decoder : Document.Decoder Address := .parsed ofText AddressError.message

end Address

/-- Reads a word in the notation of addresses. -/
def Word.ofText (s : String) : Except AddressError Word := (Address.ofText s).map (·.word)

end Paymaster

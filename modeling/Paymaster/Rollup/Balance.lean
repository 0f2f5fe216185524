import Paymaster.Json.Value
import Paymaster.Rollup.Node
import Paymaster.Text.Unsigned
/-!
# Balances in replies

A node may give a balance as a decimal string, as a hexadecimal string or as a JSON number. Each
form denotes one amount or is refused; none is cut to fit.
-/

namespace Paymaster.Rollup

/-- The text is marked as hexadecimal. -/
def isMarkedHex (s : String) : Bool :=
  match s.toList with
  | '0' :: 'x' :: _ => true
  | '0' :: 'X' :: _ => true
  | _ => false

/-- The amount a hexadecimal text denotes. -/
def balanceOfHex (s : String) : Except RollupError Amount :=
  match Word.ofText s with
  | .error e => .error (.malformed s!"balance hex: {e.message}")
  | .ok w =>
    match w.toAmount? with
    | some a => .ok a
    | none => .error (.malformed "balance exceeds u128")

/-- The amount a decimal text denotes. -/
def balanceOfDecimal (s : String) : Except RollupError Amount :=
  match Text.readUnsigned Amount.bound (Text.trim s) with
  | .ok n => .ok (BitVec.ofNat 128 n)
  | .error e => .error (.malformed s!"balance decimal: {e.message}")

/-- The amount a JSON value denotes. -/
def balanceOfJson : Json → Except RollupError Amount
  | .text s => if isMarkedHex s then balanceOfHex s else balanceOfDecimal s
  | .int n =>
    if 0 ≤ n ∧ n < UInt64.size then .ok (BitVec.ofNat 128 n.toNat)
    else .error (.malformed s!"balance number: {n}")
  | .float x => .error (.malformed s!"balance number: {x.json}")
  | j => .error (.malformed s!"unexpected balance value: {j.compact}")

end Paymaster.Rollup

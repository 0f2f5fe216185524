import Paymaster.Bridge.Deposit
import Paymaster.Document.Decode
import Paymaster.Http.Url
import Paymaster.Text.Blank
import Paymaster.Text.Split
/-!
# The portal on the settlement layer

The portal is a contract of the settlement layer that takes deposits in a token. Before a deposit
the token has to be told that the portal may take the amount. Contracts there have addresses of 20
bytes.
-/

namespace Paymaster.Bridge

/-- The address of a contract on the settlement layer. -/
abbrev ContractAddress := BitVec 160

/-- Why a text is not a contract address. -/
inductive ContractError where
  | badDigit (found : Char) (position : Nat)
  /-- There are not exactly forty digits. -/
  | badLength
  deriving DecidableEq, Repr

/-- The wording of a contract address error. -/
def ContractError.message : ContractError → String
  | .badDigit c i => s!"Invalid character '{c}' at position {i}"
  | .badLength => "Invalid input length"

/-- The character is a blank, a tab or the end of a line. -/
def isSkipped (c : Char) : Bool := c == ' ' || c == '\r' || c == '\n' || c == '\t'

/-- The value of a digit. -/
def digitValue? (c : Char) : Option Nat :=
  if c.toNat < 128 then Text.Hex.value? (UInt8.ofNat c.toNat) else none

/-- Reads the next digit, with blanks before it skipped; nothing at the end. -/
def nextDigit : Nat → List Char → Except ContractError (Option (Nat × Nat × List Char))
  | _, [] => .ok none
  | i, c :: rest =>
    if isSkipped c then nextDigit (i + 1) rest
    else match digitValue? c with
      | some d => .ok (some (d, i + 1, rest))
      | none => .error (.badDigit c i)

/-- Reads so many bytes and then the end; `i` is the position. What follows the last byte is not
told apart: it is too long. -/
def readContractBytes : Nat → Nat → Nat → List Char → Except ContractError Nat
  | 0, value, _, rest => if rest.all isSkipped then .ok value else .error .badLength
  | count + 1, value, i, cs =>
    match nextDigit i cs with
    | .error e => .error e
    | .ok none => .error .badLength
    | .ok (some (high, i, cs)) =>
      match nextDigit i cs with
      | .error e => .error e
      | .ok none => .error .badLength
      | .ok (some (low, i, cs)) =>
        readContractBytes count (256 * value + 16 * high + low) i cs

/-- Reads a contract address; a marker in front and blanks between digits are ignored. -/
def readContract (s : String) : Except ContractError ContractAddress :=
  let digits := (Text.stripPrefix? "0x" s).getD s
  (readContractBytes 20 0 0 digits.toList).map (BitVec.ofNat 160)

/-- The settings of the portal. -/
structure PortalSettings where
  /-- Where the settlement layer is asked. -/
  rpcUrl : String
  /-- Which settlement layer it is. -/
  chainId : UInt64
  portal : String
  token : String
  /-- Blocks after which a transaction counts. -/
  confirmations : UInt64
  deriving DecidableEq, Repr

namespace PortalSettings

open Document (Decoder Fields)

/-- Decodes the settings of the portal. -/
def decoder : Decoder PortalSettings :=
  .record "struct PortalConfig" (PortalSettings.mk
    <$> .required "rpc_url" .text
    <*> .required "chain_id" .uint64
    <*> .required "portal_address" .text
    <*> .required "token_address" .text
    <*> .defaulted "confirmations" .count 1)

/-- Judges the address of a contract; `key` names it in messages. -/
def validateContract (key s : String) : Except BridgeError ContractAddress :=
  match readContract s with
  | .error e => .error (.config s!"invalid {key}: {e.message}")
  | .ok a => if a = 0 then .error (.config s!"{key} is zero") else .ok a

/-- Judges the settings of the portal; the first flaw counts. -/
def validate (s : PortalSettings) : Except BridgeError Unit := do
  if Text.isBlankText s.rpcUrl then throw (.config "l1.rpc_url is empty")
  if s.chainId = 0 then throw (.config "l1.chain_id must be > 0")
  let _ ← validateContract "l1.portal_address" s.portal
  let _ ← validateContract "l1.token_address" s.token

end PortalSettings

/-- The number of keys of the settlement layer; a key lies below it. -/
def keyBound : Nat := 0xfffffffffffffffffffffffffffffffebaaedce6af48a03bbfd25e8cd0364141

/-- The text is a key of the settlement layer: 32 bytes, marked as hexadecimal or not. -/
def isKey (s : String) : Bool :=
  let s := Text.trim s
  let digits := ((Text.stripPrefix? "0x" s).orElse fun () => Text.stripPrefix? "0X" s).getD s
  match Text.Hex.decode digits with
  | .error _ => false
  | .ok bytes => bytes.length == 32 && 0 < ofBigEndian bytes && ofBigEndian bytes < keyBound

/-- A portal that deposits can be sent to. -/
structure Portal where
  portal : ContractAddress
  token : ContractAddress
  /-- Blocks after which a transaction counts. -/
  confirmations : Nat
  deriving DecidableEq, Repr

/-- The portal with some settings and a key that pays for transactions. What exactly is wrong with
the URL or the key is left open. -/
def Portal.of (s : PortalSettings) (key : String) : Except BridgeError Portal := do
  s.validate
  if !Http.Url.isAbsolute s.rpcUrl then throw (.config "invalid l1 rpc url")
  if !isKey key then throw (.config "invalid l1 private key")
  let portal ← PortalSettings.validateContract "l1.portal_address" s.portal
  let token ← PortalSettings.validateContract "l1.token_address" s.token
  return ⟨portal, token, max s.confirmations.toNat 1⟩

/-- A call of a contract. -/
structure ContractCall where
  target : ContractAddress
  /-- What it is told. -/
  data : List UInt8
  deriving DecidableEq, Repr

/-- The address of a contract as `0x` and forty digits. -/
def contractHex (a : ContractAddress) : String := "0x" ++ Text.Hex.encode (bigEndian 20 a.toNat)

/-- The mark of the call that lets somebody take an amount. -/
def approveSelector : List UInt8 := [0x09, 0x5e, 0xa7, 0xb3]

/-- The call that lets the portal take an amount of the token. -/
def approveCall (portal token : ContractAddress) (amount : Amount) : ContractCall :=
  ⟨token, approveSelector ++ bigEndian 32 portal.toNat ++ bigEndian 32 amount.toNat⟩

/-- The first of the transactions that make a deposit. -/
def Portal.firstCall (p : Portal) (r : DepositRequest) : ContractCall :=
  approveCall p.portal p.token r.amount

/-- What a deposit comes to if the settlement layer refuses its first transaction. -/
def refusedApproval : BridgeError := .rejected "approve"

end Paymaster.Bridge

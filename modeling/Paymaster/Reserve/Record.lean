import Paymaster.Address
import Paymaster.Json.Reader
import Paymaster.Text.Unsigned
/-!
# The record of a deposit in flight

A deposit that has been made but not seen to arrive is kept in a file, so that the controller waits
for it again after a restart instead of making another. All numbers are decimal strings and all
words are `0x` and 64 digits. A file that cannot be decoded is an error and never counts as "no
record".
-/

namespace Paymaster.Reserve

/-- A deposit that has not been seen to arrive. -/
structure BridgeRecord where
  /-- The balance right before the deposit. -/
  baseline : Amount
  /-- How much was deposited. -/
  amount : Amount
  /-- The hash of the claim secret. -/
  secretHash : Word
  /-- The message that carries the deposit over. -/
  messageHash : Word
  /-- The place of the message in the tree of messages. -/
  leafIndex : UInt64
  /-- When the deposit was made, in milliseconds of Unix time. -/
  submittedAt : UInt64
  deriving DecidableEq, Repr

/-- The record as it is written: six strings. -/
structure WrittenRecord where
  /-- The balance right before the deposit. -/
  baseline : String
  /-- How much was deposited. -/
  amount : String
  /-- The hash of the claim secret. -/
  secretHash : String
  /-- The message that carries the deposit over. -/
  messageHash : String
  /-- The place of the message. -/
  leafIndex : String
  /-- When the deposit was made. -/
  submittedAt : String
  deriving DecidableEq, Repr

/-- The content of a state file. -/
structure WrittenState where
  /-- The version of the format. -/
  version : UInt64
  /-- The record, if there is one. -/
  record : Option WrittenRecord
  deriving DecidableEq, Repr

/-- The version of the format. -/
def stateVersion : UInt64 := 1

/-- Why the content of a state file is no record. -/
inductive RecordError where
  /-- It is no JSON of the right form. -/
  | malformed (why : Document.DecodeError)
  /-- It has another version. -/
  | unsupportedVersion (version : UInt64)
  /-- A field has no valid value. -/
  | invalidField (field reason : String)
  deriving DecidableEq, Repr

namespace BridgeRecord

/-- The record as six strings. -/
def toWritten (r : BridgeRecord) : WrittenRecord where
  baseline := r.baseline.toDecimal
  amount := r.amount.toDecimal
  secretHash := r.secretHash.toHex
  messageHash := r.messageHash.toHex
  leafIndex := toString r.leafIndex.toNat
  submittedAt := toString r.submittedAt.toNat

end BridgeRecord

/-- Reads a decimal string below a bound. -/
def readDecimal (bound : Nat) (field s : String) : Except RecordError Nat :=
  if s.isEmpty ∨ !s.toList.all Text.isDigit then
    .error (.invalidField field s!"expected a decimal string, got {Text.quote s}")
  else match Text.readUnsigned bound s with
    | .ok n => .ok n
    | .error e => .error (.invalidField field s!"{e.message} ({Text.quote s})")

/-- The length of a written word in bytes. -/
def writtenWordLength : Nat := 66

/-- Reads a word that is written out in full. -/
def readWord (field s : String) : Except RecordError Word :=
  if (Text.stripPrefix? "0x" s).isNone ∨ s.utf8ByteSize ≠ writtenWordLength then
    .error (.invalidField field "expected 0x followed by 64 hex digits")
  else match Word.ofText s with
    | .ok w => .ok w
    | .error e => .error (.invalidField field e.message)

/-- The record that six strings denote; the first invalid field counts. -/
def BridgeRecord.ofWritten (w : WrittenRecord) : Except RecordError BridgeRecord := do
  let baseline ← readDecimal Amount.bound "bridge.baselineBalance" w.baseline
  let amount ← readDecimal Amount.bound "bridge.amount" w.amount
  let secretHash ← readWord "bridge.claimSecretHash" w.secretHash
  let messageHash ← readWord "bridge.messageHash" w.messageHash
  let leafIndex ← readDecimal UInt64.size "bridge.messageLeafIndex" w.leafIndex
  let submittedAt ← readDecimal UInt64.size "bridge.submittedAtMs" w.submittedAt
  return ⟨BitVec.ofNat 128 baseline, BitVec.ofNat 128 amount, secretHash, messageHash,
    UInt64.ofNat leafIndex, UInt64.ofNat submittedAt⟩

namespace WrittenState

open Document (Decoder Fields)

/-- Decodes the six strings of a record. -/
def recordDecoder : Decoder WrittenRecord :=
  .record "struct WireRecord" (WrittenRecord.mk
    <$> .required "baselineBalance" .text
    <*> .required "amount" .text
    <*> .required "claimSecretHash" .text
    <*> .required "messageHash" .text
    <*> .required "messageLeafIndex" .text
    <*> .required "submittedAtMs" .text)

/-- Decodes the content of a state file. -/
def decoder : Decoder WrittenState :=
  .record "struct StateFile" (WrittenState.mk
    <$> .required "version" .uint64
    <*> .defaulted "bridge" (.nullable recordDecoder) none)

/-- The content of a state file as JSON. -/
def toJson (s : WrittenState) : Json :=
  let record (r : WrittenRecord) : Json :=
    .table [("baselineBalance", .text r.baseline), ("amount", .text r.amount),
      ("claimSecretHash", .text r.secretHash), ("messageHash", .text r.messageHash),
      ("messageLeafIndex", .text r.leafIndex), ("submittedAtMs", .text r.submittedAt)]
  .table [("version", .nat s.version.toNat), ("bridge", (s.record.map record).getD .null)]

end WrittenState

namespace BridgeRecord

/-- The bytes of the state file that keeps a record. -/
def encode (r : BridgeRecord) : List UInt8 :=
  Text.Utf8.encode (WrittenState.toJson ⟨stateVersion, some r.toWritten⟩).pretty

/-- The record that the bytes of a state file keep, if they keep one. -/
def decode (bytes : List UInt8) : Except RecordError (Option BridgeRecord) :=
  match Json.decode WrittenState.decoder bytes with
  | .error e => .error (.malformed e)
  | .ok s =>
    if s.version ≠ stateVersion then .error (.unsupportedVersion s.version)
    else match s.record with
      | none => .ok none
      | some w => (ofWritten w).map some

end BridgeRecord
end Paymaster.Reserve

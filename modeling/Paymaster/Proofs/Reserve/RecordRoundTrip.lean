import Paymaster.Proofs.Json.ReadBack
import Paymaster.Reserve.Record
/-!
# Records read back

The bytes that are written for a record are decoded to this record, whatever its six values are. The
text is read back as a document; the document has all fields of the record; and each of the six
strings denotes the value that it was written for.
-/

namespace Paymaster.Reserve

open Document (Decoder Fields Tree)
open Json (isPlain isPlainText_toString isPlainText_toHex)

/-! ## The six strings -/

theorem BridgeRecord.ofWritten_toWritten (r : BridgeRecord) : ofWritten r.toWritten = .ok r := by
  have hbaseline := readDecimal_toString "bridge.baselineBalance" r.baseline.toNat_lt_bound
  have hamount := readDecimal_toString "bridge.amount" r.amount.toNat_lt_bound
  have hleaf := readDecimal_toString "bridge.messageLeafIndex" r.leafIndex.toNat_lt
  have htime := readDecimal_toString "bridge.submittedAtMs" r.submittedAt.toNat_lt
  rw [ofWritten, toWritten]
  simp only [Amount.toDecimal]
  rw [hbaseline, hamount, readWord_toHex, readWord_toHex, hleaf, htime]
  simp only [bind, Except.bind, pure, Except.pure, BitVec.ofNat_toNat, BitVec.setWidth_eq,
    UInt64.ofNat_toNat]

/-! ## The document -/

theorem WrittenState.isPlain_toJson (r : BridgeRecord) :
    isPlain (toJson ⟨stateVersion, some r.toWritten⟩) = true := by
  have hversion : isPlain (.nat stateVersion.toNat) = true := by decide
  simp only [toJson, Option.map_some, Option.getD_some, isPlain, Json.arePlain, hversion,
    BridgeRecord.toWritten, Amount.toDecimal, isPlainText_toString, isPlainText_toHex]
  decide

namespace WrittenState

theorem recordDecoder_table (w : WrittenRecord) :
    recordDecoder (.table [("baselineBalance", .text w.baseline), ("amount", .text w.amount),
      ("claimSecretHash", .text w.secretHash), ("messageHash", .text w.messageHash),
      ("messageLeafIndex", .text w.leafIndex), ("submittedAtMs", .text w.submittedAt)]) = .ok w :=
  rfl

theorem decoder_table {w : WrittenRecord} {fields : List (String × Tree)}
    (h : recordDecoder (.table fields) = .ok w) :
    decoder (.table [("version", .int 1), ("bridge", .table fields)])
      = .ok ⟨stateVersion, some w⟩ := by
  have hversion : Decoder.uint64 (.int 1) = .ok stateVersion := rfl
  rw [decoder, Decoder.record]
  simp only [Decoder.ofFields, Fields.required, Fields.defaulted, Fields.field, Seq.seq, Functor.map,
    Document.checkFields]
  simp [List.lookup_cons, Decoder.nullable, hversion, h, Except.map, bind, Except.bind, pure,
    Except.pure]

theorem decoder_toTree (w : WrittenRecord) :
    decoder (toJson ⟨stateVersion, some w⟩).toTree = .ok ⟨stateVersion, some w⟩ :=
  decoder_table (recordDecoder_table w)

/-- Six plain strings are read back from the file that they are written to. -/
theorem decode_pretty {w : WrittenRecord} (h : isPlain (toJson ⟨stateVersion, some w⟩) = true) :
    Json.decode decoder (Text.Utf8.encode (toJson ⟨stateVersion, some w⟩).pretty)
      = .ok ⟨stateVersion, some w⟩ := by
  have hread := Json.readDocument_pretty h
  rw [Json.decode, hread]
  simp only [decoder_toTree]
  rfl

end WrittenState

/-- The bytes that are written for a record are decoded to this record. -/
theorem BridgeRecord.decode_encode (r : BridgeRecord) : decode r.encode = .ok (some r) := by
  rw [decode, encode, WrittenState.decode_pretty (WrittenState.isPlain_toJson r)]
  simp [ofWritten_toWritten, Except.map]

end Paymaster.Reserve

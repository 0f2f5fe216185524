import Paymaster.Proofs.Json.CompactTables
import Paymaster.Proofs.Quote.Terms
/-!
# A quote is what was signed

A contract on the rollup does not see the terms that were signed. It takes the numbers that a caller
has read off the body of a reply, rebuilds the bytes from them, and checks the signature against
their hash. So what is read off the body has to be what was signed, to the last bit.
-/

namespace Paymaster.Quote

open Document (Decoder Fields)
open Text (Utf8.encode)

/-! ## Replies read back -/

/-- What a caller reads off the body of a reply. -/
structure Told where
  /-- The asset to pay with. -/
  acceptedAsset : Address
  /-- The fee juice to get. -/
  feeJuice : Nat
  /-- What to pay. -/
  payment : Nat
  /-- The last second at which the quote holds. -/
  validUntil : Nat
  signature : List UInt8

namespace Told

/-- Reads a signature: digits with a marker in front. -/
def readSignature (s : String) : Except String (List UInt8) :=
  match Text.stripPrefix? "0x" s with
  | some digits => (Text.Hex.decode digits).mapError Text.Hex.Error.message
  | none => .error "signature must be 0x-prefixed hex"

/-- Decodes a number from a decimal string. -/
def decimal (bound : Nat) : Decoder Nat :=
  .parsed (Text.readUnsigned bound) Text.UnsignedError.message

/-- Decodes the body of a reply. -/
def decoder : Decoder Told :=
  .record "a quote" (Told.mk
    <$> .required "accepted_asset" Address.decoder
    <*> .required "fj_amount" (decimal Amount.bound)
    <*> .required "aa_payment_amount" (decimal Amount.bound)
    <*> .required "valid_until" (decimal UInt64.size)
    <*> .required "signature" (.parsed readSignature id))

/-- Reads the body of a reply. -/
def ofBody (body : String) : Except Document.DecodeError Told :=
  Json.decode decoder (Utf8.encode body)

/-- The bytes that a contract rebuilds for its facility and a user: seven words of 32 bytes. -/
def rebuild (x : Told) (facility user : Address) : List UInt8 :=
  List.replicate 20 0 ++ Utf8.encode "fpc-quote-v1" ++ bigEndian 32 facility.word.toNat ++
    bigEndian 32 x.acceptedAsset.word.toNat ++ bigEndian 32 x.feeJuice ++ bigEndian 32 x.payment ++
    bigEndian 32 x.validUntil ++ bigEndian 32 user.word.toNat

theorem length_rebuild (x : Told) (facility user : Address) :
    (x.rebuild facility user).length = 224 := by
  have htag : (Utf8.encode "fpc-quote-v1").length = 12 := by decide
  simp [rebuild, length_bigEndian, htag]

end Told

/-- What a quote tells. -/
def Signed.told (q : Signed) : Told :=
  ⟨q.acceptedAsset, q.feeJuice.toNat, q.payment.toNat, q.validUntil.toNat, q.signature⟩

theorem readSignature_signatureHex (q : Signed) :
    Told.readSignature q.signatureHex = .ok q.signature := by
  have hstrip : Text.stripPrefix? "0x" q.signatureHex = some (Text.Hex.encode q.signature) := by
    simp [Text.stripPrefix?, Signed.signatureHex]
  rw [Told.readSignature, hstrip]
  simp only [Text.Hex.decode_encode]
  rfl

/-- A table with the five strings of a reply is decoded to what they denote. -/
theorem Told.decoder_table {x : Told} {asset feeJuice payment validUntil signature : String}
    (hasset : Address.ofText asset = .ok x.acceptedAsset)
    (hfee : Text.readUnsigned Amount.bound feeJuice = .ok x.feeJuice)
    (hpay : Text.readUnsigned Amount.bound payment = .ok x.payment)
    (hvalid : Text.readUnsigned UInt64.size validUntil = .ok x.validUntil)
    (hsign : readSignature signature = .ok x.signature) :
    decoder (.table [("accepted_asset", .text asset), ("fj_amount", .text feeJuice),
      ("aa_payment_amount", .text payment), ("valid_until", .text validUntil),
      ("signature", .text signature)]) = .ok x := by
  rw [decoder, Decoder.record]
  simp only [Decoder.ofFields, Fields.required, Fields.field, Seq.seq, Functor.map,
    Document.checkFields, Address.decoder, decimal]
  simp [List.lookup_cons, Decoder.parsed_text hasset, Decoder.parsed_text hfee,
    Decoder.parsed_text hpay, Decoder.parsed_text hvalid, Decoder.parsed_text hsign, Except.map,
    bind, Except.bind, pure, Except.pure]

theorem Signed.toJson_eq (q : Signed) : q.toJson = .table (Json.textFields
    [("accepted_asset", q.acceptedAsset.toHex), ("fj_amount", q.feeJuice.toDecimal),
      ("aa_payment_amount", q.payment.toDecimal), ("valid_until", toString q.validUntil.toNat),
      ("signature", q.signatureHex)]) := rfl

/-- The body of a reply tells the quote. -/
theorem ofBody_toJson (q : Signed) : Told.ofBody q.toJson.compact = .ok q.told := by
  have hplain : Json.arePlainTexts [("accepted_asset", q.acceptedAsset.toHex),
      ("fj_amount", q.feeJuice.toDecimal), ("aa_payment_amount", q.payment.toDecimal),
      ("valid_until", toString q.validUntil.toNat), ("signature", q.signatureHex)] = true := by
    simp only [Json.arePlainTexts, List.all_cons, List.all_nil, Address.toHex, Amount.toDecimal,
      Signed.signatureHex, Json.isPlainText_toHex, Json.isPlainText_toString, Json.isPlainText_hex]
    decide
  have hread := Json.readDocument_texts hplain
  rw [← Signed.toJson_eq] at hread
  have hdecode : Told.decoder q.toJson.toTree = .ok q.told :=
    Told.decoder_table (Address.ofText_toHex q.acceptedAsset)
      (Text.readUnsigned_toString q.feeJuice.toNat_lt_bound)
      (Text.readUnsigned_toString q.payment.toNat_lt_bound)
      (Text.readUnsigned_toString q.validUntil.toNat_lt) (readSignature_signatureHex q)
  rw [Told.ofBody, Json.decode, hread]
  simp only [bind, Except.bind, hdecode]
  rfl

/-! ## What is signed -/

theorem toBytes_ofAmount (a : Amount) : (Word.ofAmount a).toBytes = bigEndian 32 a.toNat := by
  have ha := a.isLt
  rw [Word.toBytes, Word.ofAmount, BitVec.toNat_ofNat, Nat.mod_eq_of_lt (by omega)]

theorem toBytes_ofUInt64 (n : UInt64) : (Word.ofUInt64 n).toBytes = bigEndian 32 n.toNat := by
  have hn := n.toNat_lt
  rw [Word.toBytes, Word.ofUInt64, BitVec.toNat_ofNat, Nat.mod_eq_of_lt (by omega)]

theorem toBytes_domainSeparator :
    domainSeparator.toBytes = List.replicate 20 0 ++ Utf8.encode "fpc-quote-v1" := by
  decide

/-- The bytes that are rebuilt from what a quote tells are those of its terms. -/
theorem rebuild_told (p : Preimage) (signature : List UInt8) :
    (Signed.told ⟨p.acceptedAsset, p.feeJuice, p.payment, p.validUntil, p.user, signature⟩).rebuild
      p.facility p.user = p.toBytes := by
  rw [Preimage.toBytes, Preimage.words, Told.rebuild]
  simp only [List.flatMap_cons, List.flatMap_nil, toBytes_domainSeparator, toBytes_ofAmount,
    toBytes_ofUInt64, List.append_assoc, List.append_nil]
  rfl

/-- A quote tells its terms, and carries the signature of the bytes that are rebuilt from them. -/
theorem told_of_issue {b : Binder} {user : Address} {amount : Amount} {issuedAt : UInt64}
    {q : Signed} (h : b.issue user amount issuedAt = .ok q) :
    q.told.acceptedAsset = b.acceptedAsset ∧ q.told.feeJuice = amount.toNat ∧
      q.told.payment = (amount.toNat * b.rate.num.toNat) ⌈/⌉ b.rate.den.toNat ∧
      1 ≤ q.told.payment ∧ q.told.validUntil = issuedAt.toNat + b.validity.toNat ∧
      b.signer.sign (Word.ofBytes (Digest.Blake3.hash (q.told.rebuild b.facility user))) =
        .ok q.told.signature := by
  obtain ⟨p, signature, hpreimage, hsign, rfl⟩ := Binder.issue_eq_ok h
  have hbytes := rebuild_told p signature
  obtain ⟨-, hamount, hlt, payment, hpayment, rfl⟩ := Binder.preimage_eq_ok.mp hpreimage
  have hprice := ((payment_eq_ok b.rate.den_ne_zero).mp hpayment).2
  have hone := one_le_payment hamount b.rate.num_ne_zero b.rate.den_ne_zero hpayment
  have hvalid : (issuedAt + b.validity).toNat = issuedAt.toNat + b.validity.toNat := by
    rw [UInt64.toNat_add, Nat.mod_eq_of_lt hlt]
  rw [Preimage.hash, ← hbytes] at hsign
  exact ⟨rfl, rfl, hprice, hone, hvalid, hsign⟩

/-! ## The reply -/

/-- A request for a quote that is answered with the status 200 asks for an amount for a user, and
its answer was signed: what is read off the body is the accepted asset, the amount, the price
rounded up and the end of validity, and the signature in the body is the signer's for the hash of the
bytes that are rebuilt from the numbers in the body. -/
theorem reply_is_signed {facility asset : Address} {rate : Rate} {validity : UInt64}
    {signer : Signer} {d : Desk} (hbinder : Binder.of facility asset rate validity signer = .ok d.binder)
    {now : ClockReadings} {r : Request} {s : DeskState} (hmethod : r.method = "GET")
    (hpath : (Http.splitTarget r.url).1 = "/quote") (hok : (d.route now r s).1.status = 200) :
    ∃ user amount told, Asks (.parse (Http.splitTarget r.url).2) user amount ∧
      Told.ofBody (d.route now r s).1.body = .ok told ∧
      told.acceptedAsset = asset ∧ told.feeJuice = amount.toNat ∧
      told.payment = (amount.toNat * rate.num.toNat) ⌈/⌉ rate.den.toNat ∧ 1 ≤ told.payment ∧
      told.validUntil = now.quote.toNat / 1000 + min validity.toNat 3600 ∧
      (told.rebuild facility user).length = 224 ∧
      signer.sign (Word.ofBytes (Digest.Blake3.hash (told.rebuild facility user))) =
        .ok told.signature := by
  obtain ⟨q, hquote, hreply⟩ := Desk.route_quote_ok hmethod hpath hok
  obtain ⟨user, amount, huser, hamount, hissue⟩ := Desk.quoteFor_eq_ok hquote
  rw [Binder.of_eq_ok hbinder] at hissue
  obtain ⟨hasset, hfee, hprice, hone, hvalid, hsign⟩ := told_of_issue hissue
  have hbody : Told.ofBody (d.route now r s).1.body = .ok q.told := by
    rw [hreply]
    exact ofBody_toJson q
  have hcut : (min validity maxValidity).toNat = min validity.toNat 3600 :=
    UInt64.toNat_min validity maxValidity
  rw [UInt64.toNat_div, hcut] at hvalid
  exact ⟨user, amount, q.told, asks_of_read huser hamount, hbody, hasset, hfee, hprice, hone,
    hvalid, q.told.length_rebuild facility user, hsign⟩

/-- A desk that lets everybody in, sells two units of fee juice for three, and signs a hash with
itself. -/
def plainDesk : Desk where
  binder := ⟨⟨1⟩, ⟨2⟩, ⟨3, 2, by decide, by decide⟩, maxValidity,
    ⟨"", fun hash => .ok hash.toBytes⟩⟩
  assetName := "coin"
  gate := .disabled
  limits := ⟨false, 1, 60, 100⟩
  metricsEnabled := false

/-- A request for a quote. -/
def plainRequest : Request := ⟨"GET", "/quote?user=0x5&fj_amount=101", ⟨none, none, "127.0.0.1"⟩⟩

/-- The desk was opened for a longer validity than is allowed, so its quote holds for an hour. -/
theorem reply_is_signed_capped : ∃ told user,
    (plainDesk.route ⟨1700000000998, 1700000000999⟩ plainRequest .initial).1.status = 200 ∧
      Told.ofBody (plainDesk.route ⟨1700000000998, 1700000000999⟩ plainRequest .initial).1.body =
        .ok told ∧
      told.validUntil = 1700003600 ∧
      plainDesk.binder.signer.sign (Word.ofBytes (Digest.Blake3.hash (told.rebuild ⟨1⟩ user))) =
        .ok told.signature := by
  have hbinder : Binder.of ⟨1⟩ ⟨2⟩ plainDesk.binder.rate 5000 plainDesk.binder.signer =
      .ok plainDesk.binder := rfl
  have hpath : (Http.splitTarget plainRequest.url).1 = "/quote" := by decide
  have hok :
      (plainDesk.route ⟨1700000000998, 1700000000999⟩ plainRequest .initial).1.status = 200 := by
    decide +kernel
  obtain ⟨user, amount, told, -, hbody, -, -, -, -, hvalid, -, hsign⟩ :=
    reply_is_signed hbinder rfl hpath hok
  exact ⟨told, user, hok, hbody, hvalid, hsign⟩

end Paymaster.Quote

import Paymaster.Proofs.Quote.SignedReply
/-!
# The bytes that are signed

A signature covers the hash of seven words of 32 bytes each. Every word is as wide as every other,
whatever it holds, so each lies at its own place and can be read off there; two quotes with the same
bytes are the same quote. A binder sets the end of validity by adding a fixed time, so two quotes that
it issues differ in their bytes if they were asked for by different users, for different amounts or
at different times.
-/

namespace Paymaster

/-- The word at a place among words of 32 bytes each. -/
def Word.readAt (i : Nat) (bytes : List UInt8) : Word := ofBytes ((bytes.drop (32 * i)).take 32)

/-- A word lies where the ones before it end. -/
theorem Word.slice_flatMap {ws : List Word} {w : Word} {i : Nat} (h : ws[i]? = some w) :
    ((ws.flatMap toBytes).drop (32 * i)).take 32 = w.toBytes := by
  induction ws generalizing i with
  | nil => cases h
  | cons v rest ih =>
    have hv := length_toBytes v
    rw [List.flatMap_cons]
    cases i with
    | zero =>
      cases h
      rw [Nat.mul_zero, List.drop_zero]
      exact List.take_left' hv
    | succ i =>
      have hplace : 32 * (i + 1) = v.toBytes.length + 32 * i := by omega
      rw [hplace, List.drop_length_add_append]
      exact ih h

theorem Word.readAt_flatMap {ws : List Word} {w : Word} {i : Nat} (h : ws[i]? = some w) :
    readAt i (ws.flatMap toBytes) = w := by
  rw [readAt, slice_flatMap h, ofBytes_toBytes]

theorem Word.toNat_ofUInt64 (n : UInt64) : (ofUInt64 n).toNat = n.toNat := by
  have hn := n.toNat_lt
  rw [ofUInt64, BitVec.toNat_ofNat, Nat.mod_eq_of_lt (by omega)]

namespace Quote.Preimage

open Text (Utf8.encode)

variable {p q : Preimage}

/-- What seven words tell that are the words of some terms. -/
structure Tells (bytes : List UInt8) (p : Preimage) : Prop where
  facility : Word.readAt 1 bytes = p.facility.word
  acceptedAsset : Word.readAt 2 bytes = p.acceptedAsset.word
  feeJuice : (Word.readAt 3 bytes).toAmount? = some p.feeJuice
  payment : (Word.readAt 4 bytes).toAmount? = some p.payment
  validUntil : (Word.readAt 5 bytes).toNat = p.validUntil.toNat
  user : Word.readAt 6 bytes = p.user.word

theorem length_bytes (p : Preimage) : p.toBytes.length = 224 := by
  simp [toBytes, words, Word.length_toBytes]

theorem take_toBytes (p : Preimage) :
    p.toBytes.take 32 = List.replicate 20 0 ++ Utf8.encode "fpc-quote-v1" := by
  rw [← toBytes_domainSeparator]
  exact List.take_left' (Word.length_toBytes domainSeparator)

/-- Each term is told by the word at its place. -/
theorem tells_toBytes (p : Preimage) : Tells p.toBytes p where
  facility := Word.readAt_flatMap rfl
  acceptedAsset := Word.readAt_flatMap rfl
  feeJuice := by
    have hword : Word.readAt 3 p.toBytes = Word.ofAmount p.feeJuice := Word.readAt_flatMap rfl
    rw [hword, Word.toAmount?_ofAmount]
  payment := by
    have hword : Word.readAt 4 p.toBytes = Word.ofAmount p.payment := Word.readAt_flatMap rfl
    rw [hword, Word.toAmount?_ofAmount]
  validUntil := by
    have hword : Word.readAt 5 p.toBytes = Word.ofUInt64 p.validUntil := Word.readAt_flatMap rfl
    rw [hword, Word.toNat_ofUInt64]
  user := Word.readAt_flatMap rfl

/-- Bytes tell the terms of no more than one quote. -/
theorem Tells.unique {bytes : List UInt8} (hp : Tells bytes p) (hq : Tells bytes q) : p = q := by
  have hfacility := hp.facility.symm.trans hq.facility
  have hasset := hp.acceptedAsset.symm.trans hq.acceptedAsset
  have hfee := Option.some.inj (hp.feeJuice.symm.trans hq.feeJuice)
  have hpay := Option.some.inj (hp.payment.symm.trans hq.payment)
  have hvalid := UInt64.toNat_inj.mp (hp.validUntil.symm.trans hq.validUntil)
  have huser := hp.user.symm.trans hq.user
  obtain ⟨⟨facility⟩, ⟨asset⟩, fee, pay, valid, ⟨user⟩⟩ := p
  obtain ⟨⟨facility'⟩, ⟨asset'⟩, fee', pay', valid', ⟨user'⟩⟩ := q
  subst hfacility hasset hfee hpay hvalid huser
  rfl

theorem toBytes_injective (h : p.toBytes = q.toBytes) : p = q := by
  have hp := p.tells_toBytes
  rw [h] at hp
  exact hp.unique q.tells_toBytes

end Quote.Preimage

namespace Quote

open Text (Utf8.encode)

variable {b : Binder}

/-- The terms of a binder tell what was asked for. -/
theorem Binder.preimage_injective {user user' : Address} {amount amount' : Amount}
    {issuedAt issuedAt' : UInt64} {p : Preimage} (h : b.preimage user amount issuedAt = .ok p)
    (h' : b.preimage user' amount' issuedAt' = .ok p) :
    user = user' ∧ amount = amount' ∧ issuedAt = issuedAt' := by
  obtain ⟨-, -, -, payment, -, rfl⟩ := Binder.preimage_eq_ok.mp h
  obtain ⟨-, -, -, payment', -, heq⟩ := Binder.preimage_eq_ok.mp h'
  simp only [Preimage.mk.injEq, UInt64.add_left_inj] at heq
  obtain ⟨-, -, hamount, -, hissued, huser⟩ := heq
  exact ⟨huser, hamount, hissued⟩

/-- Terms have the same bytes exactly if they agree in all they say. The bytes are 224, the domain
separator comes first, and each term is told by the word at its place. So the bytes whose hash a
binder has signed differ between any two quotes that it has issued for different users, for
different amounts or at different times. -/
theorem bytes_tell_terms :
    (∀ p q : Preimage, p.toBytes = q.toBytes ↔
      p.facility = q.facility ∧ p.acceptedAsset = q.acceptedAsset ∧ p.feeJuice = q.feeJuice ∧
        p.payment = q.payment ∧ p.validUntil = q.validUntil ∧ p.user = q.user) ∧
    (∀ p : Preimage, p.toBytes.length = 224 ∧
      p.toBytes.take 32 = List.replicate 20 0 ++ Utf8.encode "fpc-quote-v1" ∧ p.Tells p.toBytes) ∧
    ∀ (b : Binder) (user user' : Address) (amount amount' : Amount) (issuedAt issuedAt' : UInt64)
      (s s' : Signed), b.issue user amount issuedAt = .ok s →
      b.issue user' amount' issuedAt' = .ok s' →
      user ≠ user' ∨ amount ≠ amount' ∨ issuedAt ≠ issuedAt' →
      ∃ p p', b.preimage user amount issuedAt = .ok p ∧
        b.preimage user' amount' issuedAt' = .ok p' ∧
        b.signer.sign (Word.ofBytes (Digest.Blake3.hash p.toBytes)) = .ok s.signature ∧
        b.signer.sign (Word.ofBytes (Digest.Blake3.hash p'.toBytes)) = .ok s'.signature ∧
        p.toBytes ≠ p'.toBytes := by
  refine ⟨fun p q => ⟨fun h => ?_, fun h => ?_⟩, fun p => ?_, ?_⟩
  · cases Preimage.toBytes_injective h
    exact ⟨rfl, rfl, rfl, rfl, rfl, rfl⟩
  · obtain ⟨hfacility, hasset, hfee, hpay, hvalid, huser⟩ := h
    rw [Preimage.toBytes, Preimage.toBytes, Preimage.words, Preimage.words, hfacility, hasset, hfee,
      hpay, hvalid, huser]
  · exact ⟨p.length_bytes, p.take_toBytes, p.tells_toBytes⟩
  · intro b user user' amount amount' issuedAt issuedAt' s s' hs hs' hdiffer
    obtain ⟨p, signature, hp, hsign, rfl⟩ := Binder.issue_eq_ok hs
    obtain ⟨p', signature', hp', hsign', rfl⟩ := Binder.issue_eq_ok hs'
    refine ⟨p, p', hp, hp', hsign, hsign', fun hbytes => ?_⟩
    cases Preimage.toBytes_injective hbytes
    obtain ⟨huser, hamount, hissued⟩ := Binder.preimage_injective hp hp'
    rcases hdiffer with h | h | h
    · exact h huser
    · exact h hamount
    · exact h hissued

/-- A binder whose signer signs everything, for half as much of the asset as of the fee juice. -/
def evenBinder : Binder :=
  ⟨⟨1⟩, ⟨2⟩, ⟨7, 14, by decide, by decide⟩, maxValidity, ⟨"", fun _ => .ok []⟩⟩

/-- The price of one unit is that of two, so only the amount tells the two quotes apart. -/
theorem bytes_tell_terms_same_price : ∃ s s' p p', evenBinder.issue ⟨5⟩ 1 100 = .ok s ∧
    evenBinder.issue ⟨5⟩ 2 100 = .ok s' ∧ s.payment = s'.payment ∧
      evenBinder.preimage ⟨5⟩ 1 100 = .ok p ∧ evenBinder.preimage ⟨5⟩ 2 100 = .ok p' ∧
      p.toBytes ≠ p'.toBytes := by
  have hs : evenBinder.issue ⟨5⟩ 1 100 = .ok ⟨⟨2⟩, 1, 1, 3700, ⟨5⟩, []⟩ := rfl
  have hs' : evenBinder.issue ⟨5⟩ 2 100 = .ok ⟨⟨2⟩, 2, 1, 3700, ⟨5⟩, []⟩ := rfl
  obtain ⟨p, p', hp, hp', -, -, hne⟩ := bytes_tell_terms.2.2 evenBinder ⟨5⟩ ⟨5⟩ 1 2 100 100 _ _
    hs hs' (.inr (.inl (by decide)))
  exact ⟨_, _, p, p', hs, hs', rfl, hp, hp', hne⟩

end Quote
end Paymaster

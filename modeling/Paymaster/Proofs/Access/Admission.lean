import Mathlib.Logic.Function.Defs
import Paymaster.Access
import Paymaster.Proofs.Outcomes
/-!
# Who is let in

Each mode of a gate has a formula over two facts: that the right API key was presented, and that the
right header was. The checks of a gate compare digests only, so each of them passes exactly if its
fact holds; the modes combine the checks, and drop the reason of a check that failed where another
one may still pass. Here the combinations are shown to be the formulas, and the identities to be those
of the callers: nobody gets the identity of a key without presenting one, and the keys under which
identities are counted are all different.
-/

namespace Paymaster.Access

variable {mode : Mode} {key value : Option String} {headerName : String} {g : Gate}
  {c : Credentials} {i : Identity}

/-- A credential is presented whose digest is that of the configured one. -/
def Presents (presented configured : Option String) : Prop :=
  ∃ p q, presented = some p ∧ configured = some q ∧ digest p = digest q

/-- The formula of a mode over the API key and the trusted header. -/
def Mode.Admits (hasKey hasHeader : Prop) : Mode → Prop
  | .disabled => True
  | .apiKey => hasKey
  | .trustedHeader => hasHeader
  | .either => hasKey ∨ hasHeader
  | .both => hasKey ∧ hasHeader

/-- Who a caller with some credentials is: whoever holds the API key, if the mode asks for one, and
anybody else by the address. -/
inductive Credentials.KnownAs (c : Credentials) (mode : Mode) (key : Option String) :
    Identity → Prop
  | key {presented : String} (huses : mode.usesApiKey = true) (hgiven : c.apiKey = some presented)
      (hright : Presents c.apiKey key) : KnownAs c mode key (.key (Text.Hex.encode (digest presented)))
  | remote (hnot : ¬(mode.usesApiKey = true ∧ Presents c.apiKey key)) :
      KnownAs c mode key (.remote c.remote)

/-! ## The digests of a gate -/

theorem digestIf_eq_ok {ε : Type} {needed : Bool} {missing : ε} {expected : Option (List UInt8)} :
    digestIf needed value missing = .ok expected ↔
      if needed then ∃ v, value = some v ∧ v ≠ "" ∧ expected = some (digest v)
      else expected = none := by
  cases needed with
  | false => simp [digestIf, @eq_comm _ expected]
  | true =>
    cases value with
    | none => simp [digestIf]
    | some v => by_cases hempty : v = "" <;> simp [digestIf, hempty, @eq_comm _ expected]

theorem exists_digestIf_iff {ε : Type} {needed : Bool} {missing : ε} :
    (∃ expected, digestIf needed value missing = .ok expected) ↔
      (needed = true → ∃ v, value = some v ∧ v ≠ "") := by
  simp only [digestIf_eq_ok]
  cases needed with
  | false => simp
  | true =>
    simp only [if_true, true_implies]
    exact ⟨fun ⟨_, v, hv, hne, _⟩ => ⟨v, hv, hne⟩, fun ⟨v, hv, hne⟩ => ⟨_, v, hv, hne, rfl⟩⟩

/-- What a gate keeps of the credentials that it is made with. -/
theorem Gate.of_eq_ok : Gate.of mode key headerName value = .ok g ↔ g.mode = mode ∧
    digestIf mode.usesApiKey key (GateError.needsApiKey mode) = .ok g.keyDigest ∧
      g.headerName = Text.asciiLower (Text.trim headerName) ∧
        digestIf mode.usesTrustedHeader value (GateError.needsTrustedValue mode) =
          .ok g.valueDigest := by
  rw [Gate.of]
  simp only [Except.bind_eq_ok]
  constructor
  · rintro ⟨keyDigest, hkey, valueDigest, hvalue, heq⟩
    cases heq
    exact ⟨rfl, hkey, rfl, hvalue⟩
  · rintro ⟨rfl, hkey, hname, hvalue⟩
    exact ⟨_, hkey, _, hvalue, by rw [← hname]; rfl⟩

/-- There is a gate exactly if the credentials that matter are there. -/
theorem Gate.exists_of_iff : (∃ gate, Gate.of mode key headerName value = .ok gate) ↔
    (mode.usesApiKey = true → ∃ k, key = some k ∧ k ≠ "") ∧
      (mode.usesTrustedHeader = true → ∃ v, value = some v ∧ v ≠ "") := by
  rw [← exists_digestIf_iff, ← exists_digestIf_iff]
  constructor
  · rintro ⟨gate, h⟩
    obtain ⟨-, hkey, -, hvalue⟩ := Gate.of_eq_ok.mp h
    exact ⟨⟨_, hkey⟩, ⟨_, hvalue⟩⟩
  · rintro ⟨⟨keyDigest, hkey⟩, ⟨valueDigest, hvalue⟩⟩
    exact ⟨⟨mode, keyDigest, _, valueDigest⟩, Gate.of_eq_ok.mpr ⟨rfl, hkey, rfl, hvalue⟩⟩

theorem matchesDigest_iff {expected : Option (List UInt8)} {presented : String} :
    matchesDigest expected presented = true ↔ expected = some (digest presented) := by
  simp [matchesDigest]

/-- A credential has the digest that a gate expects exactly if it is presented rightly. -/
theorem presents_iff {ε : Type} {needed : Bool} {missing : ε} {presented configured : Option String}
    {expected : Option (List UInt8)} (h : digestIf needed configured missing = .ok expected)
    (hneeded : needed = true) :
    Presents presented configured ↔ ∃ p, presented = some p ∧ matchesDigest expected p = true := by
  rw [digestIf_eq_ok, if_pos hneeded] at h
  obtain ⟨v, rfl, -, rfl⟩ := h
  constructor
  · rintro ⟨p, q, rfl, hq, hdigest⟩
    cases hq
    exact ⟨p, rfl, matchesDigest_iff.mpr (congrArg some hdigest.symm)⟩
  · rintro ⟨p, rfl, hmatch⟩
    exact ⟨p, v, rfl, rfl, (Option.some.inj (matchesDigest_iff.mp hmatch)).symm⟩

/-! ## The two checks -/

namespace Gate

theorem checkKey_eq_ok : g.checkKey c = .ok i ↔ ∃ presented, c.apiKey = some presented ∧
    matchesDigest g.keyDigest presented = true ∧ i = .key (Text.Hex.encode (digest presented)) := by
  rw [checkKey]
  cases c.apiKey with
  | none => simp
  | some presented =>
    by_cases hmatch : matchesDigest g.keyDigest presented = true
    · simp [hmatch, @eq_comm _ i]
    · simp [hmatch]

theorem checkTrusted_eq_ok : g.checkTrusted c = .ok () ↔
    ∃ presented, c.trustedHeader = some presented ∧
      matchesDigest g.valueDigest presented = true := by
  rw [checkTrusted]
  cases c.trustedHeader with
  | none => simp
  | some presented =>
    by_cases hmatch : matchesDigest g.valueDigest presented = true <;> simp [hmatch]

/-- What a gate finds out about a caller, if it looks at the API key: the key is right, and the
caller is known by it, or it is not right. -/
theorem checkKey_cases (hg : Gate.of mode key headerName value = .ok g)
    (huses : mode.usesApiKey = true) (c : Credentials) :
    (Presents c.apiKey key ∧ ∃ i, g.checkKey c = .ok i ∧ c.KnownAs mode key i) ∨
      (¬Presents c.apiKey key ∧ ∃ why, g.checkKey c = .error why) := by
  have hright : Presents c.apiKey key ↔
      ∃ presented, c.apiKey = some presented ∧ matchesDigest g.keyDigest presented = true :=
    presents_iff (of_eq_ok.mp hg).2.1 huses
  by_cases h : Presents c.apiKey key
  · obtain ⟨presented, hgiven, hmatch⟩ := hright.mp h
    exact .inl ⟨h, _, checkKey_eq_ok.mpr ⟨presented, hgiven, hmatch, rfl⟩, .key huses hgiven h⟩
  · refine .inr ⟨h, ?_⟩
    cases hcheck : g.checkKey c with
    | error why => exact ⟨why, rfl⟩
    | ok i =>
      obtain ⟨presented, hgiven, hmatch, -⟩ := checkKey_eq_ok.mp hcheck
      exact absurd (hright.mpr ⟨presented, hgiven, hmatch⟩) h

/-- A gate that looks at the trusted header finds out whether it is right. -/
theorem checkTrusted_cases (hg : Gate.of mode key headerName value = .ok g)
    (huses : mode.usesTrustedHeader = true) (c : Credentials) :
    (Presents c.trustedHeader value ∧ g.checkTrusted c = .ok ()) ∨
      (¬Presents c.trustedHeader value ∧ ∃ why, g.checkTrusted c = .error why) := by
  have hright : g.checkTrusted c = .ok () ↔ Presents c.trustedHeader value := by
    rw [checkTrusted_eq_ok, presents_iff (of_eq_ok.mp hg).2.2.2 huses]
  cases hcheck : g.checkTrusted c with
  | error why =>
    refine .inr ⟨fun h => ?_, why, rfl⟩
    have hok := hright.mpr h
    rw [hcheck] at hok
    cases hok
  | ok _ => exact .inl ⟨hright.mp hcheck, rfl⟩

/-! ## The modes -/

/-- A gate lets a caller in, and as whom, or refuses, as the formula of its mode says. -/
theorem authenticate_cases (hg : Gate.of mode key headerName value = .ok g) (c : Credentials) :
    (mode.Admits (Presents c.apiKey key) (Presents c.trustedHeader value) ∧
        ∃ i, g.authenticate c = .ok i ∧ c.KnownAs mode key i) ∨
      (¬mode.Admits (Presents c.apiKey key) (Presents c.trustedHeader value) ∧
        ∃ why, g.authenticate c = .error why) := by
  have hkey := checkKey_cases hg
  have hheader := checkTrusted_cases hg
  have hmode := (of_eq_ok.mp hg).1
  rw [authenticate, hmode]
  cases mode with
  | disabled => exact .inl ⟨trivial, _, rfl, .remote (by simp [Mode.usesApiKey])⟩
  | apiKey => exact hkey rfl c
  | trustedHeader =>
    rcases hheader rfl c with ⟨hright, hok⟩ | ⟨hwrong, why, herror⟩
    · exact .inl ⟨hright, _, by rw [hok]; rfl, .remote (by simp [Mode.usesApiKey])⟩
    · exact .inr ⟨hwrong, why, by rw [herror]; rfl⟩
  | either =>
    -- why the key was refused is dropped, so a wrong key counts as none
    rcases hkey rfl c with ⟨hright, i, hok, hknown⟩ | ⟨hwrong, why, herror⟩
    · exact .inl ⟨.inl hright, i, by rw [hok], hknown⟩
    · rcases hheader rfl c with ⟨hright, hok⟩ | ⟨hwrong', why', herror'⟩
      · exact .inl ⟨.inr hright, _, by rw [herror, hok], .remote fun h => hwrong h.2⟩
      · exact .inr ⟨not_or.mpr ⟨hwrong, hwrong'⟩, _, by rw [herror, herror']⟩
  | both =>
    rcases hkey rfl c with ⟨hright, i, hok, hknown⟩ | ⟨hwrong, why, herror⟩
    · rcases hheader rfl c with ⟨hright', hok'⟩ | ⟨hwrong', why', herror'⟩
      · exact .inl ⟨⟨hright, hright'⟩, i, by rw [hok, hok']; rfl, hknown⟩
      · exact .inr ⟨fun h => hwrong' h.2, why', by rw [hok, herror']; rfl⟩
    · exact .inr ⟨fun h => hwrong h.1, why, by rw [herror]⟩

/-- A credential that the mode does not ask for is not looked at. -/
theorem authenticate_congr {c' : Credentials} (hremote : c'.remote = c.remote)
    (hkey : g.mode.usesApiKey = true → c'.apiKey = c.apiKey)
    (hheader : g.mode.usesTrustedHeader = true → c'.trustedHeader = c.trustedHeader) :
    g.authenticate c' = g.authenticate c := by
  have hcheckKey (h : g.mode.usesApiKey = true) : g.checkKey c' = g.checkKey c := by
    rw [checkKey, checkKey, hkey h]
  have hcheckTrusted (h : g.mode.usesTrustedHeader = true) :
      g.checkTrusted c' = g.checkTrusted c := by
    rw [checkTrusted, checkTrusted, hheader h]
  rw [authenticate, authenticate, hremote]
  cases hmode : g.mode with
  | disabled => rfl
  | apiKey => exact hcheckKey (by rw [hmode]; rfl)
  | trustedHeader => simp only [hcheckTrusted (by rw [hmode]; rfl)]
  | either =>
    simp only [hcheckKey (by rw [hmode]; rfl), hcheckTrusted (by rw [hmode]; rfl)]
  | both => simp only [hcheckKey (by rw [hmode]; rfl), hcheckTrusted (by rw [hmode]; rfl)]

end Gate

/-! ## Identities -/

/-- No address is counted under the key of another caller. -/
theorem Identity.rateKey_injective : Function.Injective Identity.rateKey := by
  have hmarks (s t : String) : "key:" ++ s ≠ "addr:" ++ t := by
    intro h
    have hlist := congrArg (fun text : String => text.toList.head?) h
    simp at hlist
  have hcancel {mark s t : String} (h : mark ++ s = mark ++ t) : s = t := by
    have hlist := congrArg String.toList h
    rw [String.toList_append, String.toList_append] at hlist
    exact String.toList_injective (List.append_cancel_left hlist)
  intro i j h
  cases i with
  | key s =>
    cases j with
    | key t => exact congrArg Identity.key (hcancel h)
    | remote t => exact absurd h (hmarks s t)
  | remote s =>
    cases j with
    | key t => exact absurd h.symm (hmarks t s)
    | remote t => exact congrArg Identity.remote (hcancel h)

/-- A gate decides by the formula of its mode, whatever it is made with and whatever is presented.
Whoever is let in is known by the API key if the mode asks for one and the right one was presented,
and by the address otherwise. What the mode does not ask for changes nothing; where one of the two
credentials is enough, a wrong key does not spoil the right header; and different identities are
counted under different keys. -/
theorem Gate.decides_by_mode (hg : Gate.of mode key headerName value = .ok g) :
    (∀ c : Credentials, (∃ i, g.authenticate c = .ok i) ↔
      mode.Admits (Presents c.apiKey key) (Presents c.trustedHeader value)) ∧
    (∀ (c : Credentials) (i : Identity), g.authenticate c = .ok i → c.KnownAs mode key i) ∧
    (∀ (c : Credentials) (other : Option String), mode.usesApiKey = false →
      g.authenticate { c with apiKey := other } = g.authenticate c) ∧
    (∀ (c : Credentials) (other : Option String), mode.usesTrustedHeader = false →
      g.authenticate { c with trustedHeader := other } = g.authenticate c) ∧
    (mode = .either → ∀ c : Credentials, ¬Presents c.apiKey key → Presents c.trustedHeader value →
      g.authenticate c = .ok (.remote c.remote)) ∧
    Function.Injective Identity.rateKey := by
  have hmode := (of_eq_ok.mp hg).1
  refine ⟨fun c => ?_, fun c i hi => ?_, fun c other hunused => ?_, fun c other hunused => ?_,
    fun heither c hkey hheader => ?_, Identity.rateKey_injective⟩
  · rcases authenticate_cases hg c with ⟨hadmits, i, hok, -⟩ | ⟨hnot, why, herror⟩
    · exact ⟨fun _ => hadmits, fun _ => ⟨i, hok⟩⟩
    · rw [herror]
      exact ⟨nofun, fun h => absurd h hnot⟩
  · rcases authenticate_cases hg c with ⟨-, j, hok, hknown⟩ | ⟨-, why, herror⟩
    · rw [hi] at hok
      cases hok
      exact hknown
    · rw [hi] at herror
      cases herror
  · exact authenticate_congr rfl (fun h => by simp [hmode, hunused] at h) fun _ => rfl
  · exact authenticate_congr rfl (fun _ => rfl) fun h => by simp [hmode, hunused] at h
  · subst heither
    rcases authenticate_cases hg c with ⟨-, i, hok, hknown⟩ | ⟨hnot, -⟩
    · cases hknown with
      | key huses hgiven hright => exact absurd hright hkey
      | remote => exact hok
    · exact absurd (.inr hheader) hnot

/-- A caller with a wrong key behind a trusted proxy is let in by the header. -/
theorem Gate.decides_by_mode_wrongKey : ∃ g,
    Gate.of .either (some "s3cret") "X-Internal" (some "edge") = .ok g ∧
      g.authenticate ⟨some "guess", some "edge", "10.0.0.7"⟩ = .ok (.remote "10.0.0.7") := by
  have hwrong : digest "guess" ≠ digest "s3cret" := by decide +kernel
  have hg : Gate.of .either (some "s3cret") "X-Internal" (some "edge") = .ok
      ⟨.either, some (digest "s3cret"), Text.asciiLower (Text.trim "X-Internal"),
        some (digest "edge")⟩ := rfl
  refine ⟨_, hg, (decides_by_mode hg).2.2.2.2.1 rfl _ ?_ ⟨"edge", "edge", rfl, rfl, rfl⟩⟩
  rintro ⟨p, q, hp, hq, hdigest⟩
  cases hp
  cases hq
  exact hwrong hdigest

end Paymaster.Access

import Paymaster.CommandLine.Program
import Paymaster.Proofs.Access.Admission
import Paymaster.Proofs.Quote.MarketRate
import Paymaster.Proofs.Secret.Resolving
import Paymaster.Proofs.Text.Accepted
/-!
# Opening a desk

Settings are judged before a desk is opened, and the parts of the desk judge what they are given once
more. For settings that have passed the second judgement never differs from the first: what remains
to go wrong is that the key is no key, or that the rate is too large once the margin is added.
-/

namespace Paymaster

/-! ## Keys -/

namespace Signer

variable {s : String}

/-- The digits of the text of a key: blanks and a leading `0x` are not among them. -/
def keyDigits (s : String) : List Char :=
  ((Text.stripPrefix? "0x" (Text.withoutBlanks s)).getD (Text.withoutBlanks s)).toList

/-- The text denotes a key of 32 bytes. -/
def IsKeyText (s : String) : Prop :=
  (keyDigits s).length = 64 ∧ (keyDigits s).all Text.Hex.isDigit = true

instance (s : String) : Decidable (IsKeyText s) := inferInstanceAs (Decidable (_ ∧ _))

theorem keyOfText_eq_ok {k : Ed25519.SecretKey} : keyOfText s = .ok k ↔
    Text.Hex.decode (String.ofList (keyDigits s)) = .ok k.bytes ∧ k.bytes.length = 32 := by
  rw [keyDigits, String.ofList_toList]
  rw [keyOfText]
  cases Text.Hex.decode
      ((Text.stripPrefix? "0x" (Text.withoutBlanks s)).getD (Text.withoutBlanks s)) with
  | error e => exact ⟨nofun, nofun⟩
  | ok raw =>
    constructor
    · intro h
      simp only at h
      split at h
      · rename_i hlength
        cases h
        exact ⟨rfl, hlength⟩
      · cases h
    · rintro ⟨heq, hlength⟩
      cases heq
      exact if_pos hlength

theorem exists_keyOfText_iff : (∃ k, keyOfText s = .ok k) ↔ IsKeyText s := by
  constructor
  · rintro ⟨k, hk⟩
    obtain ⟨hbytes, hlength⟩ := keyOfText_eq_ok.mp hk
    have hdigits := Text.Hex.length_of_decode hbytes
    exact ⟨by omega, List.all_eq_true.mpr (Text.Hex.isDigit_of_decode hbytes)⟩
  · rintro ⟨hlength, hdigits⟩
    obtain ⟨raw, hraw, -⟩ := Text.Hex.decode_digits (List.all_eq_true.mp hdigits) (by omega)
    have hbytes := Text.Hex.length_of_decode hraw
    have hlength' : raw.length = 32 := by omega
    exact ⟨⟨raw⟩, keyOfText_eq_ok.mpr ⟨hraw, hlength'⟩⟩

theorem exists_ofText_iff : (∃ signer, ofText s = .ok signer) ↔ IsKeyText s := by
  rw [← exists_keyOfText_iff, ofText]
  cases keyOfText s <;> simp [Except.map]

end Signer

namespace Quote

theorem Binder.exists_of {facility asset : Address} {validity : UInt64}
    (hfacility : facility.isZero = false) (hasset : asset.isZero = false) (hvalidity : validity ≠ 0)
    (rate : Rate) (signer : Signer) :
    ∃ binder, Binder.of facility asset rate validity signer = .ok binder := by
  simp [Binder.of, hfacility, hasset, hvalidity]

namespace Settings

open Secret (Resolver Resolved Source)

variable {s : Settings} {env : Environment} {disk : Disk} {r : Resolver} {key : Resolved}
  {apiKey headerValue : Option String}

/-! ## Settings that have passed -/

/-- A secret that a desk is opened with comes from a source. -/
def Uses (s : Settings) (source : Source) : Prop :=
  source = s.signer ∨ s.auth.apiKey = some source ∨ s.auth.headerValue = some source

theorem uses_iff {source : Source} :
    s.Uses source ↔ ∃ name, (name, source) ∈ s.secretSources := by
  simp only [Uses, secretSources, List.mem_cons, List.mem_append, Option.mem_toList,
    Option.map_eq_some_iff, Prod.mk.injEq]
  constructor
  · rintro (rfl | hkey | hvalue)
    · exact ⟨_, .inl ⟨rfl, rfl⟩⟩
    · exact ⟨_, .inr (.inl ⟨source, hkey, rfl, rfl⟩)⟩
    · exact ⟨_, .inr (.inr ⟨source, hvalue, rfl, rfl⟩)⟩
  · rintro ⟨_, ⟨-, rfl⟩ | ⟨_, hkey, -, rfl⟩ | ⟨_, hvalue, -, rfl⟩⟩
    · exact .inl rfl
    · exact .inr (.inl hkey)
    · exact .inr (.inr hvalue)

theorem require_eq_ok {condition : Bool} {message : String} :
    require condition message = .ok () ↔ condition = true := by
  cases condition <;> simp [require]

/-- What is known of settings that have passed. -/
structure Passed (s : Settings) : Prop where
  facility : s.terms.facility.isZero = false
  acceptedAsset : s.terms.acceptedAsset.isZero = false
  rateNum : s.terms.rateNum ≠ 0
  rateDen : s.terms.rateDen ≠ 0
  validity : s.terms.validity ≠ 0
  apiKey : s.auth.mode.usesApiKey = true → s.auth.apiKey.isSome = true
  headerValue : s.auth.mode.usesTrustedHeader = true → s.auth.headerValue.isSome = true
  mode : s.profile = .production → s.auth.mode ≠ .disabled
  notInline : s.profile = .production → ∀ source, s.Uses source → source.isInline = false

theorem passed_of_validate (h : s.validate = .ok ()) : s.Passed := by
  simp only [validate, Except.check_bind_eq_ok] at h
  obtain ⟨-, -, hterms, hauth, -, hproduction⟩ := h
  simp only [validateTerms, Except.check_bind_eq_ok, require_eq_ok] at hterms
  simp only [validateAuth, Except.check_bind_eq_ok, require_eq_ok] at hauth
  obtain ⟨hfacility, hasset, -, hnum, hden, -, hvalidity⟩ := hterms
  obtain ⟨hkey, hvalue, -⟩ := hauth
  have hreal (hp : s.profile = .production) :
      s.auth.mode ≠ .disabled ∧ s.inlineSecrets = [] := by
    rw [if_pos hp] at hproduction
    simp only [validateProduction, Except.check_bind_eq_ok, require_eq_ok] at hproduction
    simpa using hproduction
  exact
    { facility := by simpa using hfacility
      acceptedAsset := by simpa using hasset
      rateNum := by simpa using hnum
      rateDen := by simpa using hden
      validity := by simpa using hvalidity
      apiKey := fun hmode => by simpa [hmode] using hkey
      headerValue := fun hmode => by simpa [hmode] using hvalue
      mode := fun hp => (hreal hp).1
      notInline := by
        intro hp source hsource
        obtain ⟨name, hname⟩ := uses_iff.mp hsource
        have hnone := (hreal hp).2
        rw [inlineSecrets, List.map_eq_nil_iff, List.filter_eq_nil_iff] at hnone
        exact Bool.eq_false_iff.mpr (hnone _ hname) }

/-- Settings that have passed use no secret that the resolver of their profile forbids. -/
theorem Passed.permitted (h : s.Passed) (hr : Settings.resolverFor s.profile s.mounts = .ok r)
    {source : Source} (hsource : s.Uses source) : source.isInline = true → r.allowInline = true := by
  intro hinline
  rw [(Settings.resolverFor_eq_ok hr).1]
  by_cases hp : s.profile = .production
  · rw [h.notInline hp source hsource] at hinline
    cases hinline
  · simpa using hp

theorem Passed.one_le_validity (h : s.Passed) :
    1 ≤ s.effectiveValidity.toNat ∧ s.effectiveValidity.toNat ≤ 3600 := by
  have hcut : s.effectiveValidity.toNat = min s.terms.validity.toNat 3600 :=
    UInt64.toNat_min s.terms.validity maxValidity
  have hne : s.terms.validity.toNat ≠ 0 := fun heq => h.validity (UInt64.toNat_inj.mp heq)
  omega

/-! ## The parts of a desk -/

theorem exists_resolveOptional (name : String) {source : Option Source}
    (h : ∀ x, source = some x → ∃ found, r.resolve env disk x = .ok found) :
    ∃ value, resolveOptional r env disk name source = .ok value ∧
      (source.isSome = true → ∃ v, value = some v ∧ v ≠ "") := by
  cases source with
  | none => exact ⟨none, rfl, nofun⟩
  | some x =>
    obtain ⟨found, hfound⟩ := h x rfl
    obtain ⟨raw, -, -, hne, rfl⟩ := Secret.Resolver.resolve_eq_ok.mp hfound
    refine ⟨some (Text.trim raw), ?_, fun _ => ⟨_, rfl, hne⟩⟩
    rw [resolveOptional, hfound]

/-- The secrets of some settings are found. -/
structure Finds (s : Settings) (r : Resolver) (env : Environment) (disk : Disk) (key : Resolved)
    (apiKey headerValue : Option String) : Prop where
  key : r.resolve env disk s.signer = .ok key
  apiKey : resolveOptional r env disk "auth.api_key" s.auth.apiKey = .ok apiKey
  headerValue : resolveOptional r env disk "auth.trusted_header_value" s.auth.headerValue =
    .ok headerValue

/-- The secrets of settings that have passed are found if they are available, and there is a gate for
them. -/
theorem Passed.exists_finds (h : s.Passed) (hr : Settings.resolverFor s.profile s.mounts = .ok r)
    (havailable : ∀ source, s.Uses source → source.Available r env disk) :
    ∃ key apiKey headerValue, s.Finds r env disk key apiKey headerValue ∧
      ∃ gate, Access.Gate.of s.auth.mode apiKey s.auth.headerName headerValue = .ok gate := by
  have hfound (source : Source) (hsource : s.Uses source) :
      ∃ x, r.resolve env disk source = .ok x :=
    Secret.Resolver.exists_resolve_iff.mpr ⟨havailable source hsource, h.permitted hr hsource⟩
  obtain ⟨key, hkey⟩ := hfound s.signer (.inl rfl)
  obtain ⟨apiKey, hapiKey, hgiven⟩ :=
    exists_resolveOptional "auth.api_key" fun x hx => hfound x (.inr (.inl hx))
  obtain ⟨headerValue, hvalue, hgiven'⟩ :=
    exists_resolveOptional "auth.trusted_header_value" fun x hx => hfound x (.inr (.inr hx))
  exact ⟨key, apiKey, headerValue, ⟨hkey, hapiKey, hvalue⟩, Access.Gate.exists_of_iff.mpr
    ⟨fun hmode => hgiven (h.apiKey hmode), fun hmode => hgiven' (h.headerValue hmode)⟩⟩

theorem openDesk_eq_ok (hr : Settings.resolverFor s.profile s.mounts = .ok r) {desk : Desk}
    (h : s.openDesk env disk = .ok desk) : ∃ key apiKey headerValue,
      s.Finds r env disk key apiKey headerValue ∧
      Signer.ofText key.value = .ok desk.binder.signer ∧
      Access.Gate.of s.auth.mode apiKey s.auth.headerName headerValue = .ok desk.gate ∧
      desk.binder.validity = s.effectiveValidity := by
  rw [openDesk, hr] at h
  obtain ⟨_, ⟨⟩, h⟩ := Except.bind_eq_ok.mp h
  obtain ⟨key, hkey, h⟩ := Except.bind_eq_ok.mp h
  obtain ⟨signer, hsigner, h⟩ := Except.bind_eq_ok.mp h
  obtain ⟨apiKey, hapiKey, h⟩ := Except.bind_eq_ok.mp h
  obtain ⟨headerValue, hvalue, h⟩ := Except.bind_eq_ok.mp h
  obtain ⟨gate, hgate, h⟩ := Except.bind_eq_ok.mp h
  obtain ⟨rate, -, h⟩ := Except.bind_eq_ok.mp h
  obtain ⟨binder, hbinder, h⟩ := Except.bind_eq_ok.mp h
  rw [Except.mapError_eq_ok] at hkey hsigner hgate hbinder
  cases Binder.of_eq_ok hbinder
  cases h
  exact ⟨key, apiKey, headerValue, ⟨hkey, hapiKey, hvalue⟩, hsigner, hgate, rfl⟩

/-- What comes of an attempt to open a desk with the text of a key. -/
inductive Attempt (s : Settings) (env : Environment) (disk : Disk) (key : String) : Prop where
  | noKey {e : SigningError} (hkey : ¬Signer.IsKeyText key) (he : Signer.ofText key = .error e)
      (h : s.openDesk env disk = .error s!"invalid signer.key: {e.message}")
  | largeNumerator (hkey : Signer.IsKeyText key)
      (hnum : Amount.bound ≤ s.terms.rateNum.toNat * (basisPoints + s.terms.feeBips.toNat))
      (h : s.openDesk env disk =
        .error "invalid [quote] rate: arithmetic overflow computing rate numerator")
  | largeDenominator (hkey : Signer.IsKeyText key)
      (hnum : s.terms.rateNum.toNat * (basisPoints + s.terms.feeBips.toNat) < Amount.bound)
      (hden : Amount.bound ≤ s.terms.rateDen.toNat * basisPoints)
      (h : s.openDesk env disk =
        .error "invalid [quote] rate: arithmetic overflow computing rate denominator")
  | opens (hkey : Signer.IsKeyText key)
      (hnum : s.terms.rateNum.toNat * (basisPoints + s.terms.feeBips.toNat) < Amount.bound)
      (hden : s.terms.rateDen.toNat * basisPoints < Amount.bound)
      (h : ∃ desk, s.openDesk env disk = .ok desk)

/-- Once the secrets are found and there is a gate, the key and the rate are left. -/
theorem Finds.openDesk_eq (h : s.Finds r env disk key apiKey headerValue)
    (hr : Settings.resolverFor s.profile s.mounts = .ok r) {gate : Access.Gate}
    (hgate : Access.Gate.of s.auth.mode apiKey s.auth.headerName headerValue = .ok gate) :
    s.openDesk env disk = (do
      let signer ← (Signer.ofText key.value).mapError fun e => s!"invalid signer.key: {e.message}"
      let rate ← (Rate.fromMarket s.terms.rateNum s.terms.rateDen s.terms.feeBips).mapError
        fun e => s!"invalid [quote] rate: {e.message}"
      let binder ← (Binder.of s.terms.facility s.terms.acceptedAsset rate s.terms.validity
        signer).mapError fun e => s!"invalid [quote] config: {e.message}"
      return ⟨binder, s.terms.assetName, gate, s.limits, s.server.metricsEnabled⟩) := by
  rw [openDesk, hr]
  cases hsigner : Signer.ofText key.value with
  | error e =>
    simp only [h.key, bind, Except.bind, hsigner, Except.mapError]
  | ok signer =>
    simp only [h.key, h.apiKey, h.headerValue, hgate, bind, Except.bind, hsigner, Except.mapError]

/-- A desk is opened unless the key is no key or the rate is too large. -/
theorem Finds.attempt (h : s.Finds r env disk key apiKey headerValue) (hpassed : s.Passed)
    (hr : Settings.resolverFor s.profile s.mounts = .ok r) {gate : Access.Gate}
    (hgate : Access.Gate.of s.auth.mode apiKey s.auth.headerName headerValue = .ok gate) :
    s.Attempt env disk key.value := by
  have hopen := h.openDesk_eq hr hgate
  -- the key is looked at first, then the two parts of the rate; the binder checks nothing new
  cases hsigner : Signer.ofText key.value with
  | error e =>
    rw [hsigner] at hopen
    have hkey : ¬Signer.IsKeyText key.value := by
      rw [← Signer.exists_ofText_iff, hsigner]
      exact nofun
    exact .noKey hkey hsigner hopen
  | ok signer =>
    rw [hsigner] at hopen
    have hkey : Signer.IsKeyText key.value := Signer.exists_ofText_iff.mp ⟨signer, hsigner⟩
    by_cases hnum : Amount.bound ≤ s.terms.rateNum.toNat * (basisPoints + s.terms.feeBips.toNat)
    · have hrate : Rate.fromMarket s.terms.rateNum s.terms.rateDen s.terms.feeBips = .error _ :=
        Rate.fromMarket_eq_overflow.mpr (.inl ⟨hnum, rfl⟩)
      rw [hrate] at hopen
      exact .largeNumerator hkey hnum hopen
    rw [Nat.not_le] at hnum
    by_cases hden : Amount.bound ≤ s.terms.rateDen.toNat * basisPoints
    · have hrate : Rate.fromMarket s.terms.rateNum s.terms.rateDen s.terms.feeBips = .error _ :=
        Rate.fromMarket_eq_overflow.mpr (.inr ⟨hnum, hden, rfl⟩)
      rw [hrate] at hopen
      exact .largeDenominator hkey hnum hden hopen
    rw [Nat.not_le] at hden
    obtain ⟨rate, hrate⟩ :=
      Rate.exists_fromMarket_iff.mpr ⟨hpassed.rateNum, hpassed.rateDen, hnum, hden⟩
    obtain ⟨binder, hbinder⟩ :=
      Binder.exists_of hpassed.facility hpassed.acceptedAsset hpassed.validity rate signer
    rw [hrate] at hopen
    refine .opens hkey hnum hden
      ⟨⟨binder, s.terms.assetName, gate, s.limits, s.server.metricsEnabled⟩, ?_⟩
    rw [hopen]
    refine Except.bind_eq_ok.mpr ⟨signer, rfl, Except.bind_eq_ok.mpr ⟨rate, rfl, ?_⟩⟩
    exact Except.bind_eq_ok.mpr ⟨binder, Except.mapError_eq_ok.mpr hbinder, rfl⟩

/-- For settings that have passed, no secret is refused for standing in the settings. If their
secrets are available there is a gate, a binder for every rate, and a desk unless the key is no key
or the rate is too large. The desk gives quotes for the time that is shown to the operator, an hour
at most. In production its secrets come from elsewhere than the settings, and it asks for
credentials. -/
theorem validated_opens (hvalid : s.validate = .ok ())
    (hr : Settings.resolverFor s.profile s.mounts = .ok r) (env : Environment) (disk : Disk) :
    (∀ source, s.Uses source → r.resolve env disk source ≠ .error .inlineForbidden) ∧
    ((∀ source, s.Uses source → source.Available r env disk) →
      ∃ key apiKey headerValue, s.Finds r env disk key apiKey headerValue ∧
        (∃ gate, Access.Gate.of s.auth.mode apiKey s.auth.headerName headerValue = .ok gate) ∧
        (∀ rate signer, ∃ binder, Binder.of s.terms.facility s.terms.acceptedAsset rate
          s.terms.validity signer = .ok binder) ∧
        s.Attempt env disk key.value) ∧
    ∀ desk, s.openDesk env disk = .ok desk →
      (∃ key apiKey headerValue, s.Finds r env disk key apiKey headerValue ∧
        Signer.ofText key.value = .ok desk.binder.signer ∧
        Access.Gate.of s.auth.mode apiKey s.auth.headerName headerValue = .ok desk.gate) ∧
      1 ≤ desk.binder.validity.toNat ∧ desk.binder.validity.toNat ≤ 3600 ∧
      desk.binder.validity = s.effectiveValidity ∧
      (∀ path, s!"  validity           {desk.binder.validity.toNat}s" ∈
        CommandLine.deskSummary path s desk) ∧
      (s.profile = .production → desk.gate.mode ≠ .disabled ∧
        ∀ source, s.Uses source → ∀ x, r.resolve env disk source = .ok x →
          x.provenance ≠ .inline) := by
  have hpassed := passed_of_validate hvalid
  refine ⟨fun source hsource hforbidden => ?_, fun havailable => ?_, fun desk hdesk => ?_⟩
  · -- the permission is missing in production alone, where no secret stands in the settings
    obtain ⟨hinline, hrefused⟩ :=
      Secret.Resolver.resolve_eq_forbidden (Settings.resolverFor_eq_ok hr).2 hforbidden
    rw [hpassed.permitted hr hsource hinline] at hrefused
    cases hrefused
  · obtain ⟨key, apiKey, headerValue, hfinds, gate, hgate⟩ := hpassed.exists_finds hr havailable
    exact ⟨key, apiKey, headerValue, hfinds, ⟨gate, hgate⟩,
      Binder.exists_of hpassed.facility hpassed.acceptedAsset hpassed.validity,
      hfinds.attempt hpassed hr hgate⟩
  · obtain ⟨key, apiKey, headerValue, hfinds, hsigner, hgate, hvalidity⟩ := openDesk_eq_ok hr hdesk
    rw [hvalidity]
    refine ⟨⟨key, apiKey, headerValue, hfinds, hsigner, hgate⟩, hpassed.one_le_validity.1,
      hpassed.one_le_validity.2, rfl, fun path => ?_, fun hp => ⟨?_, fun source hsource x hx => ?_⟩⟩
    · exact .tail _ (.tail _ (.tail _ (.tail _ (.tail _ (.head _)))))
    · rw [(Access.Gate.of_eq_ok.mp hgate).1]
      exact hpassed.mode hp
    · obtain ⟨raw, -, -, -, rfl⟩ := Secret.Resolver.resolve_eq_ok.mp hx
      rw [ne_eq, Source.provenance_eq_inline, hpassed.notInline hp source hsource]
      exact Bool.false_ne_true

/-- Settings for production: the key stands in the environment, and the API key in a file of a mounted
directory. -/
def realSettings : Settings where
  profile := .production
  server := {}
  terms := ⟨⟨10⟩, ⟨11⟩, "humanUSDC", 1, 100000, 200, 86400⟩
  signer := .env "QUOTE_KEY"
  auth := { mode := .apiKey, apiKey := some (.provider "mounted" "api-key") }
  limits := defaultLimits
  mounts := [⟨"mounted", "/secrets"⟩]
  logging := {}

/-- The environment with the key. -/
def realEnvironment : Environment := [("QUOTE_KEY", String.ofList (List.replicate 64 '1'))]

/-- A disk with the file of the API key. -/
def realDisk : Disk :=
  ⟨[(["secrets"], .directory), (["secrets", "api-key"], .file [0x6b, 0x31, 0x0a])], []⟩

/-- The resolver for them. -/
def realResolver : Resolver := ⟨[("mounted", .mounted "mounted" "/secrets")], false⟩

/-- A desk is opened in production; a validity of a day is cut to an hour. -/
theorem validated_opens_real : realSettings.validate = .ok () ∧
    Settings.resolverFor realSettings.profile realSettings.mounts = .ok realResolver ∧
    ∃ desk, realSettings.openDesk realEnvironment realDisk = .ok desk ∧
      desk.binder.validity.toNat = 3600 ∧ desk.gate.mode ≠ .disabled := by
  have hvalid : realSettings.validate = .ok () := rfl
  have hr : Settings.resolverFor realSettings.profile realSettings.mounts = .ok realResolver := rfl
  obtain ⟨-, hopens, hopened⟩ := validated_opens hvalid hr realEnvironment realDisk
  have havailable (source : Source) (hsource : realSettings.Uses source) :
      source.Available realResolver realEnvironment realDisk := by
    rcases hsource with rfl | hsource | hsource
    · exact ⟨_, rfl, by decide⟩
    · cases hsource
      exact ⟨"k1\n", ⟨_, rfl, rfl⟩, by decide⟩
    · cases hsource
  obtain ⟨key, _, _, hfinds, -, -, hattempt⟩ := hopens havailable
  have hkey : Signer.IsKeyText key.value := by
    have hresolved : realResolver.resolve realEnvironment realDisk realSettings.signer = .ok
        ⟨String.ofList (List.replicate 64 '1'), .env "QUOTE_KEY"⟩ := rfl
    cases hresolved.symm.trans hfinds.key
    decide
  cases hattempt with
  | noKey hno => exact absurd hkey hno
  | largeNumerator _ hnum => exact absurd hnum (by decide)
  | largeDenominator _ _ hden => exact absurd hden (by decide)
  | opens _ _ _ hdesk =>
    obtain ⟨desk, hdesk⟩ := hdesk
    obtain ⟨-, -, -, hvalidity, -, hreal⟩ := hopened desk hdesk
    refine ⟨hvalid, hr, desk, hdesk, ?_, (hreal rfl).1⟩
    rw [hvalidity]
    rfl

end Settings
end Quote
end Paymaster

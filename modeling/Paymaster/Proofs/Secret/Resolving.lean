import Mathlib.Data.List.Basic
import Paymaster.Proofs.Outcomes
import Paymaster.Settings.Profile
/-!
# What a resolver finds

A source leads to a text whether or not secrets may stand in the settings; the resolver then asks
for this permission and removes the blanks. So a secret is found exactly if the text of its source is
there, is not blank, and is permitted. The resolver of a service has no other providers than mounted
directories, and these fail for their files only.
-/

namespace Paymaster

namespace Secret

/-- The text that a source leads to. -/
def Source.Holds (r : Resolver) (env : Environment) (d : Disk) (raw : String) : Source → Prop
  | .env name => env.get? (Text.trim name) = some raw
  | .inline value => value = raw
  | .file path => d.readText path = .ok raw
  | .provider name reference =>
    ∃ p, r.providers.lookup name = some p ∧ p.fetch d reference = .ok raw

/-- A source leads to a text that is not blank. -/
def Source.Available (r : Resolver) (env : Environment) (d : Disk) (source : Source) : Prop :=
  ∃ raw, source.Holds r env d raw ∧ Text.trim raw ≠ ""

/-- Where the secret of a source comes from. -/
def Source.provenance : Source → Provenance
  | .env name => .env (Text.trim name)
  | .inline _ => .inline
  | .file path => .file path
  | .provider name reference => .provider name reference

theorem Source.provenance_eq_inline {source : Source} :
    source.provenance = .inline ↔ source.isInline = true := by
  cases source <;> simp [provenance, isInline]

theorem readFile_eq_ok {d : Disk} {path raw : String} :
    readFile d path = .ok raw ↔ d.readText path = .ok raw := by
  rw [readFile]
  cases d.readText path <;> simp

namespace Resolver

variable {r r' : Resolver} {env : Environment} {d : Disk} {source : Source} {raw : String}
  {p : Provenance}

/-! ## Secrets that are found -/

theorem lookUp_eq_ok : r.lookUp env d source = .ok (raw, p) ↔
    source.Holds r env d raw ∧ (source.isInline = true → r.allowInline = true) ∧
      p = source.provenance := by
  cases source with
  | env name =>
    simp only [lookUp, Source.Holds, Source.provenance]
    cases env.get? (Text.trim name) <;> simp [Source.isInline, @eq_comm _ p]
  | inline value =>
    simp only [lookUp, Source.Holds, Source.provenance]
    cases r.allowInline <;> simp [Source.isInline, @eq_comm _ p]
  | file path =>
    simp only [lookUp, Source.Holds, Source.provenance, ← readFile_eq_ok]
    cases readFile d path <;> simp [Except.map, Source.isInline, @eq_comm _ p]
  | provider name reference =>
    simp only [lookUp, Source.Holds, Source.provenance]
    cases r.providers.lookup name with
    | none => simp
    | some provider =>
      simp only [Option.some.injEq, exists_eq_left']
      cases provider.fetch d reference <;> simp [Except.map, Source.isInline, @eq_comm _ p]

theorem resolve_eq_ok {x : Resolved} : r.resolve env d source = .ok x ↔
    ∃ raw, source.Holds r env d raw ∧ (source.isInline = true → r.allowInline = true) ∧
      Text.trim raw ≠ "" ∧ x = ⟨Text.trim raw, source.provenance⟩ := by
  rw [resolve, Except.bind_eq_ok]
  constructor
  · rintro ⟨⟨raw, p⟩, hfound, h⟩
    obtain ⟨hraw, hinline, rfl⟩ := lookUp_eq_ok.mp hfound
    simp only at h
    split at h
    · cases h
    · rename_i hne
      cases h
      exact ⟨raw, hraw, hinline, fun hempty => hne (String.isEmpty_iff.mpr hempty), rfl⟩
  · rintro ⟨raw, hraw, hinline, hne, rfl⟩
    have hempty : ¬(Text.trim raw).isEmpty = true := by rwa [String.isEmpty_iff]
    refine ⟨(raw, source.provenance), lookUp_eq_ok.mpr ⟨hraw, hinline, rfl⟩, ?_⟩
    simp only [if_neg hempty]
    rfl

/-- A secret is found exactly if it is available, and, where it stands in the settings,
permitted. -/
theorem exists_resolve_iff : (∃ x, r.resolve env d source = .ok x) ↔
    source.Available r env d ∧ (source.isInline = true → r.allowInline = true) := by
  constructor
  · rintro ⟨x, hx⟩
    obtain ⟨raw, hraw, hinline, hne, -⟩ := resolve_eq_ok.mp hx
    exact ⟨⟨raw, hraw, hne⟩, hinline⟩
  · rintro ⟨⟨raw, hraw, hne⟩, hinline⟩
    exact ⟨_, resolve_eq_ok.mpr ⟨raw, hraw, hinline, hne, rfl⟩⟩

/-! ## Mounted directories -/

/-- All providers are mounted directories. -/
def AllMounted (r : Resolver) : Prop := ∀ x ∈ r.providers, ∃ name dir, x.2 = .mounted name dir

theorem allMounted_initial (allowInline : Bool) : (initial allowInline).AllMounted := nofun

theorem mem_insertProvider {x : String × Provider} {new : Provider}
    {providers : List (String × Provider)} (h : x ∈ insertProvider new providers) :
    x = (new.name, new) ∨ x ∈ providers := by
  induction providers with
  | nil => exact .inl (List.mem_singleton.mp h)
  | cons y rest ih =>
    rw [insertProvider] at h
    split at h
    · exact (List.mem_cons.mp h)
    · rcases List.mem_cons.mp h with rfl | h
      · exact .inr (.head _)
      · exact (ih h).imp_right (.tail _)

theorem AllMounted.register (h : r.AllMounted) {name dir : String}
    (hr : r.register (.mounted name dir) = .ok r') : r'.AllMounted := by
  rw [Resolver.register] at hr
  split at hr
  · cases hr
  · cases hr
    intro x hx
    rcases mem_insertProvider hx with rfl | hx
    · exact ⟨name, dir, rfl⟩
    · exact h x hx

theorem allowInline_register {new : Provider} (hr : r.register new = .ok r') :
    r'.allowInline = r.allowInline := by
  rw [Resolver.register] at hr
  split at hr
  · cases hr
  · cases hr
    rfl

theorem fetch_mounted_ne_forbidden (name dir reference : String) :
    (Provider.mounted name dir).fetch d reference ≠ .error .inlineForbidden := by
  simp only [Provider.mounted]
  split
  · rw [readFile]
    split <;> exact nofun
  · exact nofun

/-- The permission is missed only for a secret in the settings. -/
theorem resolve_eq_forbidden (h : r.AllMounted)
    (hr : r.resolve env d source = .error .inlineForbidden) :
    source.isInline = true ∧ r.allowInline = false := by
  have hlookUp : r.lookUp env d source = .error .inlineForbidden := by
    rw [resolve, Except.bind_eq_error] at hr
    rcases hr with hr | ⟨found, -, hr⟩
    · exact hr
    · simp only at hr
      split at hr <;> cases hr
  cases source with
  | env name =>
    simp only [lookUp] at hlookUp
    split at hlookUp <;> cases hlookUp
  | inline value =>
    refine ⟨rfl, Bool.eq_false_iff.mpr fun hallow => ?_⟩
    rw [lookUp, if_pos hallow] at hlookUp
    cases hlookUp
  | file path =>
    rw [lookUp, readFile] at hlookUp
    split at hlookUp <;> cases hlookUp
  | provider name reference =>
    rw [lookUp] at hlookUp
    split at hlookUp
    · cases hlookUp
    · rename_i provider hprovider
      obtain ⟨front, back, hproviders, -⟩ := List.lookup_eq_some_iff.mp hprovider
      obtain ⟨name', dir, rfl⟩ := h (name, provider) (by simp [hproviders])
      cases hfetch : (Provider.mounted name' dir).fetch d reference with
      | ok raw =>
        rw [hfetch] at hlookUp
        cases hlookUp
      | error why =>
        rw [hfetch] at hlookUp
        cases hlookUp
        exact absurd hfetch (fetch_mounted_ne_forbidden _ _ _)

end Resolver
end Secret

namespace Settings

theorem registerMounts_eq_ok {r r' : Secret.Resolver} {mounts : List Mount}
    (h : registerMounts r mounts = .ok r') :
    r'.allowInline = r.allowInline ∧ (r.AllMounted → r'.AllMounted) := by
  induction mounts generalizing r with
  | nil =>
    cases h
    exact ⟨rfl, id⟩
  | cons m rest ih =>
    rw [registerMounts] at h
    split at h
    · cases h
    · split at h
      · cases h
      · rename_i hregister
        obtain ⟨hallow, hmounted⟩ := ih h
        exact ⟨hallow.trans (Secret.Resolver.allowInline_register hregister),
          fun hr => hmounted (hr.register hregister)⟩

/-- The resolver of a service permits secrets in the settings only for trials, and has no providers
but mounted directories. -/
theorem resolverFor_eq_ok {p : Profile} {mounts : List Mount} {r : Secret.Resolver}
    (h : resolverFor p mounts = .ok r) : r.allowInline = (p != .production) ∧ r.AllMounted := by
  obtain ⟨hallow, hmounted⟩ := registerMounts_eq_ok h
  exact ⟨hallow, hmounted (Secret.Resolver.allMounted_initial _)⟩

end Settings
end Paymaster

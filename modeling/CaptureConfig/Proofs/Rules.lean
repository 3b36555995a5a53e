/-
**What each rule asks.**

The rules are programs: they take a block apart, look at what is there and complain.  Each of them
is described here by what it asks of the properties, in both directions — what it lets through and
what it leaves of it, and of what it complains and how.  Texts are present in the sense of
`CaptureConfig/Proofs/Blank.lean`.

Main definitions:

* `Properties.Tls.IsComplete` — all three contents are present;
* `Properties.Bosh.Narrows`, `Properties.Mtls.Narrows` — a block is narrowed to a complete one.

Main results:

* `Defaulted.allowlist_eq_error_iff`, `Defaulted.checkBuffer_eq_error_iff`,
  `Defaulted.material_eq_error_iff`, `Defaulted.director_eq_error_iff`,
  `Defaulted.checkCaptures_eq_error_iff` — of what the rules complain;
* `Properties.tls_withDefaults_eq_some_iff` — which block for the encrypted listener the rules see.
-/

import CaptureConfig.Proofs.Blank
import CaptureConfig.Proofs.Resolution

set_option relaxedAutoImplicit false
set_option autoImplicit false

namespace CaptureConfig

/-! ### Restriction of addresses -/

theorem presentEntries_eq_filter (entries : Option (List String)) :
    presentEntries entries = (entries.getD []).filter fun s => Text.trim s ≠ "" := by
  rw [presentEntries]
  refine List.filter_congr fun s _ => ?_
  rw [decide_eq_decide, ne_eq, Text.trim_eq_empty_iff]

theorem presentEntries_eq_nil_iff {entries : Option (List String)} :
    presentEntries entries = [] ↔ ∀ list, entries = some list → ∀ s ∈ list, Text.trim s = "" := by
  rw [presentEntries_eq_filter, List.filter_eq_nil_iff]
  cases entries <;> simp

/-- A restriction is in force exactly if it is asked for. -/
theorem Properties.enableIpRestriction_withDefaults (p : Properties) :
    p.withDefaults.enableIpRestriction = true ↔ p.enableIpRestriction = some true := by
  rw [withDefaults]
  cases p.enableIpRestriction <;> simp

namespace Defaulted

theorem allowlist_eq_error_iff {d : Defaulted} {e : Failure} : d.allowlist = .error e ↔
    (d.enableIpRestriction = true ∧ presentEntries d.cidrAllowlist = []) ∧
      e = .conflictingConfiguration := by
  rw [allowlist]
  cases d.enableIpRestriction with
  | false => simp
  | true =>
      cases h : presentEntries d.cidrAllowlist with
      | nil => simp [eq_comm]
      | cons s rest => simp

/-- **What a restriction leaves in force**: the entries that are present, of which there is one. -/
theorem allowlist_eq_ok_iff {d : Defaulted} {list : Option (List String)}
    {findings : List Finding} : d.allowlist = .ok (list, findings) ↔
      if d.enableIpRestriction then
        presentEntries d.cidrAllowlist ≠ [] ∧ list = some (presentEntries d.cidrAllowlist) ∧
          findings = Finding.ofEntries (presentEntries d.cidrAllowlist)
      else list = none ∧
        findings = if presentEntries d.cidrAllowlist = [] then [] else [.allowlistIgnored] := by
  rw [allowlist]
  cases d.enableIpRestriction with
  | false => cases presentEntries d.cidrAllowlist <;> simp [eq_comm]
  | true => cases presentEntries d.cidrAllowlist <;> simp [eq_comm]

/-! ### Buffer -/

theorem checkBuffer_eq_error_iff {d : Defaulted} {e : Failure} : d.checkBuffer = .error e ↔
    ∃ b, d.buffer = some b ∧ ¬ b.IsOrdered ∧ e = .invalidBufferBounds b := by
  rw [checkBuffer]
  cases d.buffer with
  | none => simp
  | some b => by_cases hb : b.IsOrdered <;> simp [hb, eq_comm]

theorem isOrdered_of_checkBuffer {d : Defaulted} (h : d.checkBuffer = .ok ()) {b : Buffer}
    (hb : d.buffer = some b) : b.IsOrdered := by
  refine Decidable.byContradiction fun hn => ?_
  rw [checkBuffer_eq_error_iff.2 ⟨b, hb, hn, rfl⟩] at h
  exact absurd h (by simp)

/-! ### Captures -/

theorem checkCaptures_eq_error_iff {d : Defaulted} {e : Failure} : d.checkCaptures = .error e ↔
    d.concurrentCaptures = some 0 ∧ e = .invalidConcurrentCaptures 0 := by
  rw [checkCaptures]
  cases d.concurrentCaptures with
  | none => simp
  | some n =>
      by_cases hn : n = 0
      · simp [hn, eq_comm]
      · simp [hn]

theorem ne_zero_of_checkCaptures {d : Defaulted} (h : d.checkCaptures = .ok ()) :
    d.concurrentCaptures ≠ some 0 := by
  intro h0
  rw [checkCaptures_eq_error_iff.2 ⟨h0, rfl⟩] at h
  exact absurd h (by simp)

end Defaulted

/-! ### Encrypted listener -/

namespace Properties

namespace Tls

/-- All three contents are present. -/
def IsComplete (t : Tls) : Prop :=
  Text.IsPresent t.certificate ∧ Text.IsPresent t.privateKey ∧ Text.IsPresent t.ca

instance (t : Tls) : Decidable t.IsComplete := inferInstanceAs (Decidable (_ ∧ _ ∧ _))

/-- At least one content is present. -/
def HasContent (t : Tls) : Prop :=
  Text.IsPresent t.certificate ∨ Text.IsPresent t.privateKey ∨ Text.IsPresent t.ca

/-- The keys whose contents are not present, in their order. -/
def absentKeys (t : Tls) : List String :=
  ([("certificate", t.certificate), ("private_key", t.privateKey), ("ca", t.ca)].filter
    fun x => ¬ Text.IsPresent x.2).map Prod.fst

theorem absentKeys_eq (t : Tls) : t.absentKeys =
    (if Text.IsPresent t.certificate then [] else ["certificate"]) ++
      (if Text.IsPresent t.privateKey then [] else ["private_key"]) ++
      (if Text.IsPresent t.ca then [] else ["ca"]) := by
  by_cases hc : Text.IsPresent t.certificate <;> by_cases hk : Text.IsPresent t.privateKey <;>
    by_cases ha : Text.IsPresent t.ca <;> simp [absentKeys, hc, hk, ha]

theorem isDisabled_iff (t : Tls) : t.isDisabled = true ↔ t.enabled = some false := by
  rw [isDisabled, beq_iff_eq]

theorem hasMaterial_iff (t : Tls) : t.hasMaterial = true ↔ t.HasContent := by
  simp only [hasMaterial, contents, List.any_cons, List.any_nil, Bool.or_false, Bool.or_eq_true,
    Text.isSome_present_iff, HasContent]

theorem isRequested_iff (t : Tls) : t.isRequested = true ↔
    t.enabled ≠ some false ∧ (t.HasContent ∨ t.enabled = some true) := by
  rw [isRequested, Bool.and_eq_true, Bool.or_eq_true, hasMaterial_iff, beq_iff_eq,
    Bool.not_eq_true', ← Bool.not_eq_true, isDisabled_iff]

theorem missing_eq_absentKeys (t : Tls) : t.missing = t.absentKeys := by
  rw [missing, absentKeys, ← List.filterMap_eq_filter, List.map_filterMap]
  refine congrArg (List.filterMap · _) (funext ?_)
  rintro ⟨key, content⟩
  by_cases h : Text.IsPresent content <;> simp [Option.guard, Text.isSome_present_iff, h]

theorem material_eq_ok_iff {t : Tls} {m : TlsMaterial} : t.material = .ok m ↔
    Text.present t.certificate = some m.certificate ∧
      Text.present t.privateKey = some m.privateKey ∧ Text.present t.ca = some m.ca := by
  obtain ⟨certificate, privateKey, ca⟩ := m
  rw [material]
  cases Text.present t.certificate <;> cases Text.present t.privateKey <;>
    cases Text.present t.ca <;> simp

theorem isComplete_iff {t : Tls} : t.IsComplete ↔ ∃ m, t.material = .ok m := by
  simp only [material_eq_ok_iff, IsComplete, ← Text.isSome_present_iff, Option.isSome_iff_exists]
  constructor
  · rintro ⟨⟨certificate, hc⟩, ⟨privateKey, hk⟩, ⟨ca, ha⟩⟩
    exact ⟨⟨certificate, privateKey, ca⟩, hc, hk, ha⟩
  · rintro ⟨m, hc, hk, ha⟩
    exact ⟨⟨_, hc⟩, ⟨_, hk⟩, ⟨_, ha⟩⟩

theorem IsComplete.hasContent {t : Tls} (h : t.IsComplete) : t.HasContent := .inl h.1

theorem material_eq_error_iff {t : Tls} {e : Failure} :
    t.material = .error e ↔ ¬ t.IsComplete ∧ e = .incompleteTls t.absentKeys := by
  rw [material, ← missing_eq_absentKeys, IsComplete, ← Text.isSome_present_iff,
    ← Text.isSome_present_iff, ← Text.isSome_present_iff]
  cases Text.present t.certificate <;> cases Text.present t.privateKey <;>
    cases Text.present t.ca <;> simp [eq_comm]

end Tls

/-- The rules see a block that is not switched off and carries something or asks for encryption. -/
theorem tls_withDefaults_eq_some_iff {p : Properties} {t : Tls} :
    p.withDefaults.tls = some t ↔ ∃ l, p.listen = some l ∧ l.tls = some t ∧
      t.enabled ≠ some false ∧ (t.HasContent ∨ t.enabled = some true) := by
  simp only [withDefaults, Option.filter_eq_some_iff, Option.bind_eq_some_iff, Tls.isRequested_iff]
  constructor
  · rintro ⟨⟨l, hl, ht⟩, hr⟩
    exact ⟨l, hl, ht, hr⟩
  · rintro ⟨l, hl, ht, hr⟩
    exact ⟨⟨l, hl, ht⟩, hr⟩

end Properties

namespace Defaulted

theorem material_of_tls_eq_none {d : Defaulted} (h : d.tls = none) : d.material = .ok none := by
  rw [material, h]

theorem material_of_tls_eq_some {d : Defaulted} {t : Properties.Tls} (h : d.tls = some t) :
    d.material = if t.enabled = some false then .ok none else t.material.map some := by
  simp only [material, h, t.isDisabled_iff]

theorem material_eq_error_iff {d : Defaulted} {e : Failure} : d.material = .error e ↔
    ∃ t, d.tls = some t ∧ t.enabled ≠ some false ∧ t.material = .error e := by
  cases h : d.tls with
  | none => simp [material_of_tls_eq_none h]
  | some t =>
      rw [material_of_tls_eq_some h]
      by_cases ht : t.enabled = some false
      · simp [ht]
      · cases hm : t.material <;> simp [ht, hm, Except.map]

theorem material_eq_ok_some_iff {d : Defaulted} {m : TlsMaterial} : d.material = .ok (some m) ↔
    ∃ t, d.tls = some t ∧ t.enabled ≠ some false ∧ t.material = .ok m := by
  cases h : d.tls with
  | none => simp [material_of_tls_eq_none h]
  | some t =>
      rw [material_of_tls_eq_some h]
      by_cases ht : t.enabled = some false
      · simp [ht]
      · cases hm : t.material <;> simp [ht, hm, Except.map]

/-- The contents in force are those of a block that is on and complete. -/
theorem material_withDefaults_eq_some_iff {p : Properties} {m : TlsMaterial} :
    p.withDefaults.material = .ok (some m) ↔ ∃ l t, p.listen = some l ∧ l.tls = some t ∧
      t.enabled ≠ some false ∧ t.material = .ok m := by
  simp only [material_eq_ok_some_iff, Properties.tls_withDefaults_eq_some_iff]
  constructor
  · rintro ⟨t, ⟨l, hl, ht, on, -⟩, -, hm⟩
    exact ⟨l, t, hl, ht, on, hm⟩
  · rintro ⟨l, t, hl, ht, on, hm⟩
    have complete : t.IsComplete := Properties.Tls.isComplete_iff.2 ⟨m, hm⟩
    exact ⟨t, ⟨l, hl, ht, on, .inl complete.hasContent⟩, on, hm⟩

end Defaulted

/-! ### Director -/

namespace Properties

/-- A complete block about proving oneself to the director has the common name that was given, and
verification is skipped only on request. -/
structure Mtls.Narrows (m : Mtls) (n : CaptureConfig.Mtls) : Prop where
  commonName : m.commonName = some n.commonName
  skipVerify : n.skipVerify = m.skipVerify.getD false

/-- A complete block of the director has the data that was given. -/
structure Bosh.Narrows (b : Bosh) (c : CaptureConfig.Bosh) : Prop where
  agentPort : c.agentPort = b.agentPort
  directorUrl : c.directorUrl = b.directorUrl
  tokenScope : c.tokenScope = b.tokenScope
  mtls : Option.Rel Mtls.Narrows b.mtls c.mtls

theorem Mtls.check_eq_error_iff {m : Mtls} {e : Failure} : m.check = .error e ↔
    ¬ Text.IsPresent m.commonName ∧ e = .incompleteMtls ["common_name"] := by
  rw [Mtls.check, ← Text.present_eq_none_iff]
  cases Text.present m.commonName <;> simp [eq_comm]

theorem Mtls.narrows_of_check {m : Mtls} {n : CaptureConfig.Mtls} (h : m.check = .ok n) :
    m.Narrows n := by
  rw [Mtls.check] at h
  cases hp : Text.present m.commonName with
  | none => simp [hp] at h
  | some name =>
      rw [hp] at h
      obtain rfl := Except.ok.inj h
      exact ⟨(Text.present_eq_some_iff.1 hp).1, rfl⟩

end Properties

namespace Defaulted

theorem director_eq_error_iff {d : Defaulted} {e : Failure} : d.director = .error e ↔
    ∃ b m, d.bosh = some b ∧ b.mtls = some m ∧ m.check = .error e := by
  rw [director]
  cases d.bosh with
  | none => simp
  | some b =>
      cases hm : b.mtls with
      | none => simp [hm]
      | some m => cases hc : m.check <;> simp [hm, hc, bind, Except.bind, pure, Except.pure]

theorem narrows_of_director {d : Defaulted} {bosh : Option Bosh} {findings : List Finding}
    (h : d.director = .ok (bosh, findings)) :
    Option.Rel Properties.Bosh.Narrows d.bosh bosh := by
  rw [director] at h
  cases hb : d.bosh with
  | none =>
      simp only [hb, Except.ok.injEq, Prod.mk.injEq] at h
      exact h.1 ▸ .none
  | some b =>
      simp only [hb] at h
      cases hm : b.mtls with
      | none =>
          simp only [hm, Except.ok.injEq, Prod.mk.injEq] at h
          exact h.1 ▸ .some ⟨rfl, rfl, rfl, hm ▸ .none⟩
      | some m =>
          simp only [hm, bind_eq_ok_iff] at h
          obtain ⟨n, hn, h⟩ := h
          simp only [pure, Except.pure, Except.ok.injEq, Prod.mk.injEq] at h
          exact h.1 ▸ .some ⟨rfl, rfl, rfl, hm ▸ .some (Properties.Mtls.narrows_of_check hn)⟩

end Defaulted

end CaptureConfig

/-
**What a document says of the properties.**

A document is what the rules and the defaults leave of the properties.  Nothing is made up on the
way and nothing is lost: numbers and texts are those of the operator, or their defaults, an
optional block is there exactly if it was given, and the two blocks that depend on more than being
given — the encrypted listener and the allowlist — are there exactly if what they depend on holds.

Main definitions:

* `Properties.IsToldBy` — a document says what the properties say.

Main results:

* `Properties.isToldBy_of_resolve` — **a document that is resolved says what the properties say**.
-/

import CaptureConfig.Proofs.Identifier
import CaptureConfig.Proofs.Rules

set_option relaxedAutoImplicit false
set_option autoImplicit false

namespace CaptureConfig

namespace Properties

/-- **A document says what the properties say**, for an instance. -/
structure IsToldBy (p : Properties) (i : Instance) (c : Config) : Prop where
  /-- The identifier is that of the instance, else the one among the properties. -/
  id : ∃ s, (i.id <|> p.id) = some s ∧ Identifier.IsHyphenated (Text.trim s).toList ∧
    c.id = "pcap-api/" ++ Text.trim s
  logLevel : c.logLevel = p.logLevel.getD "info"
  port : c.port = (p.listen.bind Listen.port).getD 8080
  concurrentCaptures : c.concurrentCaptures = p.concurrentCaptures
  captures_ne_zero : c.concurrentCaptures ≠ some 0
  buffer : c.buffer = p.buffer
  buffer_ordered : ∀ b, c.buffer = some b → b.lowerLimit < b.upperLimit ∧ b.upperLimit ≤ b.size
  /-- The files of the encrypted listener are named for a block that is on and complete. -/
  tls : c.tls.isSome ↔ ∃ l t, p.listen = some l ∧ l.tls = some t ∧ t.enabled ≠ some false ∧
    t.IsComplete
  bosh : Option.Rel Bosh.Narrows p.bosh c.bosh
  enableIpRestriction : c.enableIpRestriction = true ↔ p.enableIpRestriction = some true
  cidrAllowlist : c.cidrAllowlist.isSome ↔ c.enableIpRestriction = true

/-- The list in force is there exactly if addresses are restricted. -/
theorem isSome_allowlist_iff {p : Properties} {list : Option (List String)}
    {findings : List Finding} (h : p.withDefaults.allowlist = .ok (list, findings)) :
    list.isSome = true ↔ p.enableIpRestriction = some true := by
  rw [← enableIpRestriction_withDefaults]
  have hlist := Defaulted.allowlist_eq_ok_iff.1 h
  split at hlist
  next on => simp [hlist.2.1, on]
  next off => simp [hlist.1, off]

/-- The contents in force are there exactly for a block that is on and complete. -/
theorem isSome_material_iff {p : Properties} {tls : Option TlsMaterial}
    (h : p.withDefaults.material = .ok tls) :
    tls.isSome = true ↔ ∃ l t, p.listen = some l ∧ l.tls = some t ∧ t.enabled ≠ some false ∧
      t.IsComplete := by
  constructor
  · intro hs
    obtain ⟨m, rfl⟩ := Option.isSome_iff_exists.1 hs
    obtain ⟨l, t, hl, ht, on, hm⟩ := Defaulted.material_withDefaults_eq_some_iff.1 h
    exact ⟨l, t, hl, ht, on, Tls.isComplete_iff.2 ⟨m, hm⟩⟩
  · rintro ⟨l, t, hl, ht, on, complete⟩
    obtain ⟨m, hm⟩ := Tls.isComplete_iff.1 complete
    have hsome := Defaulted.material_withDefaults_eq_some_iff.2 ⟨l, t, hl, ht, on, hm⟩
    rw [h, Except.ok.injEq] at hsome
    rw [hsome, Option.isSome_some]

/-- **A document that is resolved says what the properties say.** -/
theorem isToldBy_of_resolve {p : Properties} {i : Instance} {root : Path} {o : Outcome}
    (h : (p.resolve i root).result = .ok o) : p.IsToldBy i o.config := by
  obtain ⟨c, id, hj, hid, hc, -⟩ := resolve_eq_ok_iff.1 h
  obtain ⟨t, ht, rfl⟩ := Checked.identifier_eq_ok_iff.1 hid
  rw [Defaulted.id_of_judge hj] at ht
  obtain ⟨s, hs, rfl, hyphenated⟩ := Identifier.ofText_eq_ok_iff.1 ht
  obtain ⟨list, _, tls, bosh, _, hlist, hbuffer, htls, hbosh, hcaptures, rfl, -⟩ :=
    Defaulted.judge_eq_ok_iff.1 hj
  have hrestricted := isSome_allowlist_iff hlist
  rw [hc]
  exact
    { id := ⟨s, hs, hyphenated, rfl⟩
      logLevel := rfl
      port := rfl
      concurrentCaptures := rfl
      captures_ne_zero := Defaulted.ne_zero_of_checkCaptures hcaptures
      buffer := rfl
      buffer_ordered := fun b hb => Defaulted.isOrdered_of_checkBuffer hbuffer hb
      tls := by rw [← isSome_material_iff htls]; simp [Checked.config, Defaulted.checked]
      bosh := Defaulted.narrows_of_director hbosh
      enableIpRestriction := hrestricted
      cidrAllowlist := by simp [Checked.config, Defaulted.checked] }

theorem isToldBy_ofEverything :
    (everything.resolve .blankEnded (.ofString "r/")).result = .ok .ofEverything ∧
      everything.IsToldBy .blankEnded Outcome.ofEverything.config :=
  ⟨resolve_everything, isToldBy_of_resolve resolve_everything⟩

end Properties

end CaptureConfig

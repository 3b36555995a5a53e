/-
**Which failure a resolution ends with.**

Properties can be wrong in several ways at once.  There are six rules, and they are tried in a
fixed order: the first one that is broken decides, and its complaint carries the data that broke
it.  A rule is told here by what the operator wrote, without the steps that look for it; nothing
else can go wrong, and the root below which materials are placed plays no part.

Main definitions:

* `Rule`, `Rule.order` — the rules, and the order in which they are tried;
* `Properties.Breaks` — a broken rule, with the complaint about it.

Main results:

* `Properties.resolve_verdict` — **the first broken rule decides**, and properties that break none
  are resolved.
-/

import CaptureConfig.Proofs.Identifier
import CaptureConfig.Proofs.Rules

set_option relaxedAutoImplicit false
set_option autoImplicit false

namespace CaptureConfig

/-- What properties are asked for. -/
inductive Rule where
  | restriction
  | buffer
  | listener
  | director
  | captures
  | identifier
  deriving DecidableEq, Repr

/-- The rules in the order in which they are tried. -/
def Rule.order : List Rule := [.restriction, .buffer, .listener, .director, .captures, .identifier]

theorem Rule.mem_order (r : Rule) : r ∈ order := by cases r <;> decide

namespace Properties

/-- **A broken rule, with the complaint about it.** -/
inductive Breaks (p : Properties) (i : Instance) : Rule → Failure → Prop
  /-- Addresses are restricted, and no entry of the allowlist is more than blanks. -/
  | restriction (restricted : p.enableIpRestriction = some true)
      (blank : ∀ list, p.cidrAllowlist = some list → ∀ s ∈ list, Text.trim s = "") :
      Breaks p i .restriction .conflictingConfiguration
  /-- The limits of the buffer are out of order. -/
  | buffer {b : Buffer} (given : p.buffer = some b)
      (disorder : ¬ (b.lowerLimit < b.upperLimit ∧ b.upperLimit ≤ b.size)) :
      Breaks p i .buffer (.invalidBufferBounds b)
  /-- The encrypted listener is asked for, by a content or by its switch, and lacks a content. -/
  | listener {l : Listen} {t : Tls} (given : p.listen = some l) (block : l.tls = some t)
      (on : t.enabled ≠ some false) (wanted : t.HasContent ∨ t.enabled = some true)
      (incomplete : ¬ t.IsComplete) : Breaks p i .listener (.incompleteTls t.absentKeys)
  /-- The service is to prove itself to the director, and has no name for that. -/
  | director {b : Bosh} {m : Mtls} (given : p.bosh = some b) (block : b.mtls = some m)
      (unnamed : ¬ Text.IsPresent m.commonName) :
      Breaks p i .director (.incompleteMtls ["common_name"])
  /-- No capture is allowed at all. -/
  | captures (zero : p.concurrentCaptures = some 0) :
      Breaks p i .captures (.invalidConcurrentCaptures 0)
  /-- The instance, else the identifier among the properties, is refused. -/
  | identifier {f : Identifier.Fault} (refused : Identifier.Refused (i.id <|> p.id) f) :
      Breaks p i .identifier (.invalidIdentifier f)

variable (p : Properties) (i : Instance)

/-- How the check of a rule fails. -/
def failure? : Rule → Option Failure
  | .restriction => failureOf p.withDefaults.allowlist
  | .buffer => failureOf p.withDefaults.checkBuffer
  | .listener => failureOf p.withDefaults.material
  | .director => failureOf p.withDefaults.director
  | .captures => failureOf p.withDefaults.checkCaptures
  | .identifier => (failureOf (Identifier.ofText (i.id <|> p.id))).map .invalidIdentifier

/-- The checks are those of the resolution, in its order. -/
theorem failureOf_resolve_eq_findSome? (root : Path) :
    failureOf (p.resolve i root).result = Rule.order.findSome? (p.failure? i) := by
  have hcons : ∀ (r : Rule) (rs : List Rule),
      (r :: rs).findSome? (p.failure? i) = (p.failure? i r).or (rs.findSome? (p.failure? i)) := by
    intro r rs
    rw [List.findSome?_cons]
    cases p.failure? i r <;> rfl
  rw [failureOf_resolve, Defaulted.failureOf_judge, Rule.order]
  simp only [hcons, failure?, List.findSome?_nil, Option.or_none, Option.or_assoc]

theorem failure?_restriction_iff {e : Failure} :
    p.failure? i .restriction = some e ↔ p.Breaks i .restriction e := by
  rw [failure?, failureOf_eq_some_iff, Defaulted.allowlist_eq_error_iff,
    enableIpRestriction_withDefaults, presentEntries_eq_nil_iff]
  constructor
  · rintro ⟨⟨restricted, blank⟩, rfl⟩
    exact .restriction restricted blank
  · intro h
    cases h with
    | restriction restricted blank => exact ⟨⟨restricted, blank⟩, rfl⟩

theorem failure?_buffer_iff {e : Failure} :
    p.failure? i .buffer = some e ↔ p.Breaks i .buffer e := by
  rw [failure?, failureOf_eq_some_iff, Defaulted.checkBuffer_eq_error_iff]
  constructor
  · rintro ⟨b, given, disorder, rfl⟩
    exact .buffer given disorder
  · intro h
    cases h with
    | buffer given disorder => exact ⟨_, given, disorder, rfl⟩

theorem failure?_listener_iff {e : Failure} :
    p.failure? i .listener = some e ↔ p.Breaks i .listener e := by
  simp only [failure?, failureOf_eq_some_iff, Defaulted.material_eq_error_iff,
    tls_withDefaults_eq_some_iff, Tls.material_eq_error_iff]
  constructor
  · rintro ⟨t, ⟨l, given, block, on, wanted⟩, -, incomplete, rfl⟩
    exact .listener given block on wanted incomplete
  · intro h
    cases h with
    | listener given block on wanted incomplete =>
        exact ⟨_, ⟨_, given, block, on, wanted⟩, on, incomplete, rfl⟩

theorem failure?_director_iff {e : Failure} :
    p.failure? i .director = some e ↔ p.Breaks i .director e := by
  simp only [failure?, failureOf_eq_some_iff, Defaulted.director_eq_error_iff,
    Mtls.check_eq_error_iff]
  constructor
  · rintro ⟨b, m, given, block, unnamed, rfl⟩
    exact .director given block unnamed
  · intro h
    cases h with
    | director given block unnamed => exact ⟨_, _, given, block, unnamed, rfl⟩

theorem failure?_captures_iff {e : Failure} :
    p.failure? i .captures = some e ↔ p.Breaks i .captures e := by
  rw [failure?, failureOf_eq_some_iff, Defaulted.checkCaptures_eq_error_iff]
  constructor
  · rintro ⟨zero, rfl⟩
    exact .captures zero
  · intro h
    cases h with
    | captures zero => exact ⟨zero, rfl⟩

theorem failure?_identifier_iff {e : Failure} :
    p.failure? i .identifier = some e ↔ p.Breaks i .identifier e := by
  simp only [failure?, Option.map_eq_some_iff, failureOf_eq_some_iff,
    Identifier.ofText_eq_error_iff]
  constructor
  · rintro ⟨f, refused, rfl⟩
    exact .identifier refused
  · intro h
    cases h with
    | identifier refused => exact ⟨_, refused, rfl⟩

/-- The check of a rule fails exactly when the rule is broken, and complains about just that. -/
theorem failure?_eq_some_iff {r : Rule} {e : Failure} :
    p.failure? i r = some e ↔ p.Breaks i r e := by
  cases r with
  | restriction => exact p.failure?_restriction_iff i
  | buffer => exact p.failure?_buffer_iff i
  | listener => exact p.failure?_listener_iff i
  | director => exact p.failure?_director_iff i
  | captures => exact p.failure?_captures_iff i
  | identifier => exact p.failure?_identifier_iff i

theorem failure?_eq_none_iff {r : Rule} : p.failure? i r = none ↔ ∀ e, ¬ p.Breaks i r e := by
  rw [Option.eq_none_iff_forall_ne_some]
  exact forall_congr' fun e => not_congr (p.failure?_eq_some_iff i)

/-- **The first broken rule decides**: a resolution fails with the complaint of the first rule that
is broken, in the order of the rules, and succeeds exactly when none is. -/
theorem resolve_verdict (root : Path) :
    (∀ e, (p.resolve i root).result = .error e ↔
      ∃ earlier r later, Rule.order = earlier ++ r :: later ∧ p.Breaks i r e ∧
        ∀ s ∈ earlier, ∀ f, ¬ p.Breaks i s f) ∧
    ((∃ o, (p.resolve i root).result = .ok o) ↔ ∀ r e, ¬ p.Breaks i r e) := by
  constructor
  · intro e
    rw [← failureOf_eq_some_iff, failureOf_resolve_eq_findSome?, List.findSome?_eq_some_iff]
    simp only [failure?_eq_some_iff, failure?_eq_none_iff]
  · rw [← failureOf_eq_none_iff, failureOf_resolve_eq_findSome?, List.findSome?_eq_none_iff]
    simp only [failure?_eq_none_iff, Rule.mem_order, true_imp_iff]

/-- Of three broken rules the first one speaks. -/
example : (({ everything with
      buffer := some ⟨1, 2, 3⟩, concurrentCaptures := some 0, cidrAllowlist := some [" "] } :
    Properties).resolve .blankEnded (.ofString "r")).result = .error .conflictingConfiguration :=
  rfl

end Properties

end CaptureConfig

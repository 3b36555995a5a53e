/-
**The steps of a resolution, taken apart.**

Resolving is one chain of steps that may fail: defaults, the rules, the identifier, the placing of
materials.  What the chain gives is told here once, so that no other module opens it: a success is
a success of every step, and a failure is the first failure among them.

Main definitions:

* `failureOf` — the failure of a step, if it fails.

Main results:

* `Defaulted.judge_eq_ok_iff`, `Properties.resolve_eq_ok_iff` — what a success consists of;
* `Defaulted.failureOf_judge`, `Properties.failureOf_resolve` — **the first failure decides**.
-/

import CaptureConfig.Resolution.Resolve

set_option relaxedAutoImplicit false
set_option autoImplicit false

namespace CaptureConfig

/-! ### Steps that may fail -/

section

variable {α β ε : Type}

theorem bind_eq_ok_iff {r : Except ε α} {f : α → Except ε β} {b : β} :
    r >>= f = .ok b ↔ ∃ a, r = .ok a ∧ f a = .ok b := by
  cases r with
  | ok a => simp [bind, Except.bind]
  | error e => simp [bind, Except.bind]

theorem map_eq_ok_iff {r : Except ε α} {f : α → β} {b : β} :
    r.map f = .ok b ↔ ∃ a, r = .ok a ∧ f a = b := by
  cases r with
  | ok a => simp [Except.map]
  | error e => simp [Except.map]

/-- The failure of a step, if it fails. -/
def failureOf : Except ε α → Option ε
  | .ok _ => none
  | .error e => some e

@[simp] theorem failureOf_ok (a : α) : failureOf (.ok a : Except ε α) = none := rfl

@[simp] theorem failureOf_error (e : ε) : failureOf (.error e : Except ε α) = some e := rfl

theorem failureOf_eq_some_iff {r : Except ε α} {e : ε} : failureOf r = some e ↔ r = .error e := by
  cases r <;> simp

theorem failureOf_eq_none_iff {r : Except ε α} : failureOf r = none ↔ ∃ a, r = .ok a := by
  cases r <;> simp

@[simp] theorem failureOf_map (f : α → β) (r : Except ε α) :
    failureOf (r.map f) = failureOf r := by
  cases r <;> rfl

/-- A step whose failure does not depend on what the one before it gives. -/
theorem failureOf_bind {r : Except ε α} {f : α → Except ε β} {next : Option ε}
    (h : ∀ a, r = .ok a → failureOf (f a) = next) :
    failureOf (r >>= f) = (failureOf r).or next := by
  cases r with
  | ok a => exact h a rfl
  | error e => rfl

/-- A step behind which nothing fails. -/
theorem failureOf_bind_of_ok {r : Except ε α} {f : α → Except ε β}
    (h : ∀ a, failureOf (f a) = none) : failureOf (r >>= f) = failureOf r := by
  rw [failureOf_bind fun a _ => h a, Option.or_none]

end

namespace Traced

variable {α β : Type}

@[simp] theorem result_quiet (r : Except Failure α) : (quiet r).result = r := rfl

@[simp] theorem result_tell (e : Event) : (tell e).result = .ok () := rfl

@[simp] theorem result_pure (a : α) : (pure a : Traced α).result = .ok a := rfl

theorem result_bind (t : Traced α) (f : α → Traced β) :
    (t >>= f).result = t.result >>= fun a => (f a).result := by
  change (t.bind f).result = _
  cases h : t.result <;> simp only [Traced.bind, h] <;> rfl

end Traced

/-! ### All rules -/

namespace Defaulted

/-- What keeps the rules, put together from what the rules leave. -/
def checked (d : Defaulted) (tls : Option TlsMaterial) (bosh : Option Bosh)
    (cidrAllowlist : Option (List String)) : Checked :=
  { id := d.id, logLevel := d.logLevel, concurrentCaptures := d.concurrentCaptures,
    buffer := d.buffer, port := d.port, tls, bosh, cidrAllowlist }

/-- **What a success of all rules consists of.** -/
theorem judge_eq_ok_iff {d : Defaulted} {c : Checked} {r : Report} :
    d.judge = .ok (c, r) ↔ ∃ list listFindings tls bosh boshFindings,
      d.allowlist = .ok (list, listFindings) ∧ d.checkBuffer = .ok () ∧ d.material = .ok tls ∧
      d.director = .ok (bosh, boshFindings) ∧ d.checkCaptures = .ok () ∧
      c = d.checked tls bosh list ∧
      r = ⟨listFindings ++ boshFindings ++ d.levelFindings ++
        d.unknownKeys.map Finding.unknownProperty⟩ := by
  simp only [judge, bind_eq_ok_iff, Prod.exists, pure, Except.pure, Except.ok.injEq, Prod.mk.injEq]
  constructor
  · rintro ⟨list, listFindings, hl, ⟨⟩, hb, tls, ht, bosh, boshFindings, hd, ⟨⟩, hc, rfl, rfl⟩
    exact ⟨list, listFindings, tls, bosh, boshFindings, hl, hb, ht, hd, hc, rfl, rfl⟩
  · rintro ⟨list, listFindings, tls, bosh, boshFindings, hl, hb, ht, hd, hc, rfl, rfl⟩
    exact ⟨list, listFindings, hl, (), hb, tls, ht, bosh, boshFindings, hd, (), hc, rfl, rfl⟩

/-- **The first rule that fails decides.** -/
theorem failureOf_judge (d : Defaulted) : failureOf d.judge =
    (failureOf d.allowlist).or ((failureOf d.checkBuffer).or ((failureOf d.material).or
      ((failureOf d.director).or (failureOf d.checkCaptures)))) := by
  refine failureOf_bind ?_
  rintro ⟨list, listFindings⟩ -
  refine failureOf_bind fun _ _ => failureOf_bind fun tls _ => failureOf_bind ?_
  rintro ⟨bosh, boshFindings⟩ -
  exact failureOf_bind_of_ok fun _ => rfl

@[simp] theorem result_check (d : Defaulted) : d.check.result = d.judge := by
  rw [check]
  split <;> simp [*]

@[simp] theorem result_checkTold (d : Defaulted) : d.checkTold.result = d.judge := by
  rw [← result_check, checkTold]
  split <;> simp [*]

/-- What keeps the rules has the identifier that was given. -/
theorem id_of_judge {d : Defaulted} {c : Checked} {r : Report} (h : d.judge = .ok (c, r)) :
    c.id = d.id := by
  obtain ⟨_, _, _, _, _, -, -, -, -, -, rfl, -⟩ := judge_eq_ok_iff.1 h
  rfl

end Defaulted

/-! ### The whole resolution -/

namespace Checked

theorem identifier_eq_ok_iff {c : Checked} {i : Instance} {id : String} :
    c.identifier i = .ok id ↔
      ∃ t, Identifier.ofText (i.id <|> c.id) = .ok t ∧ id = idPrefix ++ t := by
  rw [identifier]
  cases Identifier.ofText (i.id <|> c.id) with
  | ok t => simp [eq_comm]
  | error f => simp

theorem failureOf_identifier (c : Checked) (i : Instance) : failureOf (c.identifier i) =
    (failureOf (Identifier.ofText (i.id <|> c.id))).map .invalidIdentifier := by
  rw [identifier]
  cases Identifier.ofText (i.id <|> c.id) <;> rfl

theorem place_eq_ok_iff {c : Checked} {i : Instance} {root : Path} {config : Config}
    {plan : Material.Plan} : c.place i root = .ok (config, plan) ↔
      ∃ id, c.identifier i = .ok id ∧ config = c.config id root ∧ plan = c.plan root := by
  rw [place]
  cases c.identifier i <;> simp [Except.map, eq_comm]

end Checked

namespace Properties

variable (p : Properties) (i : Instance) (root : Path)

theorem result_resolve : (p.resolve i root).result =
    p.withDefaults.judge >>= fun x => x.1.place i root >>= fun y =>
      .ok (⟨y.1, y.2, x.2⟩ : Outcome) := by
  simp only [resolve, Traced.result_bind, Traced.result_tell, Defaulted.result_checkTold,
    Traced.result_quiet, Traced.result_pure]
  rfl

/-- **What a success consists of**: the rules are kept, and there is an identifier. -/
theorem resolve_eq_ok_iff {p : Properties} {i : Instance} {root : Path} {o : Outcome} :
    (p.resolve i root).result = .ok o ↔ ∃ c id, p.withDefaults.judge = .ok (c, o.report) ∧
      c.identifier i = .ok id ∧ o.config = c.config id root ∧ o.materials = c.plan root := by
  simp only [result_resolve, bind_eq_ok_iff, Prod.exists, Checked.place_eq_ok_iff, Except.ok.injEq]
  constructor
  · rintro ⟨c, r, hj, _, _, ⟨id, hid, rfl, rfl⟩, rfl⟩
    exact ⟨c, id, hj, hid, rfl, rfl⟩
  · rintro ⟨c, id, hj, hid, hc, hp⟩
    exact ⟨c, o.report, hj, o.config, o.materials, ⟨id, hid, hc, hp⟩, rfl⟩

/-- **The rules decide before the identifier does.** -/
theorem failureOf_resolve : failureOf (p.resolve i root).result =
    (failureOf p.withDefaults.judge).or
      ((failureOf (Identifier.ofText (i.id <|> p.id))).map .invalidIdentifier) := by
  rw [result_resolve]
  refine failureOf_bind ?_
  rintro ⟨c, r⟩ h
  rw [failureOf_bind_of_ok fun _ => rfl, Checked.place, failureOf_map,
    Checked.failureOf_identifier, Defaulted.id_of_judge h]
  rfl

end Properties

/-! ### Non-vacuity -/

/-- Properties that give every optional block, with blanks around some texts. -/
def Properties.everything : Properties where
  id := none
  logLevel := none
  concurrentCaptures := some 4
  buffer := some ⟨100, 98, 90⟩
  listen := some ⟨none, some ⟨none, some " crt\n", some "key", some "ca"⟩⟩
  bosh := some ⟨8443, "https://director", " scope ", some ⟨some "director", none⟩⟩
  enableIpRestriction := some true
  cidrAllowlist := some ["", " 10.0.0.0/8 "]
  extra := []

/-- An instance whose identifier has blanks around it. -/
def Instance.blankEnded : Instance := ⟨some " f9281cda-1234-bbcd-ef12-1337cafe0048\n"⟩

/-- What these lead to below a root that ends with a slash. -/
def Outcome.ofEverything : Outcome where
  config :=
    { id := "pcap-api/f9281cda-1234-bbcd-ef12-1337cafe0048", logLevel := "info",
      concurrentCaptures := some 4, buffer := some ⟨100, 98, 90⟩, port := 8080,
      tls := some ⟨.ofString "r/certs/pcap-api.crt", .ofString "r/certs/pcap-api.key",
        .ofString "r/certs/pcap-api-ca.crt"⟩,
      bosh := some ⟨8443, "https://director", " scope ", some ⟨"director", false⟩⟩,
      enableIpRestriction := true, cidrAllowlist := some (.ofString "r/allowlist_cidrs.txt") }
  materials :=
    ⟨[⟨.certificate, .ofString "r/certs/pcap-api.crt", " crt\n"⟩,
      ⟨.privateKey, .ofString "r/certs/pcap-api.key", "key"⟩,
      ⟨.clientCas, .ofString "r/certs/pcap-api-ca.crt", "ca"⟩,
      ⟨.cidrAllowlist, .ofString "r/allowlist_cidrs.txt", "10.0.0.0/8\n"⟩]⟩
  report := ⟨[]⟩

/-- The hypothesis that a resolution succeeds is satisfiable with every block in force. -/
theorem Properties.resolve_everything :
    (Properties.everything.resolve .blankEnded (.ofString "r/")).result = .ok .ofEverything := rfl

end CaptureConfig

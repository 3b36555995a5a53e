/-
**Secrets stay in their files.**

The certificate, the private key and the authorities are given by content.  What they say may show
in the files that are planned for them and nowhere else: not in the document, not in the report,
not in a failure, not in an event and not in a description.  This is a statement about two
resolutions: when their properties differ at most in secrets, so do their outcomes.

The proof follows the steps of a resolution.  A relation between what two runs have in hand is kept
by every step, and steps are put together by `Agree.bind` and `Traced.Alike.bind`.  Only whether a
content is present is looked at, and that is the same in both runs; a block that is switched off
is dropped before anything looks at its contents.

Main definitions:

* `Properties.Alike` — properties that differ at most in secrets;
* `Agree`, `Traced.Alike` — two runs that fail alike, or succeed with related results;
* `Material.File.redacted` — a planned file without what it keeps secret;
* `Outcome.Alike` — outcomes that differ at most in secrets.

Main results:

* `Properties.secrets_confined` — **what the secrets say shows in their files alone**.
-/

import CaptureConfig.Document.Form
import CaptureConfig.Proofs.Rules

set_option relaxedAutoImplicit false
set_option autoImplicit false

namespace CaptureConfig

/-! ### Two runs -/

section

variable {α β α' β' ε : Type}

/-- **Two steps that agree**: they fail alike, or both succeed with related results. -/
inductive Agree (R : α → β → Prop) : Except ε α → Except ε β → Prop
  | ok {a : α} {b : β} (h : R a b) : Agree R (.ok a) (.ok b)
  | error (e : ε) : Agree R (.error e) (.error e)

theorem rel_cases {R : α → β → Prop} {x : Option α} {y : Option β} (h : Option.Rel R x y) :
    (x = none ∧ y = none) ∨ ∃ a b, x = some a ∧ y = some b ∧ R a b := by
  cases h with
  | none => exact .inl ⟨rfl, rfl⟩
  | some h => exact .inr ⟨_, _, rfl, rfl, h⟩

theorem Agree.of_eq {r s : Except ε α} (h : r = s) : Agree Eq r s := by
  subst h
  cases r with
  | ok a => exact .ok rfl
  | error e => exact .error e

theorem Agree.bind {R : α → β → Prop} {S : α' → β' → Prop} {r : Except ε α} {s : Except ε β}
    {f : α → Except ε α'} {g : β → Except ε β'} (h : Agree R r s)
    (hf : ∀ a b, R a b → Agree S (f a) (g b)) : Agree S (r >>= f) (s >>= g) := by
  cases h with
  | ok h => exact hf _ _ h
  | error e => exact .error e

theorem Agree.map {R : α → β → Prop} {S : α' → β' → Prop} {r : Except ε α} {s : Except ε β}
    {f : α → α'} {g : β → β'} (h : Agree R r s) (hf : ∀ a b, R a b → S (f a) (g b)) :
    Agree S (r.map f) (s.map g) := by
  cases h with
  | ok h => exact .ok (hf _ _ h)
  | error e => exact .error e

end

namespace Traced

variable {α β α' β' : Type}

/-- **Two runs that are alike**: they tell the same, and what comes of them agrees. -/
structure Alike (R : α → β → Prop) (t : Traced α) (u : Traced β) : Prop where
  events : t.events = u.events
  result : Agree R t.result u.result

theorem Alike.quiet {R : α → β → Prop} {r : Except Failure α} {s : Except Failure β}
    (h : Agree R r s) : Alike R (Traced.quiet r) (Traced.quiet s) := ⟨rfl, h⟩

theorem Alike.tell {e f : Event} (h : e = f) : Alike Eq (Traced.tell e) (Traced.tell f) := by
  subst h
  exact ⟨rfl, .ok rfl⟩

theorem Alike.bind {R : α → β → Prop} {S : α' → β' → Prop} {t : Traced α} {u : Traced β}
    {f : α → Traced α'} {g : β → Traced β'} (h : Alike R t u)
    (hf : ∀ a b, R a b → Alike S (f a) (g b)) : Alike S (t >>= f) (u >>= g) := by
  obtain ⟨events, result⟩ := t
  obtain ⟨events', result'⟩ := u
  obtain ⟨hevents, hresult⟩ := h
  obtain rfl : events = events' := hevents
  cases hresult with
  | ok h =>
      obtain ⟨hev, hres⟩ := hf _ _ h
      exact ⟨congrArg (events ++ ·) hev, hres⟩
  | error e => exact ⟨rfl, .error e⟩

end Traced

/-! ### Properties that differ at most in secrets -/

namespace Properties

/-- Blocks for the encrypted listener that differ at most in what their contents say: the switch is
the same, and unless it is off the same contents are present. -/
structure Tls.Alike (t u : Tls) : Prop where
  enabled : t.enabled = u.enabled
  present : t.enabled = some false ∨
    ((Text.IsPresent t.certificate ↔ Text.IsPresent u.certificate) ∧
      (Text.IsPresent t.privateKey ↔ Text.IsPresent u.privateKey) ∧
      (Text.IsPresent t.ca ↔ Text.IsPresent u.ca))

/-- Listeners that differ at most in secrets. -/
structure Listen.Alike (l m : Listen) : Prop where
  port : l.port = m.port
  tls : Option.Rel Tls.Alike l.tls m.tls

/-- **Properties that differ at most in secrets.** -/
structure Alike (p q : Properties) : Prop where
  /-- All but the listener is the same. -/
  rest : { p with listen := none } = { q with listen := none }
  listen : Option.Rel Listen.Alike p.listen q.listen

theorem Tls.Alike.hasContent_iff {t u : Tls} (h : t.Alike u) (on : t.enabled ≠ some false) :
    t.HasContent ↔ u.HasContent := by
  obtain ⟨hc, hk, ha⟩ := h.present.resolve_left on
  rw [HasContent, HasContent, hc, hk, ha]

theorem Tls.Alike.isRequested_eq {t u : Tls} (h : t.Alike u) : t.isRequested = u.isRequested := by
  rw [Bool.eq_iff_iff, isRequested_iff, isRequested_iff, ← h.enabled]
  refine and_congr_right fun on => ?_
  rw [h.hasContent_iff on]

/-- Blocks that differ at most in secrets give the three contents alike, or lack the same. -/
theorem Tls.Alike.material {t u : Tls} (h : t.Alike u) (on : t.enabled ≠ some false) :
    Agree (fun _ _ => True) t.material u.material := by
  obtain ⟨hc, hk, ha⟩ := h.present.resolve_left on
  have complete : t.IsComplete ↔ u.IsComplete := by rw [IsComplete, IsComplete, hc, hk, ha]
  have absent : t.absentKeys = u.absentKeys := by simp only [absentKeys_eq, hc, hk, ha]
  -- a complaint names the absent keys, which are the same in both
  by_cases ht : t.IsComplete
  · obtain ⟨m, hm⟩ := isComplete_iff.1 ht
    obtain ⟨n, hn⟩ := isComplete_iff.1 (complete.1 ht)
    rw [hm, hn]
    exact .ok trivial
  · rw [material_eq_error_iff.2 ⟨ht, rfl⟩, material_eq_error_iff.2 ⟨mt complete.2 ht, rfl⟩, absent]
    exact .error _

end Properties

/-! ### The steps of two resolutions -/

namespace Defaulted

/-- Defaulted properties that differ at most in secrets. -/
structure Alike (d e : Defaulted) : Prop where
  rest : { d with tls := none } = { e with tls := none }
  tls : Option.Rel Properties.Tls.Alike d.tls e.tls

/-- What does not look at the block for the encrypted listener is the same. -/
theorem Alike.congr {γ : Type} {d e : Defaulted} (h : d.Alike e) (f : Defaulted → γ)
    (hf : ∀ d : Defaulted, f d = f { d with tls := none }) : f d = f e := by
  rw [hf d, hf e, h.rest]

end Defaulted

namespace Properties

/-- Defaults look at the switch and at which contents are present, and drop a block whose contents
may differ in that. -/
theorem Alike.withDefaults {p q : Properties} (h : p.Alike q) :
    p.withDefaults.Alike q.withDefaults := by
  -- what defaults make of the rest, of the port and of the block are three separate things
  have apart : ∀ r : Properties, { r.withDefaults with tls := none } =
      { ({ r with listen := none } : Properties).withDefaults with
        port := (r.listen.bind Listen.port).getD defaultPort } := fun _ => rfl
  have filtered : ∀ r : Properties,
      r.withDefaults.tls = (r.listen.bind Listen.tls).filter Tls.isRequested := fun _ => rfl
  obtain ⟨hp, hq⟩ | ⟨l, m, hp, hq, hport, htls⟩ := rel_cases h.listen
  · refine ⟨?_, ?_⟩
    · rw [apart, apart, h.rest, hp, hq]
    · rw [filtered, filtered, hp, hq]
      exact .none
  · refine ⟨?_, ?_⟩
    · rw [apart, apart, h.rest, hp, hq, Option.bind_some, Option.bind_some, hport]
    · rw [filtered, filtered, hp, hq, Option.bind_some, Option.bind_some]
      obtain ⟨hl, hm⟩ | ⟨t, u, hl, hm, htu⟩ := rel_cases htls
      · rw [hl, hm]
        exact .none
      · rw [hl, hm, Option.filter_some, Option.filter_some, ← htu.isRequested_eq]
        split
        · exact .some htu
        · exact .none

end Properties

/-- What keeps the rules, up to secrets. -/
structure Checked.Alike (c c' : Checked) : Prop where
  rest : { c with tls := none } = { c' with tls := none }
  tls : Option.Rel (fun _ _ => True) c.tls c'.tls

/-- What does not look at the contents of the encrypted listener is the same. -/
theorem Checked.Alike.congr {γ : Type} {c c' : Checked} (h : c.Alike c') (f : Checked → γ)
    (hf : ∀ c : Checked, f c = f { c with tls := none }) : f c = f c' := by
  rw [hf c, hf c', h.rest]

namespace Defaulted

theorem Alike.material {d e : Defaulted} (h : d.Alike e) :
    Agree (Option.Rel fun _ _ => True) d.material e.material := by
  obtain ⟨hd, he⟩ | ⟨t, u, hd, he, htu⟩ := rel_cases h.tls
  · rw [material_of_tls_eq_none hd, material_of_tls_eq_none he]
    exact .ok .none
  · rw [material_of_tls_eq_some hd, material_of_tls_eq_some he, ← htu.enabled]
    by_cases on : t.enabled = some false
    · rw [if_pos on, if_pos on]
      exact .ok .none
    · rw [if_neg on, if_neg on]
      exact (htu.material on).map fun _ _ _ => .some trivial

/-- The rules decide alike, and find the same odd. -/
theorem Alike.judge {d e : Defaulted} (h : d.Alike e) :
    Agree (fun x y => x.1.Alike y.1 ∧ x.2 = y.2) d.judge e.judge := by
  have allowlist : d.allowlist = e.allowlist := h.congr _ fun _ => rfl
  have buffer : d.checkBuffer = e.checkBuffer := h.congr _ fun _ => rfl
  have director : d.director = e.director := h.congr _ fun _ => rfl
  have captures : d.checkCaptures = e.checkCaptures := h.congr _ fun _ => rfl
  have level : d.levelFindings = e.levelFindings := h.congr _ fun _ => rfl
  have unknown : d.unknownKeys = e.unknownKeys := h.congr _ fun _ => rfl
  rw [Defaulted.judge, Defaulted.judge]
  refine (Agree.of_eq allowlist).bind ?_
  rintro ⟨list, listFindings⟩ _ rfl
  refine (Agree.of_eq buffer).bind fun _ _ _ => h.material.bind fun tls tls' htls => ?_
  refine (Agree.of_eq director).bind ?_
  rintro ⟨bosh, boshFindings⟩ _ rfl
  refine (Agree.of_eq captures).bind fun _ _ _ => .ok ⟨⟨?_, htls⟩, ?_⟩
  · exact h.congr (Defaulted.checked · none bosh list) fun _ => rfl
  · simp only [level, unknown]

theorem Alike.check {d e : Defaulted} (h : d.Alike e) :
    Traced.Alike (fun x y => x.1.Alike y.1 ∧ x.2 = y.2) d.check e.check := by
  have unknown : d.unknownKeys = e.unknownKeys := h.congr _ fun _ => rfl
  have hj := h.judge
  rw [Defaulted.check, Defaulted.check]
  generalize d.judge = r at hj
  generalize e.judge = s at hj
  cases hj with
  | ok h => exact ⟨congrArg (List.map Event.unknownProperty) unknown, .ok h⟩
  | error e => exact ⟨rfl, .error e⟩

/-- A failure that is told is told alike. -/
theorem Alike.checkTold {d e : Defaulted} (h : d.Alike e) :
    Traced.Alike (fun x y => x.1.Alike y.1 ∧ x.2 = y.2) d.checkTold e.checkTold := by
  obtain ⟨hevents, hresult⟩ := h.check
  rw [Defaulted.checkTold, Defaulted.checkTold]
  generalize d.check = t at hevents hresult
  generalize e.check = u at hevents hresult
  obtain ⟨events, result⟩ := t
  obtain ⟨events', result'⟩ := u
  obtain rfl : events = events' := hevents
  cases hresult with
  | ok h => exact ⟨rfl, .ok h⟩
  | error e => exact ⟨rfl, .error e⟩

end Defaulted

/-! ### Outcomes that differ at most in secrets -/

/-- A planned file without what it keeps secret: of the files of the encrypted listener the
contents are left out. -/
def Material.File.redacted (f : Material.File) : Material.File :=
  if f.kind = .cidrAllowlist then f else { f with contents := "" }

@[simp] theorem Material.File.kind_redacted (f : File) : f.redacted.kind = f.kind := by
  rw [redacted]
  split <;> rfl

@[simp] theorem Material.File.path_redacted (f : File) : f.redacted.path = f.path := by
  rw [redacted]
  split <;> rfl

/-- **Outcomes that differ at most in secrets**: the document and the report are the same, and the
planned files are the same but for the contents of the encrypted listener. -/
structure Outcome.Alike (o o' : Outcome) : Prop where
  config : o.config = o'.config
  report : o.report = o'.report
  files : o.materials.files.map Material.File.redacted =
    o'.materials.files.map Material.File.redacted

namespace Checked

/-- The document names the files of the encrypted listener in either case, or in neither. -/
theorem Alike.config_eq {c c' : Checked} (h : c.Alike c') (id : String) (root : Path) :
    c.config id root = c'.config id root := by
  have apart : ∀ c : Checked, c.config id root =
      { ({ c with tls := none } : Checked).config id root with
        tls := c.tls.map fun _ => tlsConfig root } := fun _ => rfl
  obtain ⟨hc, hc'⟩ | ⟨m, n, hc, hc', -⟩ := rel_cases h.tls
  · rw [apart, apart c', h.rest, hc, hc']
  · rw [apart, apart c', h.rest, hc, hc', Option.map_some, Option.map_some]

theorem Alike.map_redacted_eq {c c' : Checked} (h : c.Alike c') (root : Path) :
    (c.plan root).files.map Material.File.redacted =
      (c'.plan root).files.map Material.File.redacted := by
  have list : c.cidrAllowlist = c'.cidrAllowlist := h.congr _ fun _ => rfl
  rw [plan, plan, List.map_append, List.map_append, list]
  obtain ⟨hc, hc'⟩ | ⟨m, n, hc, hc', -⟩ := rel_cases h.tls
  · rw [hc, hc']
  · rw [hc, hc']
    rfl

theorem Alike.place {c c' : Checked} (h : c.Alike c') (i : Instance) (root : Path) :
    Agree (fun x y => x.1 = y.1 ∧ x.2.files.map Material.File.redacted =
      y.2.files.map Material.File.redacted) (c.place i root) (c'.place i root) := by
  rw [Checked.place, Checked.place]
  have identifier : c.identifier i = c'.identifier i := h.congr (·.identifier i) fun _ => rfl
  refine (Agree.of_eq identifier).map ?_
  rintro id _ rfl
  exact ⟨h.config_eq id root, h.map_redacted_eq root⟩

end Checked

namespace Properties

/-- Two resolutions are alike when their properties are. -/
theorem Alike.resolve {p q : Properties} (h : p.Alike q) (i : Instance) (root : Path) :
    Traced.Alike Outcome.Alike (p.resolve i root) (q.resolve i root) := by
  have hd := h.withDefaults
  have applied : Event.defaultsApplied p.withDefaults = Event.defaultsApplied q.withDefaults :=
    hd.congr _ fun _ => rfl
  rw [Properties.resolve, Properties.resolve]
  refine (Traced.Alike.tell applied).bind fun _ _ _ => hd.checkTold.bind ?_
  rintro ⟨c, r⟩ ⟨c', _⟩ ⟨hc, rfl⟩
  refine (Traced.Alike.quiet (hc.place i root)).bind ?_
  rintro ⟨config, plan⟩ ⟨_, plan'⟩ ⟨rfl, hfiles⟩
  have length : plan.files.length = plan'.files.length := by
    simpa using congrArg List.length hfiles
  have told : Event.resolved ⟨config, plan, r⟩ = Event.resolved ⟨config, plan', r⟩ := by
    simp only [Event.resolved, length]
  exact (Traced.Alike.tell told).bind fun _ _ _ => ⟨rfl, .ok ⟨rfl, rfl, hfiles⟩⟩

/-- **What the secrets say shows in their files alone.**  Two resolutions of properties that differ
at most in secrets tell the same events, and end in the same failure or in outcomes whose documents
and reports are the same in every form.  Descriptions show of a secret whether it is given, of a
planned file how long it is, and nothing else. -/
theorem secrets_confined :
    (∀ (p q : Properties) (i : Instance) (root : Path), p.Alike q →
      (p.resolve i root).events = (q.resolve i root).events ∧
      ((∃ e, (p.resolve i root).result = .error e ∧ (q.resolve i root).result = .error e) ∨
        ∃ o o', (p.resolve i root).result = .ok o ∧ (q.resolve i root).result = .ok o' ∧
          o.Alike o' ∧ (∀ form, o.config.text form = o'.config.text form) ∧
          o.report.json.print = o'.report.json.print)) ∧
    (∀ t u : Tls, t.enabled = u.enabled → t.certificate.isSome = u.certificate.isSome →
      t.privateKey.isSome = u.privateKey.isSome → t.ca.isSome = u.ca.isSome →
      t.description = u.description) ∧
    (∀ m n : TlsMaterial, m.description = n.description) ∧
    ∀ f g : Material.File, f.kind = g.kind → f.path = g.path →
      (Utf8.encode f.contents).length = (Utf8.encode g.contents).length →
      f.description = g.description := by
  refine ⟨?_, fun t u => Tls.description_eq_of_isSome_eq, fun _ _ => rfl, ?_⟩
  · intro p q i root h
    obtain ⟨hevents, hresult⟩ := h.resolve i root
    refine ⟨hevents, ?_⟩
    generalize (p.resolve i root).result = r at hresult
    generalize (q.resolve i root).result = s at hresult
    cases hresult with
    | ok ho =>
        exact .inr ⟨_, _, rfl, rfl, ho, fun form => by rw [ho.config], by rw [ho.report]⟩
    | error e => exact .inl ⟨e, rfl, rfl⟩
  · intro f g kind path length
    rw [Material.File.description, Material.File.description, kind, path, length]

/-- The same properties with other secrets. -/
def everythingElse : Properties :=
  { everything with listen := some ⟨none, some ⟨none, some "other", some "keys", some "here"⟩⟩ }

theorem alike_everythingElse : everything.Alike everythingElse where
  rest := rfl
  listen := .some ⟨rfl, .some ⟨rfl, .inr (by decide)⟩⟩

theorem events_everythingElse : everything.Alike everythingElse ∧
    (everything.resolve .blankEnded (.ofString "r/")).events =
      (everythingElse.resolve .blankEnded (.ofString "r/")).events :=
  ⟨alike_everythingElse,
    (secrets_confined.1 everything everythingElse _ _ alike_everythingElse).1⟩

end Properties

end CaptureConfig

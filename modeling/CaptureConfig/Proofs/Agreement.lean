/-
**Checking and rendering agree.**

Where a configuration is to lie shows in its paths and nowhere else: with another root a property
file is loaded or refused as before, the same is told, the document is the same up to its paths, and
the same is planned.  The proof goes along the steps of a resolution, as for secrets; the root is
looked at in the last one alone.

So checking, which places everything below the usual root, says of a property file whether it can be
rendered below any root that is a text, and warns of the same.

Main definitions:

* `Path.Moved`, `Config.Moved`, `Outcome.Moved` — the same below another root;
* `Transcript.warnings` — the warnings that a command logs.

Main results:

* `Outcome.moved_load` — **the root shows in the paths alone**;
* `Command.check_concurs_render` — **checking and rendering agree**.
-/

import CaptureConfig.Command.Run
import CaptureConfig.Proofs.Loading
import CaptureConfig.Proofs.Plan
import CaptureConfig.Proofs.RoundTrip
import CaptureConfig.Proofs.Secrecy

set_option relaxedAutoImplicit false
set_option autoImplicit false

namespace CaptureConfig

/-! ### The same below another root -/

/-- **The same path below another root**: the same names are joined to either. -/
def Path.Moved (r s p q : Path) : Prop :=
  ∃ names : List String, p = names.foldl Path.join r ∧ q = names.foldl Path.join s

theorem Material.place_eq_foldl (root : Path) (k : Kind) :
    place root k = k.names.foldl Path.join root := by
  cases k <;> rfl

theorem Material.moved_place (r s : Path) (k : Kind) : Path.Moved r s (place r k) (place s k) :=
  ⟨k.names, place_eq_foldl r k, place_eq_foldl s k⟩

/-- **The same document below another root.** -/
structure Config.Moved (r s : Path) (c d : Config) : Prop where
  /-- All but the paths is the same. -/
  rest : { c with tls := none, cidrAllowlist := none } = { d with tls := none, cidrAllowlist := none }
  /-- The same files are named, in the places below the other root. -/
  path? : ∀ k, Option.Rel (Path.Moved r s) (c.path? k) (d.path? k)

/-- **The same outcome below another root.** -/
structure Outcome.Moved (r s : Path) (o o' : Outcome) : Prop where
  config : o.config.Moved r s o'.config
  report : o.report = o'.report
  /-- The planned files are as many, of the same kinds and with the same contents. -/
  files : o.materials.files.map (fun f => (f.kind, f.contents)) =
    o'.materials.files.map fun f => (f.kind, f.contents)

namespace Checked

variable (c : Checked)

theorem moved_config (id : String) (r s : Path) : (c.config id r).Moved r s (c.config id s) where
  rest := rfl
  path? k := by
    obtain ⟨_, _, _, _, _, tls, _, list⟩ := c
    cases k with
    | cidrAllowlist => cases list <;> constructor; exact Material.moved_place r s .cidrAllowlist
    | certificate => cases tls <;> constructor; exact Material.moved_place r s .certificate
    | privateKey => cases tls <;> constructor; exact Material.moved_place r s .privateKey
    | clientCas => cases tls <;> constructor; exact Material.moved_place r s .clientCas

theorem map_files_plan (r s : Path) : (c.plan r).files.map (fun f => (f.kind, f.contents)) =
    (c.plan s).files.map fun f => (f.kind, f.contents) := by
  obtain ⟨_, _, _, _, _, tls, _, list⟩ := c
  cases tls <;> cases list <;> rfl

theorem moved_place (i : Instance) (r s : Path) :
    Agree (fun x y => x.1.Moved r s y.1 ∧ x.2.files.map (fun f => (f.kind, f.contents)) =
      y.2.files.map fun f => (f.kind, f.contents)) (c.place i r) (c.place i s) := by
  refine (Agree.of_eq (r := c.identifier i) rfl).map ?_
  rintro id _ rfl
  exact ⟨c.moved_config id r s, c.map_files_plan r s⟩

end Checked

theorem Traced.Alike.refl {α : Type} (t : Traced α) : Traced.Alike Eq t t := ⟨rfl, .of_eq rfl⟩

namespace Properties

/-- The root is looked at when all else is decided. -/
theorem moved_resolve (p : Properties) (i : Instance) (r s : Path) :
    Traced.Alike (Outcome.Moved r s) (p.resolve i r) (p.resolve i s) := by
  rw [Properties.resolve, Properties.resolve]
  refine (Traced.Alike.refl _).bind fun _ _ _ => (Traced.Alike.refl p.withDefaults.checkTold).bind ?_
  rintro ⟨c, report⟩ _ rfl
  refine (Traced.Alike.quiet (c.moved_place i r s)).bind ?_
  rintro ⟨config, plan⟩ ⟨config', plan'⟩ ⟨hconfig, hfiles⟩
  have hid : config.id = config'.id := (congrArg Config.id hconfig.rest :)
  have htls : config.tls.isSome = config'.tls.isSome := by
    have hpath := hconfig.path? .certificate
    rw [Config.path?, Config.path?] at hpath
    cases htls : config.tls <;> cases htls' : config'.tls <;> rw [htls, htls'] at hpath <;>
      first | rfl | cases hpath
  have hlength : plan.files.length = plan'.files.length := by
    simpa using congrArg List.length hfiles
  have told : Event.resolved ⟨config, plan, report⟩ = Event.resolved ⟨config', plan', report⟩ := by
    simp only [Event.resolved, hid, htls, hlength]
  exact (Traced.Alike.tell told).bind fun _ _ _ => ⟨rfl, .ok ⟨hconfig, rfl, hfiles⟩⟩

end Properties

namespace Outcome

theorem moved_ofReading (path : Path) (read : Except Refusal (List UInt8))
    (instanceId : Option String) (r s : Path) : Traced.Alike (Outcome.Moved r s)
      (ofReading path read instanceId r) (ofReading path read instanceId s) := by
  refine (Traced.Alike.refl (PropertyFile.ofReading path read)).bind ?_
  rintro f _ rfl
  exact f.properties.moved_resolve _ r s

/-- **The root shows in the paths alone**, whatever is loaded. -/
theorem moved_load (path : Path) (instanceId : Option String) (r s : Path) (t : FileTree) :
    Traced.Alike (Outcome.Moved r s) ((Outcome.load path instanceId r : StateM FileTree _) t).1
      ((Outcome.load path instanceId s : StateM FileTree _) t).1 := by
  rw [load_run, load_run]
  exact moved_ofReading path _ instanceId r s

end Outcome

/-! ### Roots that are texts -/

namespace Path

/-- A component behind a path that is a text ends the text. -/
theorem IsText.exists_join {p : Path} (h : p.IsText) (name : String) :
    ∃ front, p.join name = ofString (front ++ name) := by
  obtain ⟨s, rfl⟩ := h
  have hslash : Utf8.encode "/" = [slash] := by decide
  rw [Path.join]
  split
  next => exact ⟨s, by simp [ofString, Utf8.encode_append]⟩
  next b =>
    split
    next => exact ⟨s, by simp [ofString, Utf8.encode_append]⟩
    next => exact ⟨s ++ "/", by simp [ofString, Utf8.encode_append, hslash]⟩

theorem IsText.join {p : Path} (h : p.IsText) (name : String) : (p.join name).IsText := by
  obtain ⟨front, hjoin⟩ := h.exists_join name
  exact ⟨_, hjoin⟩

theorem IsText.foldl_join {p : Path} (h : p.IsText) (names : List String) :
    (names.foldl Path.join p).IsText := by
  induction names generalizing p with
  | nil => exact h
  | cons name rest ih => exact ih (h.join name)

end Path

namespace Properties

/-- Below a root that is a text, all paths are texts. -/
theorem isText_of_resolve {p : Properties} {i : Instance} {root : Path} {o : Outcome}
    (h : (p.resolve i root).result = .ok o) (hroot : root.IsText) :
    ∀ q ∈ o.config.paths, q.IsText := by
  obtain ⟨c, id, -, -, hconfig, -⟩ := resolve_eq_ok_iff.1 h
  intro q hq
  rw [hconfig, ← c.paths_plan id root] at hq
  obtain ⟨f, hf, rfl⟩ := List.mem_map.1 hq
  rw [c.path_of_mem_files_plan root hf, Material.place_eq_foldl]
  exact hroot.foldl_join _

end Properties

/-! ### Warnings -/

/-- The warning that a notice is. -/
def Notice.warning? : Notice → Option Event
  | .logged e => if e.level = .warn then some e else none
  | .text _ => none

/-- **The warnings that a command logs**, in order. -/
def Transcript.warnings (t : Transcript) : List Event := t.notices.filterMap Notice.warning?

theorem filterMap_warning?_logs (events : List Event) :
    (Transcript.logs events).filterMap Notice.warning? = events.filter (·.level = .warn) := by
  have hguard : Notice.warning? ∘ Notice.logged = Option.guard (·.level = .warn) := by
    funext e
    simp only [Function.comp, Notice.warning?, Option.guard, decide_eq_true_eq]
  rw [Transcript.logs, List.filterMap_map, hguard, List.filterMap_eq_filter]

/-- While a configuration is loaded, nothing is warned of. -/
def Traced.IsCalm {α : Type} (t : Traced α) : Prop := ∀ e ∈ t.events, e.level = .debug

namespace Traced.IsCalm

variable {α β : Type}

theorem quiet (r : Except Failure α) : (Traced.quiet r).IsCalm := fun _ h => absurd h List.not_mem_nil

theorem tell {e : Event} (h : e.level = .debug) : (Traced.tell e).IsCalm := by
  intro f hf
  obtain rfl := List.mem_singleton.1 hf
  exact h

theorem bind {t : Traced α} {f : α → Traced β} (h : t.IsCalm) (hf : ∀ a, (f a).IsCalm) :
    (t >>= f).IsCalm := by
  change ∀ e ∈ (t.bind f).events, _
  rw [Traced.bind]
  split
  next a _ =>
    intro e he
    exact (List.mem_append.1 he).elim (h e) (hf a e)
  next => exact h

end Traced.IsCalm

theorem Defaulted.isCalm_checkTold (d : Defaulted) : d.checkTold.IsCalm := by
  have hcheck : d.check.IsCalm := by
    rw [check]
    split
    next =>
      intro e he
      obtain ⟨key, -, rfl⟩ := List.mem_map.1 he
      rfl
    next => exact fun _ h => absurd h List.not_mem_nil
  rw [checkTold]
  split
  next => exact hcheck
  next =>
    intro e he
    obtain he | he := List.mem_append.1 he
    · exact hcheck e he
    · obtain rfl := List.mem_singleton.1 he
      rfl

theorem Properties.isCalm_resolve (p : Properties) (i : Instance) (root : Path) :
    (p.resolve i root).IsCalm := by
  rw [resolve]
  refine (Traced.IsCalm.tell rfl).bind fun _ => (Defaulted.isCalm_checkTold _).bind fun x => ?_
  refine (Traced.IsCalm.quiet _).bind fun y => ?_
  exact (Traced.IsCalm.tell rfl).bind fun _ => .quiet _

theorem PropertyFile.isCalm_ofReading (path : Path) (read : Except Refusal (List UInt8)) :
    (PropertyFile.ofReading path read).IsCalm := by
  rw [ofReading]
  split
  next => exact .quiet _
  next format _ =>
    split
    next => exact .quiet _
    next octets =>
      rw [ofOctets]
      split
      next => exact .quiet _
      next s _ =>
        split
        next => exact .quiet _
        next f _ => exact Traced.IsCalm.tell (e := Event.loaded path format) rfl

theorem Outcome.isCalm_ofReading (path : Path) (read : Except Refusal (List UInt8))
    (instanceId : Option String) (root : Path) :
    (Outcome.ofReading path read instanceId root).IsCalm :=
  (PropertyFile.isCalm_ofReading path read).bind fun f => f.properties.isCalm_resolve _ root

/-- What is told for those who look for faults is no warning. -/
theorem filter_warn_eq_nil {events : List Event} (h : ∀ e ∈ events, e.level = .debug) :
    events.filter (·.level = .warn) = [] := by
  rw [List.filter_eq_nil_iff]
  intro e he
  rw [h e he]
  decide

/-- Behind the events of loading, exactly what is reported is warned of. -/
theorem warnings_logs {events : List Event} (h : ∀ e ∈ events, e.level = .debug) (target : String)
    (r : Report) : (Transcript.logs (events ++ r.warnings.map (Event.warned target))).filterMap
      Notice.warning? = r.warnings.map (Event.warned target) := by
  have hall : (r.warnings.map (Event.warned target)).filter (·.level = .warn) =
      r.warnings.map (Event.warned target) := by
    rw [List.filter_eq_self]
    intro e he
    obtain ⟨w, -, rfl⟩ := List.mem_map.1 he
    rfl
  rw [filterMap_warning?_logs, List.filter_append, filter_warn_eq_nil h, hall, List.nil_append]

/-- A complaint is no warning. -/
theorem filterMap_warning?_logs_concat (events : List Event) (s : String) :
    (Transcript.logs events ++ [Notice.text s]).filterMap Notice.warning? =
      events.filter (·.level = .warn) := by
  rw [List.filterMap_append, filterMap_warning?_logs]
  exact List.append_nil _

/-- A command that fails warns of nothing behind the events of loading. -/
theorem warnings_failed {events : List Event} (h : ∀ e ∈ events, e.level = .debug) (p : Problem) :
    (Transcript.failed events p).warnings = [] := by
  rw [Transcript.warnings, Transcript.failed, filterMap_warning?_logs_concat, List.filter_append,
    filter_warn_eq_nil h]
  rfl

/-! ### Both commands -/

namespace Command

/-- **What checking and rendering agree in**, of what has been loaded. -/
structure Concur (loaded : Traced Outcome) (checked rendered : Transcript) : Prop where
  /-- Both succeed, or neither does. -/
  exit : checked.exit = 0 ↔ rendered.exit = 0
  /-- What can be loaded succeeds. -/
  loads : checked.exit = 0 ↔ ∃ o, loaded.result = .ok o
  /-- What is reported is warned of by both, in order. -/
  reported : ∀ o, loaded.result = .ok o →
    checked.warnings = o.report.warnings.map (Event.warned checkTarget) ∧
      rendered.warnings = o.report.warnings.map (Event.warned renderTarget)
  /-- The logs say the same of both. -/
  entries : checked.warnings.map Event.entries = rendered.warnings.map Event.entries
  /-- When they fail, they print nothing. -/
  fails : checked.exit ≠ 0 →
    checked.exit = 1 ∧ rendered.exit = 1 ∧ checked.output = "" ∧ rendered.output = ""

section

variable (path : Path) (instanceId : Option String) (root : Path) (form : Config.Form)
  (plain : Bool) (t : FileTree)

theorem checkFile_run : (checkFile path instanceId plain : StateM FileTree _) t =
    (checkTranscript plain
      (Outcome.ofReading path (t.read path) instanceId Material.defaultRoot), t) := by
  rw [checkFile, bind_run, Outcome.load_run]
  rfl

/-- What is said when a document is printed. -/
def printTranscript (form : Config.Form) (t : Traced Outcome) : Transcript :=
  match t.result with
  | .error failure => Transcript.failed t.events failure.problem
  | .ok o => printed (t.events ++ o.report.warnings.map (Event.warned renderTarget))
      (o.config.text form)

theorem renderFile_run : (renderFile path instanceId root form false : StateM FileTree _) t =
    (printTranscript form (Outcome.ofReading path (t.read path) instanceId root), t) := by
  rw [renderFile, bind_run, Outcome.load_run, printTranscript]
  cases (Outcome.ofReading path (t.read path) instanceId root).result <;> rfl

end

/-- Two loadings that are alike are told of alike, if there is a document to print. -/
theorem concur_of_alike {r s : Path} {loaded loaded' : Traced Outcome}
    (h : Traced.Alike (Outcome.Moved r s) loaded loaded') (hcalm : loaded'.IsCalm)
    {form : Config.Form} (htext : ∀ o, loaded'.result = .ok o → ∃ s, o.config.text form = .ok s)
    (plain : Bool) :
    Concur loaded' (checkTranscript plain loaded) (printTranscript form loaded') := by
  obtain ⟨events, result⟩ := loaded
  obtain ⟨events', result'⟩ := loaded'
  obtain ⟨hevents, hresult⟩ := h
  obtain rfl : events = events' := hevents
  cases hresult with
  | error e =>
      have hchecked : (checkTranscript plain ⟨events, .error e⟩).warnings = [] :=
        (filterMap_warning?_logs_concat events _).trans (filter_warn_eq_nil hcalm)
      have hrendered : (printTranscript form ⟨events, .error e⟩).warnings = [] :=
        warnings_failed hcalm e.problem
      exact
        { exit := ⟨by rintro ⟨⟩, by rintro ⟨⟩⟩
          loads := ⟨by rintro ⟨⟩, by rintro ⟨_, ⟨⟩⟩⟩
          reported := by rintro _ ⟨⟩
          entries := by rw [hchecked, hrendered]
          fails := fun _ => ⟨rfl, rfl, rfl, rfl⟩ }
  | @ok o o' hmoved =>
      obtain ⟨s, hs⟩ := htext o' rfl
      have hchecked : (checkTranscript plain ⟨events, .ok o⟩).warnings =
          o'.report.warnings.map (Event.warned checkTarget) := by
        rw [← hmoved.report]
        exact warnings_logs hcalm checkTarget o.report
      have hprinted : printTranscript form ⟨events, .ok o'⟩ =
          ⟨0, Text.trimEnd s ++ "\n", Transcript.logs (events ++
            o'.report.warnings.map (Event.warned renderTarget))⟩ := by
        rw [printTranscript]
        simp only [hs, printed]
      have hrendered : (printTranscript form ⟨events, .ok o'⟩).warnings =
          o'.report.warnings.map (Event.warned renderTarget) := by
        rw [hprinted]
        exact warnings_logs hcalm renderTarget o'.report
      exact
        { exit := ⟨fun _ => by rw [hprinted], fun _ => rfl⟩
          loads := ⟨fun _ => ⟨o', rfl⟩, fun _ => rfl⟩
          reported := by rintro _ ⟨⟩; exact ⟨hchecked, hrendered⟩
          entries := by
            rw [hchecked, hrendered, List.map_map, List.map_map]
            rfl
          fails := fun h => absurd rfl h }

/-- **Checking and rendering agree.**  What is loaded for two roots is the same up to its paths, and
checking, which places it below the usual root, succeeds, fails and warns as rendering does below
any root that is a text. -/
theorem check_concurs_render (path : Path) (instanceId : Option String) (t : FileTree) :
    (∀ r s, Traced.Alike (Outcome.Moved r s)
      ((Outcome.load path instanceId r : StateM FileTree _) t).1
      ((Outcome.load path instanceId s : StateM FileTree _) t).1) ∧
    ∀ plain form root, root.IsText → ∃ checked rendered,
      (run (.check path instanceId plain) : StateM FileTree _) t = (checked, t) ∧
      (run (.render path instanceId root form false) : StateM FileTree _) t = (rendered, t) ∧
      Concur ((Outcome.load path instanceId root : StateM FileTree _) t).1 checked rendered := by
  refine ⟨fun r s => Outcome.moved_load path instanceId r s t, fun plain form root hroot => ?_⟩
  refine ⟨_, _, checkFile_run path instanceId plain t,
    renderFile_run path instanceId root form t, ?_⟩
  rw [Outcome.load_run]
  refine concur_of_alike (Outcome.moved_ofReading path _ instanceId _ root)
    (Outcome.isCalm_ofReading path _ instanceId root) (fun o ho => ?_) plain
  obtain ⟨f, -, hresolve⟩ := Outcome.exists_resolve_of_ofReading ho
  exact ⟨_, Config.text_eq_ok (Properties.isText_of_resolve hresolve hroot) form⟩

theorem check_concurs_render_bare : (Path.ofString "out").IsText ∧ ∃ checked rendered,
    (run (.check Bare.path none true) : StateM FileTree _) Bare.tree = (checked, Bare.tree) ∧
      checked.exit = 0 ∧
      (run (.render Bare.path none (.ofString "out") .json false) : StateM FileTree _)
        Bare.tree = (rendered, Bare.tree) ∧
      Concur ((Outcome.load Bare.path none (.ofString "out") : StateM FileTree _) Bare.tree).1
        checked rendered := by
  have hexit : ((run (.check Bare.path none true) : StateM FileTree Transcript)
      Bare.tree).1.exit = 0 := by decide +kernel
  obtain ⟨checked, rendered, hchecked, hrendered, hconcur⟩ :=
    (check_concurs_render Bare.path none Bare.tree).2 true .json (.ofString "out") ⟨"out", rfl⟩
  rw [hchecked] at hexit
  exact ⟨⟨"out", rfl⟩, checked, rendered, hchecked, hexit, hrendered, hconcur⟩

end Command

end CaptureConfig

/-
**What a run tells about itself.**

While properties are resolved the steps tell what they do.  Such a record is of use only if it can
be trusted: someone who has nothing but the events must be able to say how the run went and what
came of it.  Here an event is what it says, its message with its fields, and the record of a run is
read from the outside.  It takes one of three courses: a rule is broken, the identifier is refused,
or there is a document.

Main definitions:

* `Saying`, `Event.saying` — what an event says;
* `Course`, `Course.Reads` — the courses, and how their records read;
* `Course.IsTaken` — when a run takes a course;
* `Properties.IsToldTruly` — a record that is true.

Main results:

* `Course.eq_of_reads` — a record reads as one course at most;
* `Properties.isToldTruly_of_isAscending` — **the record of a run is true**.
-/

import CaptureConfig.Proofs.Fidelity
import CaptureConfig.Proofs.Findings
import CaptureConfig.Proofs.Plan
import Mathlib.Data.List.Forall2

set_option relaxedAutoImplicit false
set_option autoImplicit false

namespace CaptureConfig

/-- A message with its fields. -/
structure Saying where
  message : String
  fields : List (String × Event.Field)
  deriving DecidableEq, Repr

/-- What an event says. -/
def Event.saying (e : Event) : Saying := ⟨e.message, e.fields⟩

namespace Saying

/-- Defaults have been applied, with this level, port and restriction. -/
def defaults (level : String) (port : UInt16) (restricted : Bool) : Saying where
  message := "applied property defaults"
  fields := [("log_level", .text level), ("port", .number port.toNat),
    ("enable_ip_restriction", .flag restricted)]

/-- A rule is broken, with the kind and the wording of the failure. -/
def broken (kind error : String) : Saying where
  message := "property validation failed"
  fields := [("kind", .text kind), ("error", .text error)]

/-- This key is passed over. -/
def ignored (key : String) : Saying where
  message := "ignoring unknown property"
  fields := [("property", .text key)]

/-- There is a document, with this identifier, with or without an encrypted listener, and with so
many files and warnings. -/
def summary (id : String) (tls : Bool) (files warnings : Nat) : Saying where
  message := "resolved pcap-api configuration"
  fields := [("id", .text id), ("tls", .flag tls), ("material_files", .number files),
    ("warnings", .number warnings)]

/-- Some key is passed over. -/
def isIgnored (s : Saying) : Bool := s.message == "ignoring unknown property"

/-- A key is passed over, and the finding is about that key. -/
def IsAbout (s : Saying) (f : Finding) : Prop := ∃ key, s = ignored key ∧ f = .unknownProperty key

/-- A key is passed over, and the warning tells of that key. -/
def Echoes (s : Saying) (w : Warning) : Prop := ∃ key, s = ignored key ∧ w = .unknownProperty key

end Saying

/-- The finding is about a key that nobody knows. -/
def Finding.isOfUnknown : Finding → Bool
  | .unknownProperty _ => true
  | _ => false

/-! ### Courses -/

/-- How a run can go. -/
inductive Course where
  | broken
  | refused
  | resolved
  deriving DecidableEq, Repr

namespace Course

/-- **How the record of a course reads**, if these are the keys that nobody knows. -/
inductive Reads (keys : List String) : Course → List Saying → Prop
  | broken (level : String) (port : UInt16) (restricted : Bool) (kind error : String) :
      Reads keys .broken [.defaults level port restricted, .broken kind error]
  | refused (level : String) (port : UInt16) (restricted : Bool) :
      Reads keys .refused (.defaults level port restricted :: keys.map .ignored)
  | resolved (level : String) (port : UInt16) (restricted : Bool) (id : String) (tls : Bool)
      (files warnings : Nat) :
      Reads keys .resolved (.defaults level port restricted :: keys.map .ignored ++
        [.summary id tls files warnings])

/-- **When a run takes a course.** -/
inductive IsTaken (p : Properties) (i : Instance) (root : Path) : Course → Prop
  | broken {e : Failure} (rules : p.withDefaults.check.result = .error e) :
      IsTaken p i root .broken
  | refused {kept : Checked × Report} {f : Identifier.Fault}
      (rules : p.withDefaults.check.result = .ok kept)
      (identifier : Identifier.Refused (i.id <|> p.id) f) : IsTaken p i root .refused
  | resolved {o : Outcome} (resolved : (p.resolve i root).result = .ok o) :
      IsTaken p i root .resolved

/-- The messages behind the first one, for so many keys that nobody knows. -/
def messages (keys : Nat) : Course → List String
  | .broken => ["property validation failed"]
  | .refused => List.replicate keys "ignoring unknown property"
  | .resolved => List.replicate keys "ignoring unknown property" ++
      ["resolved pcap-api configuration"]

theorem messages_of_reads {keys : List String} {c : Course} {record : List Saying}
    (h : c.Reads keys record) : record.tail.map Saying.message = c.messages keys.length := by
  have hkeys : (keys.map Saying.ignored).map Saying.message =
      List.replicate keys.length "ignoring unknown property" := by
    rw [List.map_map]
    exact List.map_const' ..
  cases h with
  | broken => rfl
  | refused => exact hkeys
  | resolved =>
      rw [List.cons_append, List.tail_cons, List.map_append, hkeys]
      rfl

/-- The last message tells the courses apart. -/
theorem messages_injective {keys : Nat} {c d : Course} (h : c.messages keys = d.messages keys) :
    c = d := by
  replace h := congrArg List.getLast? h
  cases c <;> cases d <;> simp [messages, List.getLast?_replicate] at h ⊢

/-- **A record reads as one course at most.** -/
theorem eq_of_reads {keys : List String} {c d : Course} {record : List Saying}
    (hc : c.Reads keys record) (hd : d.Reads keys record) : c = d :=
  messages_injective ((messages_of_reads hc).symm.trans (messages_of_reads hd))

end Course

/-! ### Keys that nobody knows in a report -/

namespace Defaulted

variable {d : Defaulted}

theorem filter_eq_nil_of_isSaid {f : Finding} {q : Prop} {findings : List Finding}
    (h : IsSaid f q findings) (hf : f.isOfUnknown = false) :
    findings.filter Finding.isOfUnknown = [] := by
  cases h with
  | yes _ => rw [List.filter_cons_of_neg (by simp [hf]), List.filter_nil]
  | no _ => rfl

theorem filter_ofEntries (entries : List String) :
    (Finding.ofEntries entries).filter Finding.isOfUnknown = [] := by
  rw [List.filter_eq_nil_iff]
  intro f hf
  obtain ⟨⟨entry, index⟩, -, hf⟩ := List.mem_filterMap.1 hf
  cases Finding.concerns_of_eq_some hf <;> exact Bool.false_ne_true

theorem filter_of_allowlist {list : Option (List String)} {findings : List Finding}
    (h : d.allowlist = .ok (list, findings)) : findings.filter Finding.isOfUnknown = [] := by
  have hlist := allowlist_eq_ok_iff.1 h
  split at hlist
  next =>
    rw [hlist.2.2]
    exact filter_ofEntries _
  next =>
    rw [hlist.2]
    split <;> rfl

/-- **Of all findings those about unknown keys are the last ones**, one for each key. -/
theorem filter_findings_of_judge {c : Checked} {r : Report} (h : d.judge = .ok (c, r)) :
    r.findings.filter Finding.isOfUnknown = d.unknownKeys.map .unknownProperty := by
  obtain ⟨list, listFindings, tls, bosh, boshFindings, hlist, -, -, hbosh, -, -, rfl⟩ :=
    judge_eq_ok_iff.1 h
  have hkeys : (d.unknownKeys.map Finding.unknownProperty).filter Finding.isOfUnknown =
      d.unknownKeys.map .unknownProperty := by
    rw [List.filter_map, List.filter_eq_self.2]
    exact fun _ _ => rfl
  rw [List.filter_append, List.filter_append, List.filter_append, filter_of_allowlist hlist,
    filter_eq_nil_of_isSaid (isSaid_director hbosh) rfl,
    filter_eq_nil_of_isSaid d.isSaid_level rfl, hkeys]
  rfl

/-- The warnings about unknown keys tell of each of them. -/
theorem filter_warnings_of_judge {c : Checked} {r : Report} (h : d.judge = .ok (c, r)) :
    r.warnings.filter (Warning.begins "unknown property '") =
      d.unknownKeys.map .unknownProperty := by
  have hkind : (fun f : Finding => decide (f.front = "unknown property '")) =
      Finding.isOfUnknown := by
    funext f
    cases f <;> rfl
  have hfilter := r.filter_begins_warnings (.unknownProperty "")
  rw [Finding.front, hkind, filter_findings_of_judge h, List.map_map] at hfilter
  exact hfilter

end Defaulted

/-! ### The record of a run -/

namespace Traced

variable {α β : Type}

theorem events_tell_bind (e : Event) (f : Unit → Traced β) :
    (tell e >>= f).events = e :: (f ()).events := rfl

/-- In a sequence of steps the second one speaks if the first one succeeds. -/
theorem events_bind_of_ok {t : Traced α} {a : α} (h : t.result = .ok a) (f : α → Traced β) :
    (t >>= f).events = t.events ++ (f a).events :=
  events_bind_ok h f

theorem events_bind_of_error {t : Traced α} {e : Failure} (h : t.result = .error e)
    (f : α → Traced β) : (t >>= f).events = t.events :=
  events_bind_error h f

end Traced

namespace Defaulted

variable {d : Defaulted}

theorem events_checkTold_of_error {e : Failure} (h : d.judge = .error e) :
    d.checkTold.events = [.ruleBroken e] := by
  simp only [checkTold, check, h, List.nil_append]

theorem events_checkTold_of_ok {kept : Checked × Report} (h : d.judge = .ok kept) :
    d.checkTold.events = d.unknownKeys.map .unknownProperty := by
  simp only [checkTold, check, h]

/-- What is said first. -/
def saying (d : Defaulted) : Saying := .defaults d.logLevel d.port d.enableIpRestriction

end Defaulted

namespace Outcome

/-- What is said last about an outcome. -/
def saying (o : Outcome) : Saying :=
  .summary o.config.id o.config.tls.isSome o.materials.files.length o.report.findings.length

end Outcome

namespace Properties

/-- What a run says, in order. -/
def record (p : Properties) (i : Instance) (root : Path) : List Saying :=
  (p.resolve i root).events.map Event.saying

variable {p : Properties} {i : Instance} {root : Path}

theorem record_of_broken {e : Failure} (h : p.withDefaults.judge = .error e) :
    p.record i root = [p.withDefaults.saying, .broken e.kind.name e.message] := by
  have hresult : p.withDefaults.checkTold.result = .error e := by
    rw [Defaulted.result_checkTold, h]
  rw [record, resolve, Traced.events_tell_bind, Traced.events_bind_of_error hresult,
    Defaulted.events_checkTold_of_error h]
  rfl

theorem record_of_refused {kept : Checked × Report} {e : Failure}
    (h : p.withDefaults.judge = .ok kept) (hid : kept.1.identifier i = .error e) :
    p.record i root = p.withDefaults.saying :: p.withDefaults.unknownKeys.map .ignored := by
  have hresult : p.withDefaults.checkTold.result = .ok kept := by
    rw [Defaulted.result_checkTold, h]
  have hplace : (Traced.quiet (kept.1.place i root)).result = .error e := by
    rw [Traced.result_quiet, Checked.place, hid]
    rfl
  rw [record, resolve, Traced.events_tell_bind, Traced.events_bind_of_ok hresult,
    Defaulted.events_checkTold_of_ok h, Traced.events_bind_of_error hplace, Traced.quiet,
    List.append_nil, List.map_cons, List.map_map]
  rfl

theorem record_of_resolved {o : Outcome} (h : (p.resolve i root).result = .ok o) :
    p.record i root =
      p.withDefaults.saying :: p.withDefaults.unknownKeys.map .ignored ++ [o.saying] := by
  obtain ⟨c, id, hj, hid, hc, hm⟩ := resolve_eq_ok_iff.1 h
  have hresult : p.withDefaults.checkTold.result = .ok (c, o.report) := by
    rw [Defaulted.result_checkTold, hj]
  have hplace : (Traced.quiet (c.place i root)).result = .ok (o.config, o.materials) :=
    Checked.place_eq_ok_iff.2 ⟨id, hid, hc, hm⟩
  rw [record, resolve, Traced.events_tell_bind, Traced.events_bind_of_ok hresult,
    Defaulted.events_checkTold_of_ok hj, Traced.events_bind_of_ok hplace, Traced.quiet,
    List.nil_append, List.map_cons, List.map_append, List.map_map]
  rfl

theorem identifier_eq_error_iff {kept : Checked × Report} {e : Failure}
    (h : p.withDefaults.judge = .ok kept) : kept.1.identifier i = .error e ↔
      ∃ f, Identifier.Refused (i.id <|> p.id) f ∧ .invalidIdentifier f = e := by
  rw [← failureOf_eq_some_iff, Checked.failureOf_identifier, Defaulted.id_of_judge h,
    Option.map_eq_some_iff]
  simp only [failureOf_eq_some_iff, Identifier.ofText_eq_error_iff]
  rfl

theorem resolve_of_judge {kept : Checked × Report} {id : String}
    (h : p.withDefaults.judge = .ok kept) (hid : kept.1.identifier i = .ok id) :
    (p.resolve i root).result = .ok ⟨kept.1.config id root, kept.1.plan root, kept.2⟩ :=
  resolve_eq_ok_iff.2 ⟨kept.1, id, h, hid, rfl, rfl⟩

/-- **Every run takes a course.** -/
theorem exists_isTaken (p : Properties) (i : Instance) (root : Path) :
    ∃ c : Course, c.IsTaken p i root := by
  cases hj : p.withDefaults.judge with
  | error e => exact ⟨.broken, .broken ((Defaulted.result_check _).trans hj)⟩
  | ok kept =>
      cases hid : kept.1.identifier i with
      | error e =>
          obtain ⟨f, refused, -⟩ := (identifier_eq_error_iff hj).1 hid
          exact ⟨.refused, .refused ((Defaulted.result_check _).trans hj) refused⟩
      | ok id => exact ⟨.resolved, .resolved (resolve_of_judge hj hid)⟩

/-- **The record reads as the course that the run takes.** -/
theorem reads_of_isTaken {c : Course} (h : c.IsTaken p i root) :
    c.Reads p.withDefaults.unknownKeys (p.record i root) := by
  cases h with
  | broken rules =>
      rw [Defaulted.result_check] at rules
      rw [record_of_broken rules]
      exact .broken ..
  | refused rules identifier =>
      rw [Defaulted.result_check] at rules
      rw [record_of_refused rules ((identifier_eq_error_iff rules).2 ⟨_, identifier, rfl⟩)]
      exact .refused ..
  | resolved resolved =>
      rw [record_of_resolved resolved]
      exact .resolved ..

/-- As a record reads as one course at most, a run has taken the course that its record reads as. -/
theorem reads_iff_isTaken (c : Course) :
    c.Reads p.withDefaults.unknownKeys (p.record i root) ↔ c.IsTaken p i root := by
  refine ⟨fun h => ?_, reads_of_isTaken⟩
  obtain ⟨d, hd⟩ := p.exists_isTaken i root
  rwa [Course.eq_of_reads h (reads_of_isTaken hd)]

/-- What is said of keys that are passed over. -/
theorem filter_record {kept : Checked × Report} (h : p.withDefaults.judge = .ok kept) :
    (p.record i root).filter Saying.isIgnored = p.withDefaults.unknownKeys.map .ignored := by
  have hkeys : (p.withDefaults.unknownKeys.map Saying.ignored).filter Saying.isIgnored =
      p.withDefaults.unknownKeys.map .ignored := by
    rw [List.filter_map, List.filter_eq_self.2]
    exact fun _ _ => rfl
  have hfirst : ¬ p.withDefaults.saying.isIgnored = true := Bool.false_ne_true
  cases hid : kept.1.identifier i with
  | error e =>
      rw [record_of_refused h hid, List.filter_cons_of_neg hfirst, hkeys]
  | ok id =>
      rw [record_of_resolved (resolve_of_judge h hid), List.cons_append,
        List.filter_cons_of_neg hfirst, List.filter_append, hkeys]
      exact List.append_nil _

/-- **A record that is true**, if these are the keys that nobody knows. -/
structure IsToldTruly (p : Properties) (i : Instance) (root : Path) (keys : List String) :
    Prop where
  /-- It reads as exactly one course. -/
  course : ∃! c : Course, c.Reads keys (p.record i root)
  /-- That is the course which the run took. -/
  taken : ∀ c : Course, c.Reads keys (p.record i root) ↔ c.IsTaken p i root
  /-- A broken rule is complained about in the words of the failure that is returned. -/
  complaint : ∀ e, p.withDefaults.check.result = .error e →
    (p.resolve i root).result = .error e ∧
      (p.record i root).getLast? = some (.broken e.kind.name e.message)
  /-- An identifier that is refused is the only other failure. -/
  refusal : ∀ kept f, p.withDefaults.check.result = .ok kept →
    Identifier.Refused (i.id <|> p.id) f →
      (p.resolve i root).result = .error (.invalidIdentifier f)
  /-- The keys that are passed over are those of the report, one for one and in order. -/
  matched : ∀ c r, p.withDefaults.check.result = .ok (c, r) →
    List.Forall₂ Saying.IsAbout ((p.record i root).filter Saying.isIgnored)
      (r.findings.filter Finding.isOfUnknown)
  /-- And they are those that the warnings of the report tell of, one for one and in order. -/
  told : ∀ c r, p.withDefaults.check.result = .ok (c, r) →
    List.Forall₂ Saying.Echoes ((p.record i root).filter Saying.isIgnored)
      (r.warnings.filter (Warning.begins "unknown property '"))
  /-- An outcome comes with that report. -/
  report : ∀ o, (p.resolve i root).result = .ok o →
    ∃ c, p.withDefaults.check.result = .ok (c, o.report)
  /-- What is said first is what the document says. -/
  first : ∀ o, (p.resolve i root).result = .ok o → (p.record i root).head? =
    some (.defaults o.config.logLevel o.config.port o.config.enableIpRestriction)
  /-- What is said last is what the document and the report say. -/
  last : ∀ o, (p.resolve i root).result = .ok o → (p.record i root).getLast? =
    some (.summary o.config.id o.config.tls.isSome o.config.paths.length o.report.warnings.length)

/-- Two lists made of the same keys match one for one. -/
theorem forall₂_map_keys {α : Type} {P : Saying → α → Prop} {f : String → α}
    (h : ∀ key, P (.ignored key) (f key)) (keys : List String) :
    List.Forall₂ P (keys.map .ignored) (keys.map f) := by
  rw [List.forall₂_map_left_iff, List.forall₂_map_right_iff, List.forall₂_same]
  exact fun key _ => h key

/-- What defaulting says of an outcome. -/
theorem saying_withDefaults {o : Outcome} (h : (p.resolve i root).result = .ok o) :
    p.withDefaults.saying =
      .defaults o.config.logLevel o.config.port o.config.enableIpRestriction := by
  obtain ⟨c, id, hj, -, hc, -⟩ := resolve_eq_ok_iff.1 h
  obtain ⟨list, _, tls, bosh, _, hlist, -, -, -, -, rfl, -⟩ := Defaulted.judge_eq_ok_iff.1 hj
  have hrestricted : list.isSome = p.withDefaults.enableIpRestriction := by
    rw [Bool.eq_iff_iff, isSome_allowlist_iff hlist, enableIpRestriction_withDefaults]
  rw [hc, Defaulted.saying, ← hrestricted]
  rfl

/-- There are as many files as the document names. -/
theorem saying_outcome {o : Outcome} (h : (p.resolve i root).result = .ok o) : o.saying =
    .summary o.config.id o.config.tls.isSome o.config.paths.length o.report.warnings.length := by
  obtain ⟨c, id, -, -, hc, hm⟩ := resolve_eq_ok_iff.1 h
  have hpaths : o.config.paths = o.materials.files.map Material.File.path := by
    rw [hc, hm, ← c.paths_plan]
    rfl
  rw [Outcome.saying, hpaths, Report.warnings, List.length_map, List.length_map]

/-- **The record of a run is true**, whatever the properties, the instance and the root. -/
theorem isToldTruly_of_isAscending (h : IsAscending p.extra) :
    ∃ keys, p.withDefaults.AreUnknown keys ∧ p.IsToldTruly i root keys := by
  refine ⟨p.withDefaults.unknownKeys, Defaulted.areUnknown_unknownKeys h, ?_⟩
  obtain ⟨c, hc⟩ := p.exists_isTaken i root
  exact
    { course := ⟨c, reads_of_isTaken hc, fun d hd => Course.eq_of_reads hd (reads_of_isTaken hc)⟩
      taken := reads_iff_isTaken
      complaint := fun e rules => by
        rw [Defaulted.result_check] at rules
        rw [result_resolve, rules, record_of_broken rules]
        exact ⟨rfl, rfl⟩
      refusal := fun kept f rules refused => by
        rw [Defaulted.result_check] at rules
        rw [← failureOf_eq_some_iff, failureOf_resolve, rules,
          Identifier.ofText_eq_error_iff.2 refused]
        rfl
      matched := fun c r rules => by
        rw [Defaulted.result_check] at rules
        rw [filter_record rules, Defaulted.filter_findings_of_judge rules]
        exact forall₂_map_keys (fun key => ⟨key, rfl, rfl⟩) _
      told := fun c r rules => by
        rw [Defaulted.result_check] at rules
        rw [filter_record rules, Defaulted.filter_warnings_of_judge rules]
        exact forall₂_map_keys (fun key => ⟨key, rfl, rfl⟩) _
      report := fun o resolved => by
        obtain ⟨c, -, hj, -⟩ := resolve_eq_ok_iff.1 resolved
        exact ⟨c, (Defaulted.result_check _).trans hj⟩
      first := fun o resolved => by
        rw [record_of_resolved resolved, saying_withDefaults resolved]
        rfl
      last := fun o resolved => by
        rw [record_of_resolved resolved, List.getLast?_append, saying_outcome resolved]
        rfl }

/-- Properties with every block in force, a level that the logger does not know, and two keys that
nobody knows. -/
def strange : Properties :=
  { everything with
    logLevel := some "loud"
    extra := [("cidr_allowlist[7]", .null), ("ähnlich", .null)] }

/-- The hypothesis is satisfiable with something to say between the first event and the last. -/
theorem isToldTruly_strange : IsAscending strange.extra ∧
    strange.record .blankEnded (.ofString "r/") =
      [.defaults "loud" 8080 true, .ignored "cidr_allowlist[7]", .ignored "ähnlich",
        .summary "pcap-api/f9281cda-1234-bbcd-ef12-1337cafe0048" true 4 3] ∧
    ∃ keys, strange.withDefaults.AreUnknown keys ∧
      strange.IsToldTruly .blankEnded (.ofString "r/") keys := by
  have ascending : IsAscending strange.extra := by
    rw [IsAscending]
    decide +kernel
  exact ⟨ascending, rfl, isToldTruly_of_isAscending ascending⟩

end Properties

end CaptureConfig

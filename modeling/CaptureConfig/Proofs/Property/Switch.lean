/-
**What a switch accepts.**

Three switches restrict the addresses, turn the encrypted listener off and skip the look at
certificates.  Each may be missing or null, may be a truth value, and may be a text that spells one;
anything else is refused.  So it is in strict and in block notation, although they tell their scalars
apart in different ways: in block notation a null counts only where it is written plainly, and one that
is written in quotes with a tag is refused.

Main definitions:

* `Switch` — the switches, and where each of them stands;
* `Switch.Datum` — what a notation hands over at a switch;
* `Switch.Verdict` — **what becomes of it**;
* `Switch.Stands` — a text is a property file with a datum at a switch.

Main results:

* `Switch.verdict_json`, `Switch.verdict_yaml` — what the reader of switches makes of a datum;
* `Switch.verdict_of_stands` — **a switch accepts exactly its language**, and a spelling means the same
  as the truth value.
-/

import CaptureConfig.Proofs.Property.Place
import CaptureConfig.Proofs.Property.Concord

set_option relaxedAutoImplicit false
set_option autoImplicit false

namespace CaptureConfig

/-- The switches of a property file. -/
inductive Switch where
  | enableIpRestriction
  | enabled
  | skipVerify
  deriving DecidableEq, Repr

namespace Switch

open Properties

/-! ### Where they stand -/

/-- The fields around the record of a switch. -/
def path : Switch → List (List String × String)
  | enableIpRestriction => [(PropertyFile.names, "pcap-api")]
  | enabled =>
      [(PropertyFile.names, "pcap-api"), (Properties.names, "listen"), (Listen.names, "tls")]
  | skipVerify =>
      [(PropertyFile.names, "pcap-api"), (Properties.names, "bosh"), (Bosh.names, "mtls")]

/-- The keys of the record of a switch. -/
def names : Switch → List String
  | enableIpRestriction => Properties.names
  | enabled => Tls.names
  | skipVerify => Mtls.names

/-- The key of a switch. -/
def name : Switch → String
  | enableIpRestriction => "enable_ip_restriction"
  | enabled => "enabled"
  | skipVerify => "skip_verify"

/-- A switch as a part of a property file. -/
def part : Switch → Part PropertyFile (Option Bool)
  | enableIpRestriction => PropertyFile.propertiesPart.comp enableIpRestrictionPart
  | enabled => (PropertyFile.propertiesPart.comp (listenPart.comp Listen.tlsPart.ofSome)).comp
      Tls.enabledPart.ofSome
  | skipVerify => (PropertyFile.propertiesPart.comp (boshPart.comp Bosh.mtlsPart.ofSome)).comp
      Mtls.skipVerifyPart.ofSome

section

variable {σ : Type} [Scalar σ]

open Reader

/-- **A property file with a datum at a switch, or without one**: the reader of switches says what the
switch becomes, and everything else is as it was. -/
theorem read_put (sw : Switch) {outer : List (Frame σ)} {f : Frame σ} {d : Tree σ}
    {file : PropertyFile} (houter : Frame.AreAlong sw.path outer) (hf : f.IsOf sw.names sw.name)
    (hd : Reading.file.read (Frame.fillAll outer (f.fill d)) = .ok file) :
    ∃ g v, sw.part.IsMadeBy g ∧ file = g v ∧ ∀ t?, (t? = none → f.isKeyed = true) →
      Reading.file.read (Frame.fillAll outer (f.put t?)) =
        (Layout.readField sw.name flag t?).map g := by
  cases sw with
  | enableIpRestriction =>
      have hpath : Reading.file.Reaches _ _ PropertyFile.propertiesPart.IsMadeBy :=
        (PropertyFile.opens_properties (σ := σ)).reaches_last
      exact hpath.put opens_enableIpRestriction houter hf hd
  | enabled =>
      have hpath := (PropertyFile.opens_properties (σ := σ)).reaches_comp
        (opens_listen.reaches_comp Listen.opens_tls.ofSome.reaches_last)
      exact hpath.put Tls.opens_enabled.ofSome houter hf hd
  | skipVerify =>
      have hpath := (PropertyFile.opens_properties (σ := σ)).reaches_comp
        (opens_bosh.reaches_comp Bosh.opens_mtls.ofSome.reaches_last)
      exact hpath.put Mtls.opens_skipVerify.ofSome houter hf hd

end

/-! ### What is handed over -/

/-- **What a notation hands over at a switch**: nothing at all, null, a truth value, a text, or
anything else. -/
inductive Datum where
  | missing
  | null
  | truth (b : Bool)
  | text (s : String)
  | other
  deriving DecidableEq, Repr

/-- What a value is at a switch. -/
def ofValue : Value → Datum
  | .null => .null
  | .bool b => .truth b
  | .text s => .text s
  | _ => .other

/-- What strict notation hands over. -/
def ofJson : Option (Tree Json.Atom) → Datum
  | none => .missing
  | some (.scalar a) => ofValue a.value
  | some _ => .other

/-- What block notation hands over.  A scalar of an application's own type is none of its kinds, and a
null counts only where it is written plainly. -/
def ofYaml : Option (Tree Yaml.Atom) → Datum
  | none => .missing
  | some (.scalar a) =>
      match Scalar.value a with
      | .ok .null => if a.written == .plainly then .null else .other
      | .ok v => ofValue v
      | .error _ => .other
  | some _ => .other

/-- A text spells a truth value, whatever its letters' case and the blanks around it. -/
def Spells (s : String) (b : Bool) : Prop :=
  Text.lowerAscii (Text.trim s) = if b then "true" else "false"

instance (s : String) (b : Bool) : Decidable (Spells s b) := inferInstanceAs (Decidable (_ = _))

theorem Spells.unique {s : String} {b b' : Bool} (h : Spells s b) (h' : Spells s b') : b = b' := by
  have heq : (if b then "true" else "false") = if b' then "true" else "false" := h.symm.trans h'
  cases b <;> cases b' <;> first | rfl | exact absurd heq (by decide)

/-- **What becomes of a datum at a switch.** -/
inductive Verdict : Datum → Except Fault (Option Bool) → Prop
  | missing : Verdict .missing (.ok none)
  | null : Verdict .null (.ok none)
  | truth (b : Bool) : Verdict (.truth b) (.ok (some b))
  | spelled {s : String} {b : Bool} (h : Spells s b) : Verdict (.text s) (.ok (some b))
  /-- The complaint has the text as it was compared, and quotes it. -/
  | unspelled {s : String} {fault : Fault} (h : ∀ b, ¬ Spells s b)
      (complaint : fault = .complaint (.notTruth (Text.lowerAscii (Text.trim s))))
      (wording : fault.message =
        "expected a boolean, found '" ++ Text.lowerAscii (Text.trim s) ++ "'") :
      Verdict (.text s) (.error fault)
  | other (fault : Fault) : Verdict .other (.error fault)

/-- A text is a spelling, or is complained about. -/
theorem verdict_truthOfText (s : String) :
    Verdict (.text s) ((Reader.truthOfText s).map some) := by
  rw [Reader.truthOfText]
  by_cases htrue : Text.lowerAscii (Text.trim s) = "true"
  · rw [if_pos htrue]
    exact .spelled htrue
  · rw [if_neg htrue]
    by_cases hfalse : Text.lowerAscii (Text.trim s) = "false"
    · rw [if_pos hfalse]
      exact .spelled hfalse
    · rw [if_neg hfalse]
      refine .unspelled (fun b h => ?_) rfl rfl
      cases b with
      | true => exact htrue h
      | false => exact hfalse h

section

variable {σ : Type} [Scalar σ]

/-- A collection is kept as a collection. -/
theorem not_truthOfValue_of_keep {t : Tree σ} (h : ∀ a, t ≠ .scalar a) {v : Value}
    (hkeep : t.keep = .ok v) (b : Bool) : Reader.truthOfValue v ≠ .ok b := by
  cases t with
  | scalar a => exact absurd rfl (h a)
  | seq mark items closed =>
      rw [Tree.keep] at hkeep
      split at hkeep
      next => cases hkeep
      next =>
        obtain ⟨vs, -, hkeep⟩ := bind_eq_ok_iff.1 hkeep
        obtain ⟨_, -, hkeep⟩ := bind_eq_ok_iff.1 hkeep
        obtain rfl := Except.ok.inj hkeep
        exact fun h => nomatch h
  | map mark entries closed =>
      rw [Tree.keep] at hkeep
      split at hkeep
      next => cases hkeep
      next =>
        obtain ⟨vs, -, hkeep⟩ := bind_eq_ok_iff.1 hkeep
        obtain ⟨_, -, hkeep⟩ := bind_eq_ok_iff.1 hkeep
        obtain rfl := Except.ok.inj hkeep
        exact fun h => nomatch h
  | unreadable => cases hkeep
  | broken => cases hkeep

/-- What is read is nothing, or has a value that is a truth value or spells one. -/
theorem cases_of_read_flag {t : Tree σ} {b? : Option Bool} (h : Reader.flag.read t = .ok b?) :
    Reader.isNull t = .ok true ∨ ∃ v b, t.keep = .ok v ∧ Reader.truthOfValue v = .ok b := by
  obtain ⟨nothing, hnull, h⟩ := bind_eq_ok_iff.1 h
  cases nothing with
  | true => exact .inl hnull
  | false =>
      obtain ⟨v, hkeep, h⟩ := bind_eq_ok_iff.1 h
      obtain ⟨b, hb, -⟩ := map_eq_ok_iff.1 h
      exact .inr ⟨v, b, hkeep, hb⟩

/-- What is neither nothing nor has a truth value is refused. -/
theorem verdict_of_refused {t : Tree σ} (hnull : Reader.isNull t ≠ .ok true)
    (hkeep : ∀ v b, t.keep = .ok v → Reader.truthOfValue v ≠ .ok b) :
    Verdict .other (Reader.flag.read t) := by
  cases hread : (Reader.flag.read t : Except Fault (Option Bool)) with
  | error fault => exact .other fault
  | ok b? =>
      obtain h | ⟨v, b, hv, hb⟩ := cases_of_read_flag hread
      · exact absurd h hnull
      · exact absurd hb (hkeep v b hv)

/-- What is no scalar is refused. -/
theorem verdict_of_not_scalar {t : Tree σ} (h : ∀ a, t ≠ .scalar a) :
    Verdict .other (Reader.flag.read t) := by
  refine verdict_of_refused (fun hnull => ?_) fun v b hkeep => not_truthOfValue_of_keep h hkeep b
  cases t with
  | scalar a => exact absurd rfl (h a)
  | _ => cases hnull

/-- A scalar that is nothing. -/
theorem read_flag_of_isNull {a : σ} (h : Scalar.isNull a = .ok true) :
    (Reader.flag.read (.scalar a) : Except Fault (Option Bool)) = .ok none := by
  show (Tree.complaining (Scalar.isNull a)).bind _ = _
  rw [h]
  rfl

/-- A scalar that is not nothing counts by its value. -/
theorem read_flag_of_value {a : σ} {v : Value} (h : Scalar.isNull a = .ok false)
    (hv : Scalar.value a = .ok v) : (Reader.flag.read (.scalar a) : Except Fault (Option Bool)) =
      (Reader.truthOfValue v).map some := by
  show (Tree.complaining (Scalar.isNull a)).bind _ = _
  rw [h]
  show (Tree.complaining (Scalar.value a)).bind _ = _
  rw [hv]
  rfl

end

/-- What a value that is not null is at a switch. -/
theorem verdict_truthOfValue {v : Value} (hnull : v ≠ .null) :
    Verdict (ofValue v) ((Reader.truthOfValue v).map some) := by
  cases v with
  | null => exact absurd rfl hnull
  | bool b => exact .truth b
  | text s => exact verdict_truthOfText s
  | _ => exact .other _

/-- **What the reader of switches makes of a datum in strict notation.** -/
theorem verdict_json (name : String) (t? : Option (Tree Json.Atom)) :
    Verdict (ofJson t?) (Layout.readField name Reader.flag t?) := by
  cases t? with
  | none => exact .missing
  | some t =>
      show Verdict _ (Reader.flag.read t)
      cases t with
      | scalar a =>
          by_cases hnull : a = .null
          · obtain rfl := hnull
            exact .null
          · rw [read_flag_of_value (congrArg Except.ok (beq_eq_false_iff_ne.2 hnull)) rfl]
            refine verdict_truthOfValue fun h => hnull ?_
            cases a <;> first | rfl | cases h
      | seq mark items closed => exact verdict_of_not_scalar fun _ h => nomatch h
      | map mark entries closed => exact verdict_of_not_scalar fun _ h => nomatch h
      | unreadable => exact verdict_of_not_scalar fun _ h => nomatch h
      | broken => exact verdict_of_not_scalar fun _ h => nomatch h

/-! ### Scalars of block notation -/

section

open Yaml

theorem meaning_eq_null_iff (cs : List Char) : meaning cs = .null ↔ Yaml.isNull cs = true := by
  rw [meaning]
  split
  next h => exact ⟨fun _ => h, fun _ => rfl⟩
  next h =>
    refine ⟨fun hmeaning => ?_, fun h' => absurd h' h⟩
    split at hmeaning
    next => cases hmeaning
    next =>
      split at hmeaning
      next => cases hmeaning
      next => split at hmeaning <;> cases hmeaning

/-- A scalar that is asked to be of a type is nothing but of that type. -/
theorem ne_null_of_elim {α : Type} {a? : Option α} {c : Complaint} {f : α → Meaning} {m : Meaning}
    (hf : ∀ a, f a ≠ .null) (h : (a?.elim (.error c) fun a => .ok (f a)) = Except.ok m) :
    m ≠ .null := by
  cases a? with
  | none => cases h
  | some a => exact Except.ok.inj h ▸ hf a

/-- A scalar counts as nothing where it is a null and is written plainly. -/
theorem isNothing_of_content {a : Atom} {m : Meaning} (hown : a.tag ≠ .own)
    (h : a.content = .ok m) : a.isNothing = .ok (a.written == .plainly && m == .null) := by
  obtain ⟨text, written, tag⟩ := a
  cases written with
  | lineByLine => rfl
  | otherwise => rfl
  | plainly =>
      cases tag with
      | none =>
          obtain rfl := Except.ok.inj h
          show Except.ok (Yaml.isNull text) = .ok (meaning text == .null)
          rw [Except.ok.injEq, Bool.eq_iff_iff, ← meaning_eq_null_iff, beq_iff_eq]
      | null =>
          have h : (if isNullWord text then Except.ok Meaning.null else _) = .ok m := h
          show (if isNullWord text then Except.ok true else _) = _
          split at h
          next hword =>
            obtain rfl := Except.ok.inj h
            rw [if_pos hword]
            rfl
          next => cases h
      | own => exact absurd rfl hown
      | other =>
          obtain rfl := Except.ok.inj h
          rfl
      | truth =>
          have hm : m ≠ .null := ne_null_of_elim (f := .bool) (fun _ h => nomatch h) h
          rw [beq_eq_false_iff_ne.2 hm]
          rfl
      | integer =>
          have hm : m ≠ .null := ne_null_of_elim (f := .int) (fun _ h => nomatch h) h
          rw [beq_eq_false_iff_ne.2 hm]
          rfl
      | float =>
          have hm : m ≠ .null := ne_null_of_elim (f := .float) (fun _ h => nomatch h) h
          rw [beq_eq_false_iff_ne.2 hm]
          rfl

/-- What has a value has a content, which is null exactly if the value is. -/
theorem exists_content_of_value {a : Atom} {v : Value} (h : Scalar.value a = .ok v) :
    a.tag ≠ .own ∧ ∃ m, a.content = .ok m ∧ (m = .null ↔ v = .null) := by
  have h : (if a.tag == .own then Except.error Complaint.enumInput
    else a.content.bind a.valueAs) = .ok v := h
  split at h
  next => cases h
  next hown =>
    refine ⟨fun htag => hown (beq_iff_eq.2 htag), ?_⟩
    obtain ⟨m, hm, h⟩ := bind_eq_ok_iff.1 h
    refine ⟨m, hm, ?_⟩
    cases m with
    | int i =>
        rw [Atom.valueAs] at h
        split at h
        next =>
          obtain rfl := Except.ok.inj h
          exact iff_of_false (by simp) (by simp)
        next => cases h
    | null => exact Except.ok.inj h ▸ ⟨fun _ => rfl, fun _ => rfl⟩
    | _ =>
        obtain rfl := Except.ok.inj h
        exact iff_of_false (by simp) (by simp)

/-- What counts as nothing has null for its value. -/
theorem value_of_isNothing {a : Atom} (h : a.isNothing = .ok true) :
    Scalar.value a = .ok .null := by
  obtain ⟨text, written, tag⟩ := a
  cases written with
  | lineByLine => cases h
  | otherwise => cases h
  | plainly =>
      cases tag with
      | none =>
          have hnull : Yaml.isNull text = true := Except.ok.inj h
          show (Except.ok (meaning text)).bind (Atom.valueAs ⟨text, .plainly, .none⟩) = _
          rw [(meaning_eq_null_iff text).2 hnull]
          rfl
      | null =>
          have h : (if isNullWord text then Except.ok true else _) = .ok true := h
          show (if isNullWord text then Except.ok Meaning.null else _).bind _ = _
          split at h
          next hword =>
            rw [if_pos hword]
            rfl
          next => cases h
      | _ => cases h

/-- A scalar of block notation. -/
theorem verdict_atom (a : Atom) :
    Verdict (ofYaml (some (.scalar a))) (Reader.flag.read (.scalar a)) := by
  rw [ofYaml]
  cases hvalue : Scalar.value a with
  | error c =>
      refine verdict_of_refused (fun hnull => ?_) fun v b hkeep => ?_
      · have hnothing : Tree.complaining a.isNothing = .ok true := hnull
        cases h : a.isNothing with
        | error c => rw [h] at hnothing; cases hnothing
        | ok b =>
            rw [h] at hnothing
            obtain rfl := Except.ok.inj hnothing
            rw [value_of_isNothing h] at hvalue
            cases hvalue
      · have hkeep : Tree.complaining (Scalar.value a) = .ok v := hkeep
        rw [hvalue] at hkeep
        cases hkeep
  | ok v =>
      obtain ⟨hown, m, hm, hiff⟩ := exists_content_of_value hvalue
      have hnothing : Scalar.isNull a = .ok (a.written == .plainly && m == .null) :=
        isNothing_of_content hown hm
      by_cases hnull : v = .null
      · obtain rfl := hnull
        obtain rfl := hiff.2 rfl
        rw [beq_self_eq_true, Bool.and_true] at hnothing
        cases hplain : a.written == .plainly with
        | true =>
            rw [hplain] at hnothing
            rw [read_flag_of_isNull hnothing]
            exact .null
        | false =>
            rw [hplain] at hnothing
            rw [read_flag_of_value hnothing hvalue]
            exact .other _
      · rw [beq_eq_false_iff_ne.2 fun h => hnull (hiff.1 h), Bool.and_false] at hnothing
        rw [read_flag_of_value hnothing hvalue]
        have hverdict := verdict_truthOfValue hnull
        cases v with
        | null => exact absurd rfl hnull
        | _ => exact hverdict

end

/-- **What the reader of switches makes of a datum in block notation.** -/
theorem verdict_yaml (name : String) (t? : Option (Tree Yaml.Atom)) :
    Verdict (ofYaml t?) (Layout.readField name Reader.flag t?) := by
  cases t? with
  | none => exact .missing
  | some t =>
      show Verdict _ (Reader.flag.read t)
      cases t with
      | scalar a => exact verdict_atom a
      | seq mark items closed => exact verdict_of_not_scalar fun _ h => nomatch h
      | map mark entries closed => exact verdict_of_not_scalar fun _ h => nomatch h
      | unreadable => exact verdict_of_not_scalar fun _ h => nomatch h
      | broken => exact verdict_of_not_scalar fun _ h => nomatch h

/-! ### Property files -/

/-- **A text is a property file with a datum at a switch.**  Its data around the switch are in order:
with some datum there they are those of a property file. -/
inductive Stands (sw : Switch) (file : PropertyFile) : Format → String → Datum → Prop
  | json {outer : List (Frame Json.Atom)} {f : Frame Json.Atom} {d : Tree Json.Atom}
      {t? : Option (Tree Json.Atom)} {s : String} (around : Frame.AreAlong sw.path outer)
      (here : f.IsOf sw.names sw.name)
      (valid : Reading.file.read (Frame.fillAll outer (f.fill d)) = .ok file)
      (keyed : t? = none → f.isKeyed = true)
      (document : Json.document (Reading.file : Reader Json.Atom PropertyFile).uses s =
        ⟨Frame.fillAll outer (f.put t?), true⟩) : Stands sw file .json s (ofJson t?)
  | yaml {outer : List (Frame Yaml.Atom)} {f : Frame Yaml.Atom} {d : Tree Yaml.Atom}
      {t? : Option (Tree Yaml.Atom)} {s : String} (around : Frame.AreAlong sw.path outer)
      (here : f.IsOf sw.names sw.name)
      (valid : Reading.file.read (Frame.fillAll outer (f.fill d)) = .ok file)
      (keyed : t? = none → f.isKeyed = true)
      (document : Yaml.document (Reading.file : Reader Yaml.Atom PropertyFile).uses s =
        ⟨Frame.fillAll outer (f.put t?), true⟩) : Stands sw file .yaml s (ofYaml t?)

/-- What is read of a text is what becomes of the datum, in its place. -/
theorem Stands.ofText_eq {sw : Switch} {file : PropertyFile} {format : Format} {s : String}
    {datum : Datum} (h : sw.Stands file format s datum) :
    ∃ r, Verdict datum r ∧ PropertyFile.ofText format s = r.map (fun v => sw.part.put v file) ∧
      ∀ v, sw.part.get? (sw.part.put v file) = some v := by
  cases h with
  | json around here valid keyed document =>
      obtain ⟨g, v, hg, rfl, hall⟩ := sw.read_put around here valid
      refine ⟨_, verdict_json sw.name _, ?_, fun v => ?_⟩
      · show Reader.document _ _ = _
        rw [document, Reader.document_sound, hall _ keyed]
        simp only [hg.put]
      · rw [hg.put]
        exact hg.get? v
  | yaml around here valid keyed document =>
      obtain ⟨g, v, hg, rfl, hall⟩ := sw.read_put around here valid
      refine ⟨_, verdict_yaml sw.name _, ?_, fun v => ?_⟩
      · show Reader.document _ _ = _
        rw [document, Reader.document_sound, hall _ keyed]
        simp only [hg.put]
      · rw [hg.put]
        exact hg.get? v

/-- **A switch accepts exactly its language**, in either notation: what becomes of its datum is put in
its place, or is what is wrong with the text.  So a spelling in the place of a truth value leads to the
same property file. -/
theorem verdict_of_stands {sw : Switch} {file : PropertyFile} {format : Format} {s : String}
    {datum : Datum} (h : sw.Stands file format s datum) :
    (∃ r, Verdict datum r ∧ PropertyFile.ofText format s = r.map (fun v => sw.part.put v file) ∧
      ∀ v, sw.part.get? (sw.part.put v file) = some v) ∧
    ∀ b, datum = .truth b → ∀ {format' s' x}, sw.Stands file format' s' (.text x) → Spells x b →
      PropertyFile.ofText format' s' = PropertyFile.ofText format s := by
  refine ⟨h.ofText_eq, ?_⟩
  rintro b rfl format' s' x h' hspells
  obtain ⟨_, htruth, htext, -⟩ := h.ofText_eq
  obtain ⟨_, hverdict, htext', -⟩ := h'.ofText_eq
  obtain ⟨⟩ := htruth
  rw [htext, htext']
  cases hverdict with
  | spelled hb => rw [hspells.unique hb]
  | unspelled hnone => exact absurd hspells (hnone b)

/-! ### Non-vacuity -/

namespace Spelled

open Json

/-- A property file that leaves the encrypted listener on. -/
def file : PropertyFile where
  properties :=
    { Properties.empty with
      logLevel := some "debug"
      listen := some ⟨none, some ⟨some true, none, none, none⟩⟩ }
  instanceData := ⟨none⟩

/-- It is written as nested objects with a datum at the switch. -/
def written (v : Json) : Json :=
  .object [
    ("pcap-api", .object [
      ("listen", .object [("tls", .object [("enabled", v)])]),
      ("log_level", .text "debug")])]

/-- The objects around the switch. -/
def outer {σ : Type} (key : String → σ) : List (Frame σ) :=
  [.entry .none [] (.scalar (key "pcap-api")) [] true,
    .entry .none [] (.scalar (key "listen"))
      [(.scalar (key "log_level"), .scalar (key "debug"))] true,
    .entry .none [] (.scalar (key "tls")) [] true]

/-- The object of the switch. -/
def frame {σ : Type} (key : String → σ) : Frame σ :=
  .entry .none [] (.scalar (key "enabled")) [] true

theorem areAlong_outer {σ : Type} [Scalar σ] {key : String → σ}
    (hkey : ∀ s, Scalar.text? (key s) = some s) : Frame.AreAlong enabled.path (outer key) :=
  ⟨Layout.read_identifier hkey _, Layout.read_identifier hkey _, Layout.read_identifier hkey _,
    trivial⟩

theorem fits_written : (written (.bool true)).Fits :=
  ⟨⟨⟨⟨trivial, trivial⟩, trivial⟩, trivial, trivial⟩, trivial⟩

theorem stands_json : enabled.Stands file .json (written (.bool true)).print (.truth true) :=
  @Stands.json enabled file _ (frame Atom.text) (.scalar (.bool true)) (some (.scalar (.bool true))) _
    (areAlong_outer lawful_strict.text?) (Layout.read_identifier lawful_strict.text? _) rfl
    (fun h => nomatch h)
    (document_eq_treeIn (isSpelledBy_print _) fits_written (by decide) _)

/-- The same in block notation, the switch spelled between quotes. -/
def block : String :=
  "pcap-api:\n  listen:\n    tls:\n      enabled: ' tRUE '\n  log_level: debug\n"

/-- The datum between quotes. -/
def datum : Yaml.Atom := ⟨" tRUE ".toList, .otherwise, .none⟩

open Yaml in
theorem document_block (u : Uses) : Yaml.document u block =
    ⟨Node.tree u (.map none false [(.scalar none (plain "pcap-api"), .map none false
      [(.scalar none (plain "listen"), .map none false [(.scalar none (plain "tls"),
        .map none false [(.scalar none (plain "enabled"), .scalar none datum)] true)] true),
      (.scalar none (plain "log_level"), .scalar none (plain "debug"))] true)] true), true⟩ := by
  refine document_of_tokens (by decide +kernel) [.blockMapping, .key,
    .scalar "pcap-api".toList .plainly, .value, .blockMapping, .key, .scalar "listen".toList .plainly,
    .value, .blockMapping, .key, .scalar "tls".toList .plainly, .value, .blockMapping, .key,
    .scalar "enabled".toList .plainly, .value, .scalar " tRUE ".toList .otherwise, .blockEnd,
    .blockEnd, .key, .scalar "log_level".toList .plainly, .value, .scalar "debug".toList .plainly,
    .blockEnd, .blockEnd, .streamEnd] (by decide +kernel) rfl u

theorem stands_yaml : enabled.Stands file .yaml block (.text " tRUE ") :=
  @Stands.yaml enabled file _ (frame Yaml.plain) (.scalar (Yaml.plain "true"))
    (some (.scalar datum)) _ (areAlong_outer Yaml.text?_plain)
    (Layout.read_identifier Yaml.text?_plain _) rfl (fun h => nomatch h) (document_block _)

end Spelled

open Spelled in
theorem ofText_spelled : PropertyFile.ofText .json (written (.bool true)).print = .ok file ∧
    PropertyFile.ofText .yaml block = .ok file := by
  obtain ⟨⟨r, hr, htext, -⟩, hspelled⟩ := verdict_of_stands stands_json
  have hjson : PropertyFile.ofText .json (written (.bool true)).print = .ok file := by
    rw [htext]
    cases hr
    rfl
  exact ⟨hjson, (hspelled true rfl stands_yaml (by decide +kernel)).trans hjson⟩

namespace QuotedNull

/-- A switch that is null, in quotes and with the tag of null. -/
def text : String := "pcap-api:\n  enable_ip_restriction: !!null \"null\"\n"

/-- The same, written plainly. -/
def plainText : String := "pcap-api:\n  enable_ip_restriction: !!null null\n"

/-- The node of a scalar at the switch. -/
def node (a : Yaml.Atom) : Yaml.Node String :=
  .map none false [(.scalar none (Yaml.plain "pcap-api"), .map none false
    [(.scalar none (Yaml.plain "enable_ip_restriction"), .scalar none a)] true)] true

open Yaml

/-- The tokens of a text with such a scalar. -/
def tokensWith (written : Written) : List Token :=
  [.blockMapping, .key, .scalar "pcap-api".toList .plainly, .value, .blockMapping, .key,
    .scalar "enable_ip_restriction".toList .plainly, .value,
    .tag ⟨"!!".toList, Utf8.encode "null"⟩, .scalar "null".toList written, .blockEnd, .blockEnd,
    .streamEnd]

theorem document_text (u : Uses) :
    document u text = ⟨Node.tree u (node ⟨"null".toList, .otherwise, .null⟩), true⟩ :=
  document_of_tokens (by decide +kernel) (tokensWith .otherwise) (by decide +kernel) rfl u

theorem document_plainText (u : Uses) :
    document u plainText = ⟨Node.tree u (node ⟨"null".toList, .plainly, .null⟩), true⟩ :=
  document_of_tokens (by decide +kernel) (tokensWith .plainly) (by decide +kernel) rfl u

end QuotedNull

open QuotedNull in
/-- **A null in quotes is refused**, and not as a text either, while the same null written plainly is
nothing. -/
theorem quoted_null_refused :
    (Yaml.Atom.content ⟨"null".toList, .otherwise, .null⟩ = .ok .null ∧
      PropertyFile.ofText .yaml text = .error (.complaint (.noVariant "Flag"))) ∧
    Yaml.Atom.content ⟨"null".toList, .plainly, .null⟩ = .ok .null ∧
      PropertyFile.ofText .yaml plainText = .ok ⟨Properties.empty, ⟨none⟩⟩ := by
  refine ⟨⟨rfl, ?_⟩, rfl, ?_⟩
  · show Reader.document _ _ = _
    rw [document_text]
    rfl
  · show Reader.document _ _ = _
    rw [document_plainText]
    rfl

end Switch

end CaptureConfig

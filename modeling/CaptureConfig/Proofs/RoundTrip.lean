/-
**A document that is written reads back.**

A configuration is written as nested blocks in one of two notations.  Whatever its texts contain,
what is written is read back as the same configuration, by a reader that knows the fields; and by
one that does not, it is read as the same value in both notations: an ordered mapping of exactly
the fields that there are, in which every text is a text and nothing is null.

Main definitions:

* `Reader.anything` — the reader of values without a schema;
* `Config.value` — the value of a configuration's document, key by key;
* `Config.Form.value` — what a text is without a schema.

Main results:

* `Config.ofText_yaml_text` — **a document in block notation is read back**;
* `Config.text_verdict` — **a document is not written exactly if a path in it is no text**, and one
  in strict notation is read back;
* `Config.text_denotes_value` — **both notations denote the same value**.
-/

import CaptureConfig.Document.Form
import CaptureConfig.Proofs.Document.Config
import CaptureConfig.Proofs.Json.Document
import CaptureConfig.Proofs.Resolution
import CaptureConfig.Proofs.Yaml.Document

set_option relaxedAutoImplicit false
set_option autoImplicit false

namespace CaptureConfig

/-! ### Reading what is printed -/

/-- **What is printed in block notation is read.** -/
theorem Yaml.read_print {α : Type} {r : Reader Atom α} {entries : List (String × Doc)} {depth : Nat}
    {a : α} (hsound : Doc.IsSound depth (.block entries)) (hdepth : depth ≤ Node.deepest)
    (h : r.Reads spelling (.block entries) a) : Yaml.read r (print (.block entries)) = .ok a := by
  rw [Yaml.read, document_print hsound.keyed (Nat.le_trans (hsound.depth_le _) hdepth) h.used]
  exact Reader.document_sound.trans h.read

/-- **What is printed in strict notation is read.** -/
theorem Json.read_print {α : Type} {r : Reader Atom α} {d : Doc} {depth : Nat} {a : α}
    (hsound : d.IsSound depth) (hdepth : depth ≤ deepest) (h : r.Reads spelling d a) :
    Json.read r d.toJson.print = .ok a := by
  rw [Json.read, document_print hsound.fits (Nat.le_trans (hsound.depth_le _) hdepth)]
  exact Reader.document_sound.trans h.read

/-! ### Values without a schema -/

/-- **The reader of values without a schema.** -/
def Reader.anything {σ : Type} [Scalar σ] : Reader σ Value where
  uses := .everything
  read t := t.keep.bind Value.distinct
  absent := none

theorem Reader.reads_anything {σ : Type} [Scalar σ] {sp : Doc.Spelling σ} (hsp : sp.Lawful)
    {d : Doc} (hfits : d.Fits) (hdistinct : d.IsDistinct) :
    (Reader.anything : Reader σ Value).Reads sp d d.value where
  used := d.isUsed_everything
  read := by
    show (d.tree sp).keep.bind Value.distinct = _
    rw [d.keep_tree sp hsp hfits, Except.bind, Value.distinct, d.repeatedKey?_value hdistinct]

/-- What a text is without a schema. -/
def Config.Form.value : Config.Form → String → Except Fault Value
  | .yaml => Yaml.read Reader.anything
  | .json => Json.read Reader.anything

/-- The mapping of those fields that there are. -/
def Value.record (fields : List (String × Option Value)) : Value :=
  .map (fields.filterMap fun f => f.2.map fun v => (.text f.1, v))

theorem Doc.value_record (fields : List (String × Option Doc)) :
    (record fields).value = .record (fields.map fun f => (f.1, f.2.map value)) := by
  rw [record, value, Value.record]
  congr 1
  induction fields with
  | nil => rfl
  | cons f rest ih =>
      obtain ⟨k, d?⟩ := f
      cases d? with
      | none => exact ih
      | some d => exact congrArg ((.text k, d.value) :: ·) ih

namespace Config

/-- **The value of a configuration's document**, key by key.  A key is there if its field is. -/
def value (c : Config) : Value := .record
  [("id", some (.text c.id)),
    ("log_level", some (.text c.logLevel)),
    ("concurrent_captures", c.concurrentCaptures.map fun n => .int n.toNat),
    ("buffer", c.buffer.map fun b => .record
      [("size", some (.int b.size.toNat)),
        ("upper_limit", some (.int b.upperLimit.toNat)),
        ("lower_limit", some (.int b.lowerLimit.toNat))]),
    ("listen", some (.record
      [("port", some (.int c.port.toNat)),
        ("tls", c.tls.map fun t => .record
          [("certificate", some (.text t.certificate.display)),
            ("private_key", some (.text t.privateKey.display)),
            ("client_cas", some (.text t.clientCas.display))])])),
    ("bosh", c.bosh.map fun b => .record
      [("agent_port", some (.int b.agentPort.toNat)),
        ("director_url", some (.text b.directorUrl)),
        ("token_scope", some (.text b.tokenScope)),
        ("mtls", b.mtls.map fun m => .record
          [("common_name", some (.text m.commonName)),
            ("skip_verify", some (.bool m.skipVerify))])]),
    ("enable_ip_restriction", some (.bool c.enableIpRestriction)),
    ("cidr_allowlist", c.cidrAllowlist.map fun p => .text p.display)]

theorem value_listenDoc (c : Config) : c.listenDoc.value = .record
    [("port", some (.int c.port.toNat)), ("tls", c.tls.map fun t => t.doc.value)] := by
  rw [listenDoc, Doc.value_record]
  simp only [List.map_cons, List.map_nil, Option.map_some, Option.map_map]
  rfl

theorem value_boshDoc (b : Bosh) : (boshDoc b).value = .record
    [("agent_port", some (.int b.agentPort.toNat)), ("director_url", some (.text b.directorUrl)),
      ("token_scope", some (.text b.tokenScope)),
      ("mtls", b.mtls.map fun m => (mtlsDoc m).value)] := by
  rw [boshDoc_eq_record, Doc.value_record]
  simp only [List.map_cons, List.map_nil, Option.map_some, Option.map_map]
  rfl

theorem value_doc (c : Config) : c.doc.value = c.value := by
  rw [doc, Doc.value_record]
  simp only [List.map_cons, List.map_nil, Option.map_some, Option.map_map, Function.comp_def,
    value_listenDoc, value_boshDoc]
  rfl

/-! ### Documents of configurations -/

section

variable {c : Config} (h : ∀ p ∈ c.paths, p.IsText)

include h

theorem text_eq_ok (form : Form) : c.text form = .ok (form.print c.doc) := by
  rw [text, toDoc_eq_ok h]
  rfl

/-- **A document in either notation is read back.** -/
theorem ofText_print (form : Form) : ofText form (form.print c.doc) = .ok c := by
  cases form with
  | yaml => exact Yaml.read_print c.isSound_doc (by decide) (reads_doc Yaml.lawful_spelling h)
  | json => exact Json.read_print c.isSound_doc (by decide) (reads_doc Json.lawful_spelling h)

end

/-- Without a schema, a document is the same value in either notation. -/
theorem value_print (c : Config) (form : Form) : form.value (form.print c.doc) = .ok c.value := by
  have hsound := c.isSound_doc
  rw [← value_doc]
  cases form with
  | yaml =>
      exact Yaml.read_print hsound (by decide)
        (Reader.reads_anything Yaml.lawful_spelling hsound.fits hsound.distinct)
  | json =>
      exact Json.read_print hsound (by decide)
        (Reader.reads_anything Json.lawful_spelling hsound.fits hsound.distinct)

theorem text_eq_error {c : Config} (h : ∃ p ∈ c.paths, ¬ p.IsText) (form : Form) :
    c.text form = .error .pathNotText := by
  rw [text, toDoc_eq_error h]
  rfl

/-- A document is written, or a path in it is no text. -/
theorem text_cases (c : Config) (form : Form) :
    c.text form = .ok (form.print c.doc) ∨ c.text form = .error .pathNotText := by
  by_cases hbad : ∃ p ∈ c.paths, ¬ p.IsText
  · exact .inr (text_eq_error hbad form)
  · exact .inl (text_eq_ok (by simpa using hbad) form)

/-! ### Main results -/

/-- **A document in block notation is read back.** -/
theorem ofText_yaml_text {c : Config} (h : ∀ p ∈ c.paths, p.IsText) :
    ∃ s, c.text .yaml = .ok s ∧ ofText .yaml s = .ok c :=
  ⟨_, text_eq_ok h .yaml, ofText_print h .yaml⟩

/-- A configuration whose texts would mean something else if they were written as they are. -/
def adverse : Config where
  id := "null"
  logLevel := "\r\n  \t# debug: \x85\u2028"
  concurrentCaptures := some 4294967295
  buffer := some ⟨18446744073709551615, 0, 1⟩
  port := 65535
  tls := some ⟨.ofString "crt: {}", .ofString "", .ofString "- 'ca'\n"⟩
  bosh := some ⟨0, "\"true\"\n", "0x1f", some ⟨" \x00\x7F\uFEFF ", true⟩⟩
  enableIpRestriction := false
  cidrAllowlist := some (.ofString "~")

theorem isText_adverse : ∀ p ∈ adverse.paths, p.IsText := by
  simp only [adverse, paths, List.mem_append, List.mem_cons, List.not_mem_nil, Option.toList]
  rintro p ((rfl | rfl | rfl | hp) | rfl | hp)
  all_goals first | exact ⟨_, rfl⟩ | exact hp.elim

theorem ofText_yaml_text_adverse :
    (∀ p ∈ adverse.paths, p.IsText) ∧
      ∃ s, adverse.text .yaml = .ok s ∧ ofText .yaml s = .ok adverse :=
  ⟨isText_adverse, ofText_yaml_text isText_adverse⟩

/-- **A document is not written exactly if a path in it is no text**, in either notation; else it is
written, and in strict notation it is read back. -/
theorem text_verdict (c : Config) :
    (∀ form e, c.text form = .error e ↔ e = .pathNotText ∧ ∃ p ∈ c.paths, ¬ p.IsText) ∧
      Failure.pathNotText.kind = .serialize ∧
      ((∃ p ∈ c.paths, ¬ p.IsText) ∨ ∃ s, c.text .json = .ok s ∧ ofText .json s = .ok c) := by
  by_cases h : ∃ p ∈ c.paths, ¬ p.IsText
  · refine ⟨fun form e => ?_, rfl, .inl h⟩
    rw [text_eq_error h form, Except.error.injEq]
    exact ⟨fun he => ⟨he.symm, h⟩, fun he => he.1.symm⟩
  · have htexts : ∀ p ∈ c.paths, p.IsText := by simpa using h
    refine ⟨fun form e => ?_, rfl, .inr ⟨_, text_eq_ok htexts .json, ofText_print htexts .json⟩⟩
    rw [text_eq_ok htexts form]
    exact ⟨by rintro ⟨⟩, fun he => absurd he.2 h⟩

/-- **Both notations denote the same value**: the mapping of the fields that there are, in their
order, with each text as it is and nothing that is null. -/
theorem text_denotes_value {c : Config} (h : ∀ p ∈ c.paths, p.IsText) :
    (∀ form : Form, ∃ s, c.text form = .ok s ∧ form.value s = .ok c.value) ∧
      c.value.hasNull = false ∧ ∀ p ∈ c.paths, Path.ofString p.display = p :=
  ⟨fun form => ⟨_, text_eq_ok h form, value_print c form⟩, value_doc c ▸ c.doc.hasNull_value,
    fun p hp => (h p hp).ofString_display⟩

theorem text_denotes_value_adverse :
    (∀ p ∈ adverse.paths, p.IsText) ∧
      ∀ form : Form, ∃ s, adverse.text form = .ok s ∧ form.value s = .ok adverse.value :=
  ⟨isText_adverse, (text_denotes_value isText_adverse).1⟩

end Config

end CaptureConfig

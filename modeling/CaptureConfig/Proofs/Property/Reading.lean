/-
**Property files are read whatever their order and spelling.**

Each reader takes every way to write its value for that value, so a property file that is written as
nested objects is read as what was written, in every notation that tells its scalars apart.  The
entries that nobody knows reach the reader in the order of the text; sorted by key they are what was
written, since only one list of them is in ascending order.

Main results:

* `Properties.takes_properties`, `PropertyFile.read_treeIn` — **a property file is read as what was
  written**, in any notation;
* `PropertyFile.ofText_of_isSpelledBy` — **every text of a property file in strict notation is read
  as that property file**, and leads to the same outcome.
-/

import CaptureConfig.Proofs.Loading
import CaptureConfig.Proofs.Property.Written
import CaptureConfig.Proofs.Utf8

set_option relaxedAutoImplicit false
set_option autoImplicit false

namespace CaptureConfig

open Json

/-! ### Readers -/

namespace Properties

open Layout Reader

variable {σ : Type} [Scalar σ] {sp : Spelling σ} (hsp : sp.Lawful)

include hsp

theorem takes_buffer : (Reading.buffer : Reader σ Buffer).Takes sp Buffer.IsWritten where
  ne_null h := h.ne_null
  read {b v} h := by
    refine Makes.record_of_names hsp _ h rfl (by simp) ?_
    obtain ⟨size, upperLimit, lowerLimit⟩ := b
    exact .seq (.seq (.map Buffer.mk (.field rfl ((takes_u64 hsp).makes rfl)))
      (.field rfl ((takes_u64 hsp).makes rfl))) (.field rfl ((takes_u64 hsp).makes rfl))

theorem takes_tls : (Reading.tls : Reader σ Tls).Takes sp Tls.IsWritten where
  ne_null h := by
    obtain ⟨_, _, _, _, -, -, -, -, h⟩ := h
    exact h.ne_null
  read {t v} h := by
    obtain ⟨enabled, certificate, privateKey, ca, henabled, hcertificate, hkey, hca, h⟩ := h
    refine Makes.record_of_names hsp _ h rfl (by simp) ?_
    obtain ⟨enabled?, certificate?, privateKey?, ca?⟩ := t
    exact .seq (.seq (.seq (.map Tls.mk (.fieldOr none rfl (makes_flag hsp henabled)))
      (.field rfl ((takes_text hsp).optional hsp hcertificate)))
      (.field rfl ((takes_text hsp).optional hsp hkey)))
      (.field rfl ((takes_text hsp).optional hsp hca))

theorem takes_listen : (Reading.listen : Reader σ Listen).Takes sp Listen.IsWritten where
  ne_null h := by
    obtain ⟨_, _, -, -, h⟩ := h
    exact h.ne_null
  read {l v} h := by
    obtain ⟨port, tls, hport, htls, h⟩ := h
    refine Makes.record_of_names hsp _ h rfl (by simp) ?_
    exact .seq (.map Listen.mk (.field rfl ((takes_u16 hsp).optional hsp hport)))
      (.field rfl ((takes_tls hsp).optional hsp htls))

theorem takes_mtls : (Reading.mtls : Reader σ Mtls).Takes sp Mtls.IsWritten where
  ne_null h := by
    obtain ⟨_, _, -, -, h⟩ := h
    exact h.ne_null
  read {m v} h := by
    obtain ⟨commonName, skipVerify, hname, hskip, h⟩ := h
    refine Makes.record_of_names hsp _ h rfl (by simp) ?_
    exact .seq (.map Mtls.mk (.field rfl ((takes_text hsp).optional hsp hname)))
      (.fieldOr none rfl (makes_flag hsp hskip))

theorem takes_bosh : (Reading.bosh : Reader σ Bosh).Takes sp Bosh.IsWritten where
  ne_null h := by
    obtain ⟨_, -, h⟩ := h
    exact h.ne_null
  read {b v} h := by
    obtain ⟨mtls, hmtls, h⟩ := h
    refine Makes.record_of_names hsp _ h rfl (by simp) ?_
    exact .seq (.seq (.seq (.map Bosh.mk (.field rfl ((takes_u16 hsp).makes rfl)))
      (.field rfl ((takes_text hsp).makes rfl))) (.field rfl ((takes_text hsp).makes rfl)))
      (.field rfl ((takes_mtls hsp).optional hsp hmtls))

/-- **Properties are read as what was written**, whatever the order of their keys. -/
theorem takes_properties : (Reading.properties : Reader σ Properties).Takes sp
    fun p v => p.IsPlain ∧ p.IsWritten v where
  ne_null h := by
    obtain ⟨-, -, -, -, -, -, -, -, -, -, h⟩ := h
    exact h.ne_null
  read {p v} h := by
    obtain ⟨hp, @⟨id, logLevel, concurrentCaptures, buffer, listen, bosh, enableIpRestriction,
      cidrAllowlist, others, hid, hlevel, hcaptures, hbuffer, hlisten, hbosh, hrestriction,
      hallowlist, hextra, h⟩⟩ := h
    have hothers (e : String × Json) (he : e ∈ others) := hp.of_mem hextra he
    refine Makes.record_of_others hsp _ h rfl (hp.nodup hextra) (fun e he => ?_)
      fun others' hperm => ?_
    · show (treeIn sp e.2).keep.map _ = _
      rw [keep_treeIn hsp e.2 (hothers e he).1]
      rfl
    · -- The other keys come in the order of the text, and only then are they sorted.
      have hkept : ∀ e ∈ others', e.2.Fits ∧ e.2.IsDistinct := fun e he =>
        (hothers e (hperm.mem_iff.1 he)).imp_right And.left
      have hsort : sortByKey (others'.map fun e => (e.1, e.2.toValue)) = p.extra :=
        sortByKey_eq_of_perm (hextra ▸ hperm.map _) hp.ascending
      refine Makes.of_eq (.seq (.seq (.seq (.seq (.seq (.seq (.seq (.seq (.map _
        (.field rfl ((takes_text hsp).optional hsp hid)))
        (.field rfl ((takes_text hsp).optional hsp hlevel)))
        (.field rfl ((takes_u32 hsp).optional hsp hcaptures)))
        (.field rfl ((takes_buffer hsp).optional hsp hbuffer)))
        (.field rfl ((takes_listen hsp).optional hsp hlisten)))
        (.field rfl ((takes_bosh hsp).optional hsp hbosh)))
        (.fieldOr none rfl (makes_flag hsp hrestriction)))
        (.field rfl ((takes_texts hsp).optional hsp hallowlist)))
        (makes_others hsp hkept)) ?_
      show { p with extra := sortByKey (others'.map fun e => (e.1, e.2.toValue)) } = p
      rw [hsort]

theorem takes_instanceData :
    (Reading.instanceData : Reader σ Instance).Takes sp Instance.IsWritten where
  ne_null h := by
    obtain ⟨_, -, h⟩ := h
    exact h.ne_null
  read {i v} h := by
    obtain ⟨id, hid, h⟩ := h
    refine Makes.record_of_names hsp _ h rfl (by simp) ?_
    exact .map Instance.mk (.field rfl ((takes_text hsp).optional hsp hid))

end Properties

namespace PropertyFile

open Layout Reader Properties

/-- **A property file is read as what was written**, in any notation. -/
theorem read_treeIn {σ : Type} [Scalar σ] {sp : Spelling σ} (hsp : sp.Lawful) {f : PropertyFile}
    (hf : f.properties.IsPlain) {v : Json} (h : f.IsWritten v) :
    (Reading.file : Reader σ PropertyFile).read (treeIn sp v) = .ok f := by
  obtain ⟨properties, instanceData, hproperties, hinstance, h⟩ := h
  refine Makes.record_of_names hsp _ h rfl (by simp) ?_
  exact .seq (.map PropertyFile.mk
    (.fieldOr _ rfl ((takes_properties hsp).makes ⟨hf, hproperties⟩)))
    (.fieldOr _ rfl ((takes_instanceData hsp).makes hinstance))

/-- Every text of a property file is read as that property file. -/
theorem ofText_json {f : PropertyFile} (hf : f.properties.IsPlain) {s : String}
    (h : f.IsSpelledBy s) : ofText .json s = .ok f := by
  obtain ⟨v, hwritten, hspelled⟩ := h
  have hsound := isSound_of_isWritten hf hwritten
  have hdocument := document_eq_treeIn hspelled hsound.fits
    (Nat.le_trans hsound.depth_le (by decide)) (Reading.file : Reader Atom PropertyFile).uses
  show Reader.document _ _ = _
  rw [hdocument, Reader.document, read_treeIn lawful_strict hf hwritten]
  rfl

/-- What a text of a property file leads to is told by that property file alone. -/
theorem result_load {format : Format} {f : PropertyFile} {s : String}
    (hf : ofText format s = .ok f) {p : Path} (hp : Format.ofPath? p = some format) {t : FileTree}
    (hread : t.read p = .ok (Utf8.encode s)) (instanceId : Option String) (root : Path) :
    ((Outcome.load p instanceId root : StateM FileTree _) t).1.result =
      (f.resolve instanceId root).result := by
  have hfile : ofReading p (.ok (Utf8.encode s)) = ⟨[Event.loaded p format], .ok f⟩ := by
    simp only [ofReading, hp, ofOctets, Utf8.decode?_encode, hf]
  rw [Outcome.load_run, hread, Outcome.ofReading, hfile]
  rfl

/-- **Every text of a property file in strict notation is read as that property file**, whatever the
order of its entries and however missing things and switches are written.  So any two of its texts
lead to the same outcome, wherever they stand. -/
theorem ofText_of_isSpelledBy {f : PropertyFile} (hf : f.properties.IsPlain) :
    (∀ s, f.IsSpelledBy s → ofText .json s = .ok f) ∧
      ∀ {s s' : String}, f.IsSpelledBy s → f.IsSpelledBy s' →
        ∀ {p p' : Path} {t t' : FileTree}, Format.ofPath? p = some .json →
          Format.ofPath? p' = some .json → t.read p = .ok (Utf8.encode s) →
          t'.read p' = .ok (Utf8.encode s') → ∀ instanceId root,
          ((Outcome.load p instanceId root : StateM FileTree _) t).1.result =
            ((Outcome.load p' instanceId root : StateM FileTree _) t').1.result := by
  refine ⟨fun s h => ofText_json hf h, ?_⟩
  intro s s' h h' p p' t t' hp hp' hread hread' instanceId root
  rw [result_load (ofText_json hf h) hp hread, result_load (ofText_json hf h') hp' hread']

/-! ### Non-vacuity -/

namespace Shuffled

/-- What stands under a key that nobody knows. -/
def unknown : Json :=
  .object [("b", .number (-9223372036854775808)), ("a", .array [.null, .text "null"])]

/-- A certificate that cannot stand between quotes as it is. -/
def certificate : String := "a \"certificate\"\n"

/-- A property file with switches, missing things, and keys that nobody knows. -/
def file : PropertyFile where
  properties :=
    { Properties.empty with
      listen := some ⟨none, some ⟨some false, some certificate, none, none⟩⟩
      enableIpRestriction := some true
      extra := [("id_", unknown.toValue), ("ähnlich", .bool false)] }
  instanceData := ⟨some "f9281cda-1234-bbcd-ef12-1337cafe0048"⟩

/-- It is written in the order of its fields, without what is missing. -/
def tidy : Json :=
  .object [
    ("pcap-api", .object [
      ("listen", .object [
        ("tls", .object [("enabled", .bool false), ("certificate", .text certificate)])]),
      ("enable_ip_restriction", .bool true),
      ("id_", unknown),
      ("ähnlich", .bool false)]),
    ("spec", .object [("id", .text "f9281cda-1234-bbcd-ef12-1337cafe0048")])]

/-- It is written the other way round, with null for some of what is missing. -/
def shuffled : Json :=
  .object [
    ("spec", .object [("id", .text "f9281cda-1234-bbcd-ef12-1337cafe0048")]),
    ("pcap-api", .object [
      ("ähnlich", .bool false),
      ("id_", unknown),
      ("enable_ip_restriction", .text " TRUE\n"),
      ("listen", .object [
        ("tls", .object [("ca", .null), ("certificate", .text certificate),
          ("enabled", .text "False")]),
        ("port", .null)]),
      ("buffer", .null)])]

/-- A tree with a text under the name of a property file. -/
def tree (s : String) : FileTree where
  root := .directory [(Bare.path.octets, .file ⟨0o644, Utf8.encode s⟩)]
  current := []

theorem isPlain_properties : file.properties.IsPlain where
  ascending := by
    rw [IsAscending]
    decide
  unknown := by decide
  plain := by
    refine List.forall_mem_cons.2 ⟨⟨unknown, rfl, ?_, ?_, by decide⟩, List.forall_mem_cons.2
      ⟨⟨.bool false, rfl, trivial, trivial, by decide⟩, fun _ h => absurd h List.not_mem_nil⟩⟩
    · exact ⟨⟨by decide, by decide⟩, ⟨trivial, trivial, trivial⟩, trivial⟩
    · exact ⟨by decide, trivial, ⟨trivial, trivial, trivial⟩, trivial⟩

theorem isWritten_instanceData : file.instanceData.IsWritten
    (.object [("id", .text "f9281cda-1234-bbcd-ef12-1337cafe0048")]) :=
  ⟨_, .written rfl, _, rfl, .refl _⟩

theorem isSpelledBy_tidy : file.IsSpelledBy tidy.print := by
  refine ⟨tidy, ⟨_, _, ?_, isWritten_instanceData, _, rfl, .refl _⟩, isSpelledBy_print tidy⟩
  refine @Properties.IsWritten.intro _ _ none none none none _ none _ none
    [("id_", unknown), ("ähnlich", .bool false)] .omitted .omitted .omitted .omitted
    (.written ⟨none, _, .omitted, .written ⟨_, _, none, none, .written .bool, .written rfl, .omitted,
      .omitted, _, rfl, .refl _⟩, _, rfl, .refl _⟩)
    .omitted (.written .bool) .omitted rfl ⟨_, rfl, .refl _⟩

theorem perm_of_reverse_eq {α : Type} {l l' : List α} (h : l'.reverse = l) : l.Perm l' :=
  h ▸ List.reverse_perm l'

theorem isSpelledBy_shuffled : file.IsSpelledBy shuffled.print := by
  refine ⟨shuffled, ⟨_, _, ?_, isWritten_instanceData, _, rfl, perm_of_reverse_eq rfl⟩,
    isSpelledBy_print shuffled⟩
  refine @Properties.IsWritten.intro _ _ none none none _ _ none _ none
    [("id_", unknown), ("ähnlich", .bool false)] .omitted .omitted .omitted .null
    (.written ⟨_, _, .null, .written ⟨_, _, none, _, .written (.text ?_), .written rfl, .omitted,
      .null, _, rfl, perm_of_reverse_eq rfl⟩, _, rfl, perm_of_reverse_eq rfl⟩)
    .omitted (.written (.text ?_)) .omitted rfl ⟨_, rfl, perm_of_reverse_eq rfl⟩
  · decide
  · decide

end Shuffled

open Shuffled

theorem ofText_shuffled : tidy.print ≠ shuffled.print ∧ ofText .json tidy.print = .ok file ∧
    ofText .json shuffled.print = .ok file ∧ ∀ instanceId root,
      ((Outcome.load Bare.path instanceId root : StateM FileTree _) (tree tidy.print)).1.result =
        ((Outcome.load Bare.path instanceId root : StateM FileTree _)
          (tree shuffled.print)).1.result := by
  have hdiffer : tidy.print ≠ shuffled.print := by decide +kernel
  obtain ⟨hread, houtcome⟩ := ofText_of_isSpelledBy isPlain_properties
  exact ⟨hdiffer, hread _ isSpelledBy_tidy, hread _ isSpelledBy_shuffled,
    houtcome isSpelledBy_tidy isSpelledBy_shuffled (by decide +kernel) (by decide +kernel) rfl rfl⟩

end PropertyFile

end CaptureConfig

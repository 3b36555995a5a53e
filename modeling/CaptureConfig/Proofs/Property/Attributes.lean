/-
**Property files written as attributes are read as those in strict notation.**

The keys of a property file are names, its numbers are not negative, and no object of it holds a key
twice; so everything that can be written for a property file without unknown keys has a text as two
attributes.  That text is read as the tree of what was written, and every reader makes the same of it
as of any text in strict notation.

Main definitions:

* `PropertyFile.IsLaidOutBy` — the texts of attributes that a property file can be written as.

Main results:

* `PropertyFile.isSayable_of_isWritten` — what is written of a property file has a text;
* `PropertyFile.ofText_attributes` — **a property file is read from its attributes as from its texts
  in strict notation**.
-/

import CaptureConfig.Proofs.Hcl.Document
import CaptureConfig.Proofs.Hcl.Printed
import CaptureConfig.Proofs.Property.Reading

set_option relaxedAutoImplicit false
set_option autoImplicit false

namespace CaptureConfig

open Json Hcl

/-! ### What has a text -/

section

variable {v : Json}

/-- The keys of property files. -/
def PropertyFile.keys : List String :=
  ["pcap-api", "spec", "size", "upper_limit", "lower_limit", "port", "tls", "enabled", "certificate",
    "private_key", "ca", "agent_port", "director_url", "token_scope", "mtls", "common_name",
    "skip_verify"] ++ Properties.names

/-- The keys of property files are names. -/
theorem PropertyFile.isKey_of_mem {k : String} (h : k ∈ keys) : IsKey k := by
  have hkeys : keys.all (fun k => isName k.toList && k != "for") = true := by decide +kernel
  obtain ⟨hname, hfor⟩ := Bool.and_eq_true_iff.1 (List.all_eq_true.1 hkeys k h)
  exact ⟨hname, bne_iff_ne.1 hfor⟩

theorem Hcl.entriesAreSayable_iff {entries : List (String × Json)} :
    EntriesAreSayable entries ↔ ∀ e ∈ entries, IsKey e.1 ∧ IsSayable e.2 := by
  induction entries with
  | nil => simp [EntriesAreSayable]
  | cons e rest ih => rw [EntriesAreSayable, ih, List.forall_mem_cons, and_assoc]

/-- What is there of fields has a text. -/
def Hcl.AreSayable (fields : List (String × Option Json)) : Prop :=
  ∀ f ∈ fields, ∀ v ∈ f.2, IsSayable v

theorem Hcl.areSayable_nil : AreSayable [] := fun _ h => absurd h List.not_mem_nil

theorem Hcl.AreSayable.cons {k : String} {v? : Option Json} {fields : List (String × Option Json)}
    (h : AreSayable fields) (hv : ∀ v ∈ v?, IsSayable v) : AreSayable ((k, v?) :: fields) :=
  List.forall_mem_cons.2 ⟨hv, h⟩

theorem Hcl.AreSayable.cons_some {k : String} {fields : List (String × Option Json)}
    (h : AreSayable fields) (hv : IsSayable v) : AreSayable ((k, some v) :: fields) :=
  h.cons fun _ hw => Option.some.inj hw ▸ hv

/-- **An object with the keys of property files has a text if its parts do.** -/
theorem Json.IsObject.isSayable {fields : List (String × Option Json)} (hv : IsObject fields v)
    (hkeys : ∀ f ∈ fields, f.1 ∈ PropertyFile.keys) (hnodup : (fields.map Prod.fst).Nodup)
    (h : AreSayable fields) : IsSayable v := by
  obtain ⟨entries, rfl, hperm⟩ := hv
  refine ⟨(hperm.map Prod.fst).nodup_iff.2 ((map_fst_present_sublist fields).nodup hnodup),
    entriesAreSayable_iff.2 fun e he => ?_⟩
  have hfield := mem_present.1 (hperm.mem_iff.1 he)
  exact ⟨PropertyFile.isKey_of_mem (hkeys _ hfield), h _ hfield e.2 rfl⟩

/-- What may be missing has a text if what is there has one. -/
theorem Json.Optionally.isSayable {α : Type} {W : α → Json → Prop} {a? : Option α}
    {v? : Option Json} (h : Optionally W a? v?) (hw : ∀ {a v}, W a v → IsSayable v) :
    ∀ v ∈ v?, IsSayable v := by
  rintro v ⟨⟩
  cases h with
  | null => trivial
  | written h => exact hw h

theorem Json.IsText.isSayable {s : String} (h : IsText s v) : IsSayable v := by
  rw [h]
  trivial

theorem Json.IsFlag.isSayable {b : Bool} (h : IsFlag b v) : IsSayable v := by
  cases h <;> trivial

theorem Hcl.isSayable_number {n : Nat} (hn : n < Nat.pow 2 64) : IsSayable (.number n) :=
  ⟨Int.natCast_nonneg n, Int.ofNat_lt.2 hn⟩

theorem Hcl.itemsAreSayable_texts : ∀ texts : List String, ItemsAreSayable (texts.map .text)
  | [] => trivial
  | _ :: rest => ⟨trivial, itemsAreSayable_texts rest⟩

theorem Json.IsTexts.isSayable {texts : List String} (h : IsTexts texts v) : IsSayable v := by
  rw [h]
  exact itemsAreSayable_texts texts

theorem Buffer.isSayable_of_isWritten {b : Buffer} (h : b.IsWritten v) : IsSayable v :=
  h.isSayable (by simp [PropertyFile.keys]) (by simp)
    (((areSayable_nil.cons_some (isSayable_number b.lowerLimit.toNat_lt)).cons_some
      (isSayable_number b.upperLimit.toNat_lt)).cons_some (isSayable_number b.size.toNat_lt))

namespace Properties

theorem Tls.isSayable_of_isWritten {t : Tls} (h : t.IsWritten v) : IsSayable v := by
  obtain ⟨enabled, certificate, privateKey, ca, henabled, hcertificate, hkey, hca, h⟩ := h
  exact h.isSayable (by simp [PropertyFile.keys]) (by simp)
    ((((areSayable_nil.cons (hca.isSayable IsText.isSayable)).cons
      (hkey.isSayable IsText.isSayable)).cons (hcertificate.isSayable IsText.isSayable)).cons
      (henabled.isSayable IsFlag.isSayable))

theorem Listen.isSayable_of_isWritten {l : Listen} (h : l.IsWritten v) : IsSayable v := by
  obtain ⟨port, tls, hport, htls, h⟩ := h
  refine h.isSayable (by simp [PropertyFile.keys]) (by simp)
    ((areSayable_nil.cons (htls.isSayable Tls.isSayable_of_isWritten)).cons
      (hport.isSayable ?_))
  rintro n _ rfl
  exact isSayable_number (Nat.lt_trans n.toNat_lt (by decide))

theorem Mtls.isSayable_of_isWritten {m : Mtls} (h : m.IsWritten v) : IsSayable v := by
  obtain ⟨commonName, skipVerify, hname, hskip, h⟩ := h
  exact h.isSayable (by simp [PropertyFile.keys]) (by simp)
    ((areSayable_nil.cons (hskip.isSayable IsFlag.isSayable)).cons
      (hname.isSayable IsText.isSayable))

theorem Bosh.isSayable_of_isWritten {b : Bosh} (h : b.IsWritten v) : IsSayable v := by
  obtain ⟨mtls, hmtls, h⟩ := h
  have hport : b.agentPort.toNat < Nat.pow 2 64 := Nat.lt_trans b.agentPort.toNat_lt (by decide)
  exact h.isSayable (by simp [PropertyFile.keys]) (by simp)
    ((((areSayable_nil.cons (hmtls.isSayable Mtls.isSayable_of_isWritten)).cons_some
      (IsText.isSayable rfl)).cons_some (IsText.isSayable rfl)).cons_some (isSayable_number hport))

/-- Without unknown keys, all that properties are written as has a text. -/
theorem isSayable_of_isWritten {p : Properties} (hextra : p.extra = []) (h : p.IsWritten v) :
    IsSayable v := by
  obtain ⟨hid, hlevel, hcaptures, hbuffer, hlisten, hbosh, hrestriction, hallowlist, hothers, h⟩ :=
    h
  rw [hextra] at hothers
  obtain rfl := List.map_eq_nil_iff.1 hothers.symm
  rw [List.map_nil, List.append_nil] at h
  refine h.isSayable (by simp [PropertyFile.keys, names]) (by simp)
    ((((((((areSayable_nil.cons (hallowlist.isSayable IsTexts.isSayable)).cons
      (hrestriction.isSayable IsFlag.isSayable)).cons
      (hbosh.isSayable Bosh.isSayable_of_isWritten)).cons
      (hlisten.isSayable Listen.isSayable_of_isWritten)).cons
      (hbuffer.isSayable Buffer.isSayable_of_isWritten)).cons
      (hcaptures.isSayable ?_)).cons
      (hlevel.isSayable IsText.isSayable)).cons (hid.isSayable IsText.isSayable))
  rintro n _ rfl
  exact isSayable_number (Nat.lt_trans n.toNat_lt (by decide))

end Properties

namespace PropertyFile

/-- **What is written of a property file without unknown keys has a text.** -/
theorem isSayable_of_isWritten {f : PropertyFile} (hextra : f.properties.extra = [])
    (h : f.IsWritten v) : IsSayable v := by
  obtain ⟨properties, instanceData, hproperties, ⟨id, hid, hinstance⟩, h⟩ := h
  have hinstance : IsSayable instanceData :=
    hinstance.isSayable (by simp [keys, Properties.names]) (by simp)
      (areSayable_nil.cons (hid.isSayable IsText.isSayable))
  exact h.isSayable (by simp [keys]) (by simp) ((areSayable_nil.cons_some hinstance).cons_some
    (Properties.isSayable_of_isWritten hextra hproperties))

end PropertyFile

end

/-! ### Reading -/

namespace PropertyFile

/-- **The texts of attributes that a property file can be written as.** -/
def IsLaidOutBy (f : PropertyFile) (s : String) : Prop :=
  ∃ v : Json, f.IsWritten v ∧ Hcl.IsSpelledBy v s

/-- Without unknown keys there is nothing that could be kept. -/
theorem isPlain_of_extra {p : Properties} (hextra : p.extra = []) : p.IsPlain where
  ascending := by
    rw [hextra]
    exact .nil
  unknown := by simp [hextra]
  plain := by simp [hextra]

/-- A text of attributes is read as the property file. -/
theorem ofText_hcl {f : PropertyFile} (hextra : f.properties.extra = []) {s : String}
    (h : f.IsLaidOutBy s) : ofText .hcl s = .ok f := by
  obtain ⟨v, hwritten, hspelled⟩ := h
  have hsayable := isSayable_of_isWritten hextra hwritten
  have hread := read_treeIn lawful_spelling (isPlain_of_extra hextra) hwritten
  obtain ⟨hbody⟩ := hspelled
  show Reader.document _ _ = _
  rw [document_of_isSpelledBy ⟨hbody⟩ hsayable, Reader.document_sound]
  -- A reader of records does not ask what else is known about a mapping.
  exact hread

/-- **A property file without unknown keys is read from its attributes as from its texts in strict
notation**: from every text of attributes that it can be written as, among them the printed form of
all that is written of it, and there is such a text. -/
theorem ofText_attributes {f : PropertyFile} (hextra : f.properties.extra = []) :
    (∀ s, f.IsLaidOutBy s → ofText .hcl s = .ok f) ∧
      (∀ s, f.IsSpelledBy s → ofText .json s = .ok f) ∧
      (∀ v, f.IsWritten v → ∃ es, v = .object es ∧ f.IsLaidOutBy (Hcl.print es)) ∧
      ∃ v, f.IsWritten v := by
  refine ⟨fun s h => ofText_hcl hextra h, fun s h => ofText_json (isPlain_of_extra hextra) h,
    fun v hwritten => ?_, exists_isWritten (isPlain_of_extra hextra)⟩
  have hsayable := isSayable_of_isWritten hextra hwritten
  have hobject := hwritten
  obtain ⟨_, _, -, -, es, rfl, -⟩ := hobject
  exact ⟨es, rfl, _, hwritten, isSpelledBy_print hsayable⟩

namespace Attributes

/-- A property file with the largest size there is, and a text with quotes, a backslash and signs. -/
def file : PropertyFile where
  properties :=
    { Properties.empty with
      logLevel := some "\"debug\" \\ 100% for $5"
      buffer := some ⟨18446744073709551615, 0, 7⟩
      enableIpRestriction := some true
      cidrAllowlist := some ["10.0.0.0/8", "::/0"] }
  instanceData := ⟨some "f9281cda-1234-bbcd-ef12-1337cafe0048"⟩

/-- Its entries, in another order than its fields. -/
def entries : List (String × Json) :=
  [("spec", .object [("id", .text "f9281cda-1234-bbcd-ef12-1337cafe0048")]),
    ("pcap-api", .object [
      ("cidr_allowlist", .array [.text "10.0.0.0/8", .text "::/0"]),
      ("enable_ip_restriction", .text "TRUE"),
      ("buffer", .object [("lower_limit", .number 7), ("upper_limit", .number 0),
        ("size", .number 18446744073709551615)]),
      ("log_level", .text "\"debug\" \\ 100% for $5")])]

/-- Its printed form. -/
def printed : String :=
  "spec = \x7b\n  id = \"f9281cda-1234-bbcd-ef12-1337cafe0048\"\n\x7d\n" ++
    "pcap-api = \x7b\n  cidr_allowlist = [\"10.0.0.0/8\", \"::/0\"]\n" ++
    "  enable_ip_restriction = \"TRUE\"\n  buffer = \x7b\n    lower_limit = 7\n" ++
    "    upper_limit = 0\n    size = 18446744073709551615\n  \x7d\n" ++
    "  log_level = \"\\\"debug\\\" \\\\ 100% for $5\"\n\x7d\n"

theorem isWritten_entries : file.IsWritten (.object entries) := by
  have hbuffer : (⟨18446744073709551615, 0, 7⟩ : Buffer).IsWritten (.object
      [("lower_limit", .number 7), ("upper_limit", .number 0),
        ("size", .number 18446744073709551615)]) :=
    ⟨_, rfl, Shuffled.perm_of_reverse_eq rfl⟩
  refine ⟨_, _, @Properties.IsWritten.intro _ _ none _ none _ none none _ _ [] .omitted
    (.written rfl) .omitted (.written hbuffer) .omitted .omitted (.written (.text ?_))
    (.written rfl) rfl ⟨_, rfl, Shuffled.perm_of_reverse_eq rfl⟩,
    ⟨_, .written rfl, _, rfl, .refl _⟩, _, rfl, Shuffled.perm_of_reverse_eq rfl⟩
  decide

end Attributes

open Attributes

theorem ofText_printed_attributes : Hcl.print entries = printed ∧ ofText .hcl printed = .ok file ∧
    ofText .json (Json.object entries).print = .ok file := by
  have hprint : Hcl.print entries = printed := by decide +kernel
  obtain ⟨hattributes, hstrict, hlaid, -⟩ := ofText_attributes (f := file) rfl
  obtain ⟨_, ⟨⟩, hlaidOut⟩ := hlaid _ isWritten_entries
  exact ⟨hprint, hattributes _ (hprint ▸ hlaidOut),
    hstrict _ ⟨_, isWritten_entries, Json.isSpelledBy_print _⟩⟩

end PropertyFile

end CaptureConfig

/-
**How property files are written as objects.**

A property file is written as nested objects whose entries may stand in any order.  What is missing
may be left out or be null, and a switch may be a text.  The keys that nobody knows stand among those
that have a meaning, and what they hold is written as it is.  Nothing of this refers to a reader.

Main definitions:

* `Value.IsPlain` — values of the kinds that strict notation has;
* `Properties.IsPlain` — properties whose other keys are unknown and hold such values;
* `PropertyFile.IsWritten` — **the ways to write a property file** as nested objects;
* `PropertyFile.IsSpelledBy` — the texts that a property file can be written as.

Main results:

* `PropertyFile.isSound_of_isWritten` — what is written can be read, as to numbers and nesting;
* `PropertyFile.exists_isWritten` — every property file whose other keys hold plain values can be
  written.
-/

import CaptureConfig.Proofs.Json.Record
import CaptureConfig.Proofs.Property.Order

set_option relaxedAutoImplicit false
set_option autoImplicit false

namespace CaptureConfig

open Json

/-! ### Properties whose other keys hold plain values -/

/-- **Values of the kinds that strict notation has**: nothing, truth values, numbers of 64 bits,
texts, sequences, and mappings with distinct texts as keys, nested less deep than a bound. -/
def Value.IsPlain (bound : Nat) (x : Value) : Prop :=
  ∃ v : Json, v.toValue = x ∧ v.Fits ∧ v.IsDistinct ∧ v.depth < bound

namespace Properties

/-- The keys that have a meaning. -/
def names : List String :=
  ["id", "log_level", "concurrent_captures", "buffer", "listen", "bosh", "enable_ip_restriction",
    "cidr_allowlist"]

/-- **Properties whose other keys are unknown and hold plain values.**  The other keys are ascending,
as sorting leaves them. -/
structure IsPlain (p : Properties) : Prop where
  ascending : IsAscending p.extra
  unknown : ∀ e ∈ p.extra, e.1 ∉ names
  plain : ∀ e ∈ p.extra, e.2.IsPlain 100

end Properties

/-! ### Ways to write -/

/-- The limits of the buffer. -/
def Buffer.IsWritten (b : Buffer) (v : Json) : Prop :=
  IsObject [("size", some (.number b.size.toNat)),
    ("upper_limit", some (.number b.upperLimit.toNat)),
    ("lower_limit", some (.number b.lowerLimit.toNat))] v

namespace Properties

/-- The contents for the encrypted listener, and the switch. -/
def Tls.IsWritten (t : Tls) (v : Json) : Prop :=
  ∃ enabled certificate privateKey ca, Optionally IsFlag t.enabled enabled ∧
    Optionally IsText t.certificate certificate ∧ Optionally IsText t.privateKey privateKey ∧
    Optionally IsText t.ca ca ∧
    IsObject [("enabled", enabled), ("certificate", certificate), ("private_key", privateKey),
      ("ca", ca)] v

/-- The listener. -/
def Listen.IsWritten (l : Listen) (v : Json) : Prop :=
  ∃ port tls, Optionally (fun n => IsNumber n.toNat) l.port port ∧
    Optionally Tls.IsWritten l.tls tls ∧ IsObject [("port", port), ("tls", tls)] v

/-- How the service proves itself to the director. -/
def Mtls.IsWritten (m : Mtls) (v : Json) : Prop :=
  ∃ commonName skipVerify, Optionally IsText m.commonName commonName ∧
    Optionally IsFlag m.skipVerify skipVerify ∧
    IsObject [("common_name", commonName), ("skip_verify", skipVerify)] v

/-- How the service reaches the director and its agents. -/
def Bosh.IsWritten (b : Bosh) (v : Json) : Prop :=
  ∃ mtls, Optionally Mtls.IsWritten b.mtls mtls ∧
    IsObject [("agent_port", some (.number b.agentPort.toNat)),
      ("director_url", some (.text b.directorUrl)), ("token_scope", some (.text b.tokenScope)),
      ("mtls", mtls)] v

/-- **The properties**: the other keys stand in any order among those that have a meaning. -/
inductive IsWritten (p : Properties) (v : Json) : Prop
  | intro {id logLevel concurrentCaptures buffer listen bosh enableIpRestriction
      cidrAllowlist : Option Json} {others : List (String × Json)}
    (id_written : Optionally IsText p.id id)
    (logLevel_written : Optionally IsText p.logLevel logLevel)
    (concurrentCaptures_written :
      Optionally (fun n => IsNumber n.toNat) p.concurrentCaptures concurrentCaptures)
    (buffer_written : Optionally Buffer.IsWritten p.buffer buffer)
    (listen_written : Optionally Listen.IsWritten p.listen listen)
    (bosh_written : Optionally Bosh.IsWritten p.bosh bosh)
    (enableIpRestriction_written : Optionally IsFlag p.enableIpRestriction enableIpRestriction)
    (cidrAllowlist_written : Optionally IsTexts p.cidrAllowlist cidrAllowlist)
    (extra_written : p.extra = others.map fun e => (e.1, e.2.toValue))
    (isObject : IsObject ([("id", id), ("log_level", logLevel),
      ("concurrent_captures", concurrentCaptures), ("buffer", buffer), ("listen", listen),
      ("bosh", bosh), ("enable_ip_restriction", enableIpRestriction),
      ("cidr_allowlist", cidrAllowlist)] ++ others.map fun e => (e.1, some e.2)) v) :
    IsWritten p v

end Properties

/-- The instance. -/
def Instance.IsWritten (i : Instance) (v : Json) : Prop :=
  ∃ id, Optionally IsText i.id id ∧ IsObject [("id", id)] v

/-- **The ways to write a property file** as nested objects. -/
def PropertyFile.IsWritten (f : PropertyFile) (v : Json) : Prop :=
  ∃ properties instanceData, f.properties.IsWritten properties ∧
    f.instanceData.IsWritten instanceData ∧
    IsObject [("pcap-api", some properties), ("spec", some instanceData)] v

/-- **The texts that a property file can be written as.** -/
def PropertyFile.IsSpelledBy (f : PropertyFile) (s : String) : Prop :=
  ∃ v : Json, f.IsWritten v ∧ v.IsSpelledBy s

/-! ### Something to write -/

theorem Json.exists_optionally {α : Type} {W : α → Json → Prop} (hw : ∀ a, ∃ v, W a v) :
    ∀ a? : Option α, ∃ v?, Optionally W a? v?
  | none => ⟨none, .omitted⟩
  | some a =>
      let ⟨v, hv⟩ := hw a
      ⟨some v, .written hv⟩

theorem Json.exists_isText (s : String) : ∃ v, IsText s v := ⟨_, rfl⟩

theorem Json.exists_isNumber (n : Nat) : ∃ v, IsNumber n v := ⟨_, rfl⟩

theorem Json.exists_isTexts (texts : List String) : ∃ v, IsTexts texts v := ⟨_, rfl⟩

theorem Json.exists_isFlag (b : Bool) : ∃ v, IsFlag b v := ⟨_, .bool⟩

theorem Buffer.exists_isWritten (b : Buffer) : ∃ v, b.IsWritten v := ⟨_, _, rfl, .refl _⟩

namespace Properties

theorem Tls.exists_isWritten (t : Tls) : ∃ v, t.IsWritten v := by
  obtain ⟨enabled, henabled⟩ := exists_optionally exists_isFlag t.enabled
  obtain ⟨certificate, hcertificate⟩ := exists_optionally exists_isText t.certificate
  obtain ⟨privateKey, hkey⟩ := exists_optionally exists_isText t.privateKey
  obtain ⟨ca, hca⟩ := exists_optionally exists_isText t.ca
  exact ⟨_, enabled, certificate, privateKey, ca, henabled, hcertificate, hkey, hca, _, rfl, .refl _⟩

theorem Listen.exists_isWritten (l : Listen) : ∃ v, l.IsWritten v := by
  obtain ⟨port, hport⟩ := exists_optionally (fun n => exists_isNumber n.toNat) l.port
  obtain ⟨tls, htls⟩ := exists_optionally Tls.exists_isWritten l.tls
  exact ⟨_, port, tls, hport, htls, _, rfl, .refl _⟩

theorem Mtls.exists_isWritten (m : Mtls) : ∃ v, m.IsWritten v := by
  obtain ⟨commonName, hname⟩ := exists_optionally exists_isText m.commonName
  obtain ⟨skipVerify, hskip⟩ := exists_optionally exists_isFlag m.skipVerify
  exact ⟨_, commonName, skipVerify, hname, hskip, _, rfl, .refl _⟩

theorem Bosh.exists_isWritten (b : Bosh) : ∃ v, b.IsWritten v := by
  obtain ⟨mtls, hmtls⟩ := exists_optionally Mtls.exists_isWritten b.mtls
  exact ⟨_, mtls, hmtls, _, rfl, .refl _⟩

/-- Entries of plain values are those of a text. -/
theorem exists_others : ∀ {extra : List (String × Value)}, (∀ e ∈ extra, e.2.IsPlain 100) →
    ∃ others : List (String × Json), extra = others.map fun e => (e.1, e.2.toValue)
  | [], _ => ⟨[], rfl⟩
  | (k, _) :: _, h => by
      obtain ⟨⟨v, rfl, -⟩, htail⟩ := List.forall_mem_cons.1 h
      obtain ⟨others, rfl⟩ := exists_others htail
      exact ⟨(k, v) :: others, rfl⟩

theorem IsPlain.exists_isWritten {p : Properties} (hp : p.IsPlain) : ∃ v, p.IsWritten v := by
  obtain ⟨id, hid⟩ := exists_optionally exists_isText p.id
  obtain ⟨logLevel, hlevel⟩ := exists_optionally exists_isText p.logLevel
  obtain ⟨captures, hcaptures⟩ :=
    exists_optionally (fun n => exists_isNumber n.toNat) p.concurrentCaptures
  obtain ⟨buffer, hbuffer⟩ := exists_optionally Buffer.exists_isWritten p.buffer
  obtain ⟨listen, hlisten⟩ := exists_optionally Listen.exists_isWritten p.listen
  obtain ⟨bosh, hbosh⟩ := exists_optionally Bosh.exists_isWritten p.bosh
  obtain ⟨restriction, hrestriction⟩ := exists_optionally exists_isFlag p.enableIpRestriction
  obtain ⟨allowlist, hallowlist⟩ := exists_optionally exists_isTexts p.cidrAllowlist
  obtain ⟨others, hothers⟩ := exists_others hp.plain
  exact ⟨_, .intro hid hlevel hcaptures hbuffer hlisten hbosh hrestriction hallowlist hothers
    ⟨_, rfl, .refl _⟩⟩

end Properties

/-- **Every property file whose other keys hold plain values can be written.** -/
theorem PropertyFile.exists_isWritten {f : PropertyFile} (hf : f.properties.IsPlain) :
    ∃ v, f.IsWritten v := by
  obtain ⟨properties, hproperties⟩ := hf.exists_isWritten
  obtain ⟨id, hid⟩ := exists_optionally exists_isText f.instanceData.id
  exact ⟨_, properties, _, hproperties, ⟨id, hid, _, rfl, .refl _⟩, _, rfl, .refl _⟩

/-! ### Numbers and nesting -/

section

variable {v : Json}

theorem Buffer.isSound_of_isWritten (bound : Nat) {b : Buffer} (h : b.IsWritten v) :
    IsSound (bound + 1) v :=
  h.isSound (((areSound_nil.cons_some (isSound_u64 _)).cons_some (isSound_u64 _)).cons_some
    (isSound_u64 _))

namespace Properties

theorem Tls.isSound_of_isWritten (bound : Nat) {t : Tls} (h : t.IsWritten v) :
    IsSound (bound + 1) v := by
  obtain ⟨enabled, certificate, privateKey, ca, henabled, hcertificate, hkey, hca, h⟩ := h
  exact h.isSound ((((areSound_nil.cons (hca.isSound IsText.isSound)).cons
    (hkey.isSound IsText.isSound)).cons (hcertificate.isSound IsText.isSound)).cons
    (henabled.isSound IsFlag.isSound))

theorem Listen.isSound_of_isWritten (bound : Nat) {l : Listen} (h : l.IsWritten v) :
    IsSound (bound + 2) v := by
  obtain ⟨port, tls, hport, htls, h⟩ := h
  refine h.isSound ((areSound_nil.cons (htls.isSound (Tls.isSound_of_isWritten bound))).cons
    (hport.isSound ?_))
  rintro n _ rfl
  exact isSound_u16 n

theorem Mtls.isSound_of_isWritten (bound : Nat) {m : Mtls} (h : m.IsWritten v) :
    IsSound (bound + 1) v := by
  obtain ⟨commonName, skipVerify, hname, hskip, h⟩ := h
  exact h.isSound ((areSound_nil.cons (hskip.isSound IsFlag.isSound)).cons
    (hname.isSound IsText.isSound))

theorem Bosh.isSound_of_isWritten (bound : Nat) {b : Bosh} (h : b.IsWritten v) :
    IsSound (bound + 2) v := by
  obtain ⟨mtls, hmtls, h⟩ := h
  exact h.isSound ((((areSound_nil.cons (hmtls.isSound (Mtls.isSound_of_isWritten bound))).cons_some
    (isSound_text _)).cons_some (isSound_text _)).cons_some (isSound_u16 _))

/-- What the other keys hold is what the text has under them. -/
theorem IsPlain.of_mem {p : Properties} (hp : p.IsPlain) {others : List (String × Json)}
    (hothers : p.extra = others.map fun e => (e.1, e.2.toValue)) {e : String × Json}
    (he : e ∈ others) : e.2.Fits ∧ e.2.IsDistinct ∧ e.2.depth < 100 := by
  have hmem : (e.1, e.2.toValue) ∈ p.extra := hothers ▸ List.mem_map.2 ⟨e, he, rfl⟩
  obtain ⟨v, hv, hfits, hdistinct, hdepth⟩ := hp.plain _ hmem
  rw [toValue_injective v e.2 hv] at hfits hdistinct hdepth
  exact ⟨hfits, hdistinct, hdepth⟩

/-- The keys of properties are distinct. -/
theorem IsPlain.nodup {p : Properties} (hp : p.IsPlain) {others : List (String × Json)}
    (hothers : p.extra = others.map fun e => (e.1, e.2.toValue)) :
    (names ++ others.map Prod.fst).Nodup := by
  have hkeys : others.map Prod.fst = p.extra.map Prod.fst := by
    rw [hothers, List.map_map]
    rfl
  rw [hkeys, List.nodup_append]
  refine ⟨by simp [names], hp.ascending.nodup, ?_⟩
  rintro _ hname _ hkey rfl
  obtain ⟨e, he, rfl⟩ := List.mem_map.1 hkey
  exact hp.unknown e he hname

theorem isSound_of_isWritten {p : Properties} (hp : p.IsPlain) (h : p.IsWritten v) :
    IsSound 100 v := by
  obtain ⟨hid, hlevel, hcaptures, hbuffer, hlisten, hbosh, hrestriction, hallowlist, hothers, h⟩ :=
    h
  refine h.isSound (.append ?_ ?_)
  · refine ((((((((areSound_nil.cons (hallowlist.isSound (IsTexts.isSound 98))).cons
      (hrestriction.isSound IsFlag.isSound)).cons
      (hbosh.isSound (Bosh.isSound_of_isWritten 97))).cons
      (hlisten.isSound (Listen.isSound_of_isWritten 97))).cons
      (hbuffer.isSound (Buffer.isSound_of_isWritten 98))).cons
      (hcaptures.isSound ?_)).cons
      (hlevel.isSound IsText.isSound)).cons (hid.isSound IsText.isSound))
    rintro n _ rfl
    exact isSound_u32 n
  · refine List.forall_mem_map.2 fun e he w hw => ?_
    obtain rfl := Option.some.inj hw
    obtain ⟨hfits, -, hdepth⟩ := hp.of_mem hothers he
    exact ⟨hfits, Nat.le_of_lt_succ hdepth⟩

end Properties

/-- **What is written of a property file can be read**, as to numbers and nesting. -/
theorem PropertyFile.isSound_of_isWritten {f : PropertyFile} (hf : f.properties.IsPlain)
    (h : f.IsWritten v) : IsSound 101 v := by
  obtain ⟨properties, instanceData, hproperties, ⟨id, hid, hinstance⟩, h⟩ := h
  have hid : IsSound 100 instanceData :=
    hinstance.isSound (areSound_nil.cons (hid.isSound IsText.isSound))
  exact h.isSound ((areSound_nil.cons_some hid).cons_some
    (Properties.isSound_of_isWritten hf hproperties))

end

end CaptureConfig

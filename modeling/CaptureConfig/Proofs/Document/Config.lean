/-
**The configuration document as a document.**

A configuration is written if all paths in it are texts.  What is written is a record of records,
of which each is read back field by field; it holds no more than both notations can write.

Main definitions:

* `Config.doc` — the document of a configuration whose paths are texts;
* `Doc.IsSound` — a document that both notations can write.

Main results:

* `Config.toDoc_eq_ok`, `Config.toDoc_eq_error` — **a document is written if all paths are texts**;
* `Config.reads_doc` — **a document is read back as what it was written for**;
* `Config.isSound_doc` — both notations can write it.
-/

import CaptureConfig.Document.Schema
import CaptureConfig.Proofs.Document.Record
import CaptureConfig.Proofs.Utf8
import CaptureConfig.Proofs.Yaml.Stream

set_option relaxedAutoImplicit false
set_option autoImplicit false

namespace CaptureConfig

namespace Path

/-- A path that is a text is the one of the text that it is shown as. -/
theorem IsText.ofString_display {p : Path} (h : p.IsText) : ofString p.display = p := by
  obtain ⟨s, rfl⟩ := h
  rw [display_ofString]

theorem IsText.toString?_eq {p : Path} (h : p.IsText) : p.toString? = some p.display := by
  obtain ⟨s, rfl⟩ := h
  rw [display_ofString, toString?_ofString]

end Path

/-! ### Documents for both notations -/

namespace Doc

/-- **A document that both notations can write**: its numbers fit 64 bits, its blocks have entries
under distinct keys that can be written plainly, and they are not nested deeper than a bound. -/
structure IsSound (depth : Nat) (d : Doc) : Prop where
  fits : d.Fits
  distinct : d.IsDistinct
  keyed : Yaml.IsKeyed d
  depth_le : ∀ {σ : Type} (sp : Spelling σ), (d.tree sp).depth ≤ depth

section

variable {depth : Nat}

theorem isSound_text (s : String) : IsSound depth (.text s) :=
  ⟨trivial, trivial, trivial, fun _ => Nat.zero_le depth⟩

theorem isSound_number {n : Nat} (h : n < Nat.pow 2 64) : IsSound depth (.number n) :=
  ⟨h, trivial, trivial, fun _ => Nat.zero_le depth⟩

theorem isSound_flag (b : Bool) : IsSound depth (.flag b) :=
  ⟨trivial, trivial, trivial, fun _ => Nat.zero_le depth⟩

theorem isSound_entries {entries : List (String × Doc)}
    (hkeys : ∀ e ∈ entries, Yaml.IsKey e.1.toList) (h : ∀ e ∈ entries, IsSound depth e.2) :
    EntriesFit entries ∧ AreDistinct entries ∧ Yaml.AreKeyed entries ∧
      ∀ {σ : Type} (sp : Spelling σ), Tree.entriesDepth (entryTrees sp entries) ≤ depth := by
  induction entries with
  | nil => exact ⟨trivial, trivial, trivial, fun _ => Nat.zero_le depth⟩
  | cons e rest ih =>
      have hd := h e List.mem_cons_self
      obtain ⟨hfits, hdistinct, hkeyed, hdepth⟩ := ih
        (fun e he => hkeys e (List.mem_cons_of_mem _ he))
        (fun e he => h e (List.mem_cons_of_mem _ he))
      refine ⟨⟨hd.fits, hfits⟩, ⟨hd.distinct, hdistinct⟩,
        ⟨hkeys e List.mem_cons_self, hd.keyed, hkeyed⟩, fun sp => ?_⟩
      exact Nat.max_le.2 ⟨Nat.max_le.2 ⟨Nat.zero_le depth, hd.depth_le sp⟩, hdepth sp⟩

/-- The fields that there are are such documents. -/
def AreSound (depth : Nat) (fields : List (String × Option Doc)) : Prop :=
  ∀ f ∈ fields, ∀ d ∈ f.2, IsSound depth d

section

variable {k : String} {rest : List (String × Option Doc)}

theorem areSound_nil : AreSound depth [] := fun _ h => absurd h List.not_mem_nil

/-- A field that is there. -/
theorem AreSound.field {d : Doc} (h : AreSound depth rest) (hd : IsSound depth d) :
    AreSound depth ((k, some d) :: rest) :=
  List.forall_mem_cons.2 ⟨fun _ he => Option.some.inj he ▸ hd, h⟩

/-- A field that may be missing. -/
theorem AreSound.fieldOr {α : Type} {write : α → Doc} {a? : Option α} (h : AreSound depth rest)
    (ha : ∀ a ∈ a?, IsSound depth (write a)) : AreSound depth ((k, a?.map write) :: rest) := by
  refine List.forall_mem_cons.2 ⟨fun d hd => ?_, h⟩
  obtain ⟨a, ha?, rfl⟩ := Option.map_eq_some_iff.1 hd
  exact ha a ha?

end

/-- **A record of such documents** is one, nested deeper by one. -/
theorem isSound_record {fields : List (String × Option Doc)} (names : List String)
    (hnames : fields.map Prod.fst = names) (hnodup : names.Nodup)
    (hkeys : ∀ k ∈ names, Yaml.IsKey k.toList) (hne : ∃ k d, (k, some d) ∈ fields)
    (h : AreSound depth fields) : IsSound (depth + 1) (record fields) := by
  subst hnames
  obtain ⟨hfits, hdistinct, hkeyed, hdepth⟩ : _ ∧ _ ∧ _ ∧ _ := isSound_entries
    (fun e he => hkeys e.1 (List.mem_map.2 ⟨_, mem_present.1 he, rfl⟩))
    (fun e he => h _ (mem_present.1 he) e.2 rfl)
  obtain ⟨k, d, hmem⟩ := hne
  refine ⟨hfits, ⟨(map_fst_present_sublist fields).nodup hnodup, hdistinct⟩, ⟨?_, hkeyed⟩,
    fun sp => Nat.succ_le_succ (hdepth sp)⟩
  exact List.ne_nil_of_mem (mem_present.2 hmem)

end

end Doc

namespace Config

/-! ### Writing -/

theorem pathDoc_eq_ok {p : Path} (h : p.IsText) : pathDoc p = .ok (.text p.display) := by
  rw [pathDoc, h.toString?_eq]

theorem pathDoc_eq_error {p : Path} (h : ¬ p.IsText) : pathDoc p = .error .pathNotText := by
  rw [pathDoc, Path.toString?_eq_none_iff.2 h]

/-- The paths of the files of the encrypted listener. -/
def Tls.paths (t : Tls) : List Path := [t.certificate, t.privateKey, t.clientCas]

/-- The block of files whose paths are texts. -/
def Tls.doc (t : Tls) : Doc := .record
  [("certificate", some (.text t.certificate.display)),
    ("private_key", some (.text t.privateKey.display)),
    ("client_cas", some (.text t.clientCas.display))]

theorem tlsDoc_eq_ok {t : Tls} (h : ∀ p ∈ t.paths, p.IsText) : tlsDoc t = .ok t.doc := by
  rw [tlsDoc, pathDoc_eq_ok (h _ (by simp [Tls.paths])), pathDoc_eq_ok (h _ (by simp [Tls.paths])),
    pathDoc_eq_ok (h _ (by simp [Tls.paths]))]
  rfl

theorem tlsDoc_eq_error {t : Tls} (h : ∃ p ∈ t.paths, ¬ p.IsText) :
    tlsDoc t = .error .pathNotText := by
  obtain ⟨p, hp, hnot⟩ := h
  rw [tlsDoc]
  by_cases hcertificate : t.certificate.IsText
  · by_cases hkey : t.privateKey.IsText
    · have hcas : ¬ t.clientCas.IsText := by
        simp only [Tls.paths, List.mem_cons, List.not_mem_nil, or_false] at hp
        obtain rfl | rfl | rfl := hp
        · exact absurd hcertificate hnot
        · exact absurd hkey hnot
        · exact hnot
      rw [pathDoc_eq_ok hcertificate, pathDoc_eq_ok hkey, pathDoc_eq_error hcas]
      rfl
    · rw [pathDoc_eq_ok hcertificate, pathDoc_eq_error hkey]
      rfl
  · rw [pathDoc_eq_error hcertificate]
    rfl

/-- The block of the listener, if all paths are texts. -/
def listenDoc (c : Config) : Doc := .record
  [("port", some (.number c.port.toNat)), ("tls", c.tls.map Tls.doc)]

/-- **The document of a configuration whose paths are texts.** -/
def doc (c : Config) : Doc := .record
  [("id", some (.text c.id)), ("log_level", some (.text c.logLevel)),
    ("concurrent_captures", c.concurrentCaptures.map fun n => .number n.toNat),
    ("buffer", c.buffer.map bufferDoc), ("listen", some c.listenDoc), ("bosh", c.bosh.map boshDoc),
    ("enable_ip_restriction", some (.flag c.enableIpRestriction)),
    ("cidr_allowlist", c.cidrAllowlist.map fun p => .text p.display)]

section

variable {c : Config}

theorem mem_paths {p : Path} :
    p ∈ c.paths ↔ (∃ t ∈ c.tls, p ∈ t.paths) ∨ p ∈ c.cidrAllowlist := by
  rw [paths, List.mem_append, Option.mem_toList]
  cases c.tls with
  | none => simp
  | some t => simp [Tls.paths]

theorem entryIfAny_eq_ok {α : Type} (key : String) (a? : Option α)
    {write : α → Except Failure Doc} {shown : α → Doc} (h : ∀ a ∈ a?, write a = .ok (shown a)) :
    entryIfAny key write a? = .ok (present [(key, a?.map shown)]) := by
  cases a? with
  | none => rfl
  | some a => rw [entryIfAny, h a rfl]; rfl

/-- **A document is written if all paths are texts.** -/
theorem toDoc_eq_ok (h : ∀ p ∈ c.paths, p.IsText) : c.toDoc = .ok c.doc := by
  have htls := entryIfAny_eq_ok "tls" c.tls fun t ht =>
    tlsDoc_eq_ok (t := t) fun p hp => h p (mem_paths.2 (.inl ⟨t, ht, hp⟩))
  have hallowlist := entryIfAny_eq_ok "cidr_allowlist" c.cidrAllowlist fun p hp =>
    pathDoc_eq_ok (h p (mem_paths.2 (.inr hp)))
  rw [toDoc, htls, hallowlist]
  obtain ⟨id, logLevel, concurrentCaptures, buffer, port, tls, bosh, enable, allowlist⟩ := c
  cases concurrentCaptures <;> cases buffer <;> cases bosh <;> rfl

/-- A path that is no text cannot be written. -/
theorem toDoc_eq_error (h : ∃ p ∈ c.paths, ¬ p.IsText) : c.toDoc = .error .pathNotText := by
  obtain ⟨p, hp, hnot⟩ := h
  rw [toDoc]
  -- The files of the encrypted listener come first.
  by_cases htexts : ∀ t ∈ c.tls, ∀ p ∈ t.paths, p.IsText
  · obtain ⟨t, ht, hpt⟩ | hallowlist := mem_paths.1 hp
    · exact absurd (htexts t ht p hpt) hnot
    · have htls := entryIfAny_eq_ok "tls" c.tls fun t ht =>
        tlsDoc_eq_ok (htexts t ht)
      rw [htls, Option.mem_def.1 hallowlist, entryIfAny, pathDoc_eq_error hnot]
      rfl
  · obtain ⟨t, ht, hbad⟩ : ∃ t ∈ c.tls, ∃ p ∈ t.paths, ¬ p.IsText := by
      simpa using htexts
    rw [Option.mem_def.1 ht, entryIfAny, tlsDoc_eq_error hbad]
    rfl

end

/-! ### The blocks as records -/

theorem bufferDoc_eq_record (b : Buffer) : bufferDoc b = .record
    [("size", some (.number b.size.toNat)), ("upper_limit", some (.number b.upperLimit.toNat)),
      ("lower_limit", some (.number b.lowerLimit.toNat))] := rfl

theorem mtlsDoc_eq_record (m : Mtls) : mtlsDoc m = .record
    [("common_name", some (.text m.commonName)), ("skip_verify", some (.flag m.skipVerify))] := rfl

theorem boshDoc_eq_record (b : Bosh) : boshDoc b = .record
    [("agent_port", some (.number b.agentPort.toNat)), ("director_url", some (.text b.directorUrl)),
      ("token_scope", some (.text b.tokenScope)), ("mtls", b.mtls.map mtlsDoc)] := by
  obtain ⟨agentPort, directorUrl, tokenScope, mtls⟩ := b
  cases mtls <;> rfl

/-! ### Reading -/

section

variable {σ : Type} [Scalar σ] {sp : Doc.Spelling σ} (hsp : sp.Lawful)

include hsp

open Layout Reader

theorem reads_path {p : Path} (h : p.IsText) :
    (Reading.path : Reader σ Path).Reads sp (.text p.display) p := by
  have hpath := (reads_textAs hsp "path string" p.display).map Path.ofString
  rwa [h.ofString_display] at hpath

theorem reads_buffer (b : Buffer) :
    (Reading.buffer : Reader σ Buffer).Reads sp (bufferDoc b) b := by
  rw [bufferDoc_eq_record]
  refine Layout.Reads.record hsp _ ?_ rfl (by simp)
  obtain ⟨size, upperLimit, lowerLimit⟩ := b
  exact .seq (.seq (.map Buffer.mk (.field rfl (reads_u64 hsp size)))
    (.field rfl (reads_u64 hsp upperLimit))) (.field rfl (reads_u64 hsp lowerLimit))

theorem reads_tls {t : Tls} (h : ∀ p ∈ t.paths, p.IsText) :
    (Reading.tls : Reader σ Tls).Reads sp t.doc t := by
  refine Layout.Reads.record hsp _ ?_ rfl (by simp)
  obtain ⟨certificate, privateKey, clientCas⟩ := t
  simp only [Tls.paths, List.forall_mem_cons] at h
  exact .seq (.seq (.map Tls.mk (.field rfl (reads_path hsp h.1)))
    (.field rfl (reads_path hsp h.2.1))) (.field rfl (reads_path hsp h.2.2.1))

theorem reads_listen {c : Config} (h : ∀ p ∈ c.paths, p.IsText) :
    (Reading.listen : Reader σ (UInt16 × Option Tls)).Reads sp c.listenDoc (c.port, c.tls) := by
  refine Layout.Reads.record hsp _ ?_ rfl (by simp)
  exact .seq (.map Prod.mk (.field rfl (reads_u16 hsp c.port)))
    (.fieldOr hsp rfl fun t ht => reads_tls hsp fun p hp => h p (mem_paths.2 (.inl ⟨t, ht, hp⟩)))

theorem reads_mtls (m : Mtls) : (Reading.mtls : Reader σ Mtls).Reads sp (mtlsDoc m) m := by
  rw [mtlsDoc_eq_record]
  refine Layout.Reads.record hsp _ ?_ rfl (by simp)
  obtain ⟨commonName, skipVerify⟩ := m
  exact .seq (.map Mtls.mk (.field rfl (reads_textAs hsp _ commonName)))
    (.field rfl (reads_truth hsp skipVerify))

theorem reads_bosh (b : Bosh) : (Reading.bosh : Reader σ Bosh).Reads sp (boshDoc b) b := by
  rw [boshDoc_eq_record]
  refine Layout.Reads.record hsp _ ?_ rfl (by simp)
  obtain ⟨agentPort, directorUrl, tokenScope, mtls⟩ := b
  exact .seq (.seq (.seq (.map Bosh.mk (.field rfl (reads_u16 hsp agentPort)))
    (.field rfl (reads_textAs hsp _ directorUrl))) (.field rfl (reads_textAs hsp _ tokenScope)))
    (.fieldOr hsp rfl fun m _ => reads_mtls hsp m)

/-- **A document is read back as what it was written for.** -/
theorem reads_doc {c : Config} (h : ∀ p ∈ c.paths, p.IsText) :
    (Reading.config : Reader σ Config).Reads sp c.doc c := by
  refine Layout.Reads.record hsp _ ?_ rfl (by simp)
  have hlisten := reads_listen hsp h
  have hallowlist (p : Path) (hp : p ∈ c.cidrAllowlist) :=
    reads_path hsp (h p (mem_paths.2 (.inr hp)))
  exact .seq (.seq (.seq (.seq (.seq (.seq (.seq (.map _
    (.field rfl (reads_textAs hsp _ c.id))) (.field rfl (reads_textAs hsp _ c.logLevel)))
    (.fieldOr hsp rfl fun n _ => reads_u32 hsp n)) (.fieldOr hsp rfl fun b _ => reads_buffer hsp b))
    (.field rfl hlisten)) (.fieldOr hsp rfl fun b _ => reads_bosh hsp b))
    (.field rfl (reads_truth hsp c.enableIpRestriction))) (.fieldOr hsp rfl hallowlist)

end

/-! ### Both notations -/

theorem isSound_u64 (depth : Nat) (n : UInt64) : Doc.IsSound depth (.number n.toNat) :=
  Doc.isSound_number n.toNat_lt

theorem isSound_u32 (depth : Nat) (n : UInt32) : Doc.IsSound depth (.number n.toNat) :=
  Doc.isSound_number (Nat.lt_trans n.toNat_lt (by decide))

theorem isSound_u16 (depth : Nat) (n : UInt16) : Doc.IsSound depth (.number n.toNat) :=
  Doc.isSound_number (Nat.lt_trans n.toNat_lt (by decide))

section

open Doc

theorem isSound_bufferDoc (depth : Nat) (b : Buffer) : (bufferDoc b).IsSound (depth + 1) := by
  rw [bufferDoc_eq_record]
  refine isSound_record ["size", "upper_limit", "lower_limit"] rfl (by decide) (by decide)
    ⟨_, _, List.mem_cons_self⟩ ?_
  exact ((areSound_nil.field (isSound_u64 depth _)).field (isSound_u64 depth _)).field
    (isSound_u64 depth _)

theorem isSound_tls (depth : Nat) (t : Tls) : t.doc.IsSound (depth + 1) := by
  refine isSound_record ["certificate", "private_key", "client_cas"] rfl (by decide) (by decide)
    ⟨_, _, List.mem_cons_self⟩ ?_
  exact ((areSound_nil.field (isSound_text _)).field (isSound_text _)).field (isSound_text _)

theorem isSound_listenDoc (depth : Nat) (c : Config) : c.listenDoc.IsSound (depth + 2) := by
  refine isSound_record ["port", "tls"] rfl (by decide) (by decide) ⟨_, _, List.mem_cons_self⟩ ?_
  exact (areSound_nil.fieldOr fun t _ => isSound_tls depth t).field (isSound_u16 _ _)

theorem isSound_mtlsDoc (depth : Nat) (m : Mtls) : (mtlsDoc m).IsSound (depth + 1) := by
  rw [mtlsDoc_eq_record]
  refine isSound_record ["common_name", "skip_verify"] rfl (by decide) (by decide)
    ⟨_, _, List.mem_cons_self⟩ ?_
  exact (areSound_nil.field (isSound_flag _)).field (isSound_text _)

theorem isSound_boshDoc (depth : Nat) (b : Bosh) : (boshDoc b).IsSound (depth + 2) := by
  rw [boshDoc_eq_record]
  refine isSound_record ["agent_port", "director_url", "token_scope", "mtls"] rfl (by decide)
    (by decide) ⟨_, _, List.mem_cons_self⟩ ?_
  exact (((areSound_nil.fieldOr fun m _ => isSound_mtlsDoc depth m).field (isSound_text _)).field
    (isSound_text _)).field (isSound_u16 _ _)

/-- **Both notations can write a configuration.** -/
theorem isSound_doc (c : Config) : c.doc.IsSound 3 := by
  refine isSound_record ["id", "log_level", "concurrent_captures", "buffer", "listen", "bosh",
    "enable_ip_restriction", "cidr_allowlist"] rfl (by decide) (by decide)
    ⟨_, _, List.mem_cons_self⟩ ?_
  exact (((((((areSound_nil.fieldOr fun p _ => isSound_text _).field (isSound_flag _)).fieldOr
    fun b _ => isSound_boshDoc 0 b).field (isSound_listenDoc 0 c)).fieldOr
    fun b _ => isSound_bufferDoc 1 b).fieldOr fun n _ => isSound_u32 2 n).field
    (isSound_text _)).field (isSound_text _)

end

end Config

end CaptureConfig

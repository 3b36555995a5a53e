/-
**What is written as the sample can be read.**

The sample is one text, whatever the name of the file that it is written to, while the notation that
a file is read in is told by its name.  So the sample is read back under the names of the notation
that it is in, and under no other.  Then it is a property file that leads to a document without any
file beside it, and there is nothing to say about it.

Main definitions:

* `Sample.chars`, `Sample.tokens` — the sample line by line, and what it consists of;
* `Sample.file`, `Sample.outcome` — the property file that it is, and what this leads to.

Main results:

* `Sample.ofText_text` — what the sample is in each notation;
* `Sample.loads_of_write` — **what is written can be loaded**, under the names of its notation;
* `Sample.refused_foo` — under another name it cannot.
-/

import CaptureConfig.Proofs.Loading
import CaptureConfig.Proofs.Property.Format
import CaptureConfig.Proofs.Sample.Writing
import CaptureConfig.Proofs.Utf8
import CaptureConfig.Proofs.Yaml.Document

set_option relaxedAutoImplicit false
set_option autoImplicit false

namespace CaptureConfig

namespace Sample

/-! ### The sample as a text -/

/-- The characters of the sample, line by line. -/
def chars : List Char := lines.flatMap fun l => l.toList ++ ['\n']

theorem toList_text : text.toList = chars := by
  rw [text, chars]
  induction lines with
  | nil => rfl
  | cons l rest ih =>
      rw [List.map_cons, String.join_cons, String.toList_append, String.toList_append, ih]
      rfl

/-- A word that is written plainly. -/
def word (s : String) : Yaml.Token := .scalar s.toList .plainly

/-- What the sample consists of. -/
def tokens : List Yaml.Token :=
  [.blockMapping,
    .key, word "pcap-api", .value, .blockMapping,
      .key, word "log_level", .value, word "info",
      .key, word "concurrent_captures", .value, word "5",
      .key, word "buffer", .value, .blockMapping,
        .key, word "size", .value, word "100",
        .key, word "upper_limit", .value, word "98",
        .key, word "lower_limit", .value, word "90", .blockEnd,
      .key, word "listen", .value, .blockMapping,
        .key, word "port", .value, word "8080", .blockEnd,
      .key, word "bosh", .value, .blockMapping,
        .key, word "agent_port", .value, word "9495",
        .key, word "director_url", .value, word "https://bosh.service.cf.internal:25555",
        .key, word "token_scope", .value, word "bosh.admin", .blockEnd,
      .key, word "enable_ip_restriction", .value, word "false", .blockEnd,
    .key, word "spec", .value, .blockMapping,
      .key, word "id", .value, word "f9281cda-1234-bbcd-ef12-1337cafe0048", .blockEnd, .blockEnd,
    .streamEnd]

/-- What the readers of block notation and of attributes find in the sample: just what it consists
of, and no attributes. -/
theorem found_chars : (Yaml.IsPrinted chars ∧ Yaml.tokens chars = tokens) ∧
    (Hcl.body (Hcl.fuelFor chars) false [] chars).isNone = true := by
  decide +kernel

/-- The sample starts with a remark. -/
theorem exists_chars_eq_cons : ∃ rest, chars = '#' :: rest := ⟨_, rfl⟩

/-- The property file that the sample is. -/
def file : PropertyFile where
  properties :=
    { Properties.empty with
      logLevel := some "info"
      concurrentCaptures := some 5
      buffer := some ⟨100, 98, 90⟩
      listen := some ⟨some 8080, none⟩
      bosh := some ⟨9495, "https://bosh.service.cf.internal:25555", "bosh.admin", none⟩
      enableIpRestriction := some false }
  instanceData := ⟨some "f9281cda-1234-bbcd-ef12-1337cafe0048"⟩

theorem ofText_yaml : PropertyFile.ofText .yaml text = .ok file := by
  obtain ⟨⟨hprinted, htokens⟩, -⟩ := found_chars
  rw [← toList_text] at hprinted htokens
  show Reader.document _ _ = _
  rw [Yaml.document_of_tokens hprinted tokens htokens rfl]
  rfl

/-- In strict notation no value starts like a remark. -/
theorem ofText_json : PropertyFile.ofText .json text = .error .malformed := by
  obtain ⟨rest, hchars⟩ := exists_chars_eq_cons
  have hdocument (u : Uses) : Json.document u text = ⟨.broken, false⟩ := by
    rw [Json.document, toList_text, hchars]
    rfl
  show Reader.document _ _ = _
  rw [hdocument]
  rfl

theorem ofText_hcl : PropertyFile.ofText .hcl text = .error .malformed := by
  have hdocument : Hcl.document text = ⟨.broken, false⟩ := by
    rw [Hcl.document, toList_text]
    simp only [Option.isNone_iff_eq_none.1 found_chars.2]
  show Reader.document _ _ = _
  rw [hdocument]
  rfl

/-- **What the sample is in each notation**: a property file in block notation, and nothing in the
others. -/
theorem ofText_text (format : Format) : PropertyFile.ofText format text =
    if format = .yaml then .ok file else .error .malformed := by
  cases format with
  | yaml => exact ofText_yaml
  | json => exact ofText_json
  | hcl => exact ofText_hcl

/-! ### What the sample leads to -/

/-- What the sample leads to, whatever the root. -/
def outcome : Outcome where
  config :=
    { id := "pcap-api/f9281cda-1234-bbcd-ef12-1337cafe0048", logLevel := "info",
      concurrentCaptures := some 5, buffer := some ⟨100, 98, 90⟩, port := 8080, tls := none,
      bosh := some ⟨9495, "https://bosh.service.cf.internal:25555", "bosh.admin", none⟩,
      enableIpRestriction := false, cidrAllowlist := none }
  materials := ⟨[]⟩
  report := ⟨[]⟩

theorem resolve_file (root : Path) : (file.resolve none root).result = .ok outcome := rfl

theorem result_ofOctets_text (p : Path) (format : Format) :
    (PropertyFile.ofOctets p format (Utf8.encode text)).result =
      if format = .yaml then .ok file else .error (.parse p .malformed) := by
  have hdecode := Utf8.decode?_encode text
  have hfile := ofText_text format
  -- What the octets are is known, and need not be looked at again.
  generalize Utf8.encode text = octets at hdecode ⊢
  generalize text = s at hdecode hfile
  rw [PropertyFile.ofOctets, hdecode]
  simp only [hfile]
  cases format <;> rfl

/-- What comes of the sample where it is read, by the name of the file. -/
theorem result_ofReading_text (p root : Path) :
    (Outcome.ofReading p (.ok (Utf8.encode text)) none root).result =
      match Format.ofPath? p with
      | none => .error (.unsupportedFormat p)
      | some .yaml => .ok outcome
      | some _ => .error (.parse p .malformed) := by
  rw [Outcome.ofReading, Traced.result_bind, PropertyFile.ofReading]
  cases Format.ofPath? p with
  | none => rfl
  | some format =>
      simp only [result_ofOctets_text]
      cases format with
      | yaml => exact resolve_file root
      | json => rfl
      | hcl => rfl

/-- What comes of a file that cannot be read, by the name of the file. -/
theorem result_ofReading_error (p root : Path) (why : Refusal) :
    (Outcome.ofReading p (.error why) none root).result =
      .error (if Format.ofPath? p = none then .unsupportedFormat p else .unreadable p why) := by
  rw [Outcome.ofReading, Traced.result_bind, PropertyFile.ofReading]
  cases Format.ofPath? p <;> rfl

/-! ### Writing and loading -/

section

variable {t t' : FileTree} {p : Path}

/-- A file that comes to a place may be read, unless it has the permissions of one that could
not. -/
theorem readable_iff (old : Option File) (contents : List UInt8) :
    (⟨(old.map File.mode).getD 0o644, contents⟩ : File).readable = true ↔
      ∀ f, old = some f → f.readable = true := by
  cases old with
  | none =>
      refine ⟨fun _ _ h => (nomatch h), fun _ => ?_⟩
      show Nat.testBit 0o644 8 = true
      decide
  | some f => exact ⟨fun h g hg => Option.some.inj hg ▸ h, fun h => h f rfl⟩

/-- What was written is read, if the file may be read. -/
theorem read_of_write (h : (write p : StateM FileTree _) t = (.ok (), t')) : t'.read p =
    if (⟨((t.root.fileAt? (t.place p)).map File.mode).getD 0o644, Utf8.encode text⟩ : File).readable
    then .ok (Utf8.encode text) else .error .permissionDenied := by
  have hfile := file_of_write h
  generalize Utf8.encode text = octets at hfile ⊢
  rw [FileTree.read, hfile]
  rfl

end

end Sample

/-- **A name for block notation**: its extension is one of two, whatever the case of its letters. -/
def Path.IsForBlocks (p : Path) : Prop :=
  ∃ ext, p.extension?.bind Utf8.decode? = some ext ∧
    (Text.lowerAscii ext = "yml" ∨ Text.lowerAscii ext = "yaml")

theorem Format.ofPath?_eq_yaml_iff {p : Path} : ofPath? p = some .yaml ↔ p.IsForBlocks := by
  rw [ofPath?, Option.bind_eq_some_iff, Path.IsForBlocks]
  refine exists_congr fun ext => and_congr_right fun _ => ?_
  rw [ofExtension?_eq_some_iff]
  simp [extensions]

namespace Sample

/-- **What is written as the sample can be loaded**, under a name for block notation: it leads to a
document without files beside it, below any root, and there is nothing to say about it.  Under
another name it cannot be loaded, for just that reason. -/
theorem loads_of_write {t t' : FileTree} {p : Path}
    (h : (write p : StateM FileTree _) t = (.ok (), t')) (root : Path) :
    ∃ loaded : Traced Outcome, (Outcome.load p none root : StateM FileTree _) t' = (loaded, t') ∧
      ((∃ o, loaded.result = .ok o) ↔ p.IsForBlocks ∧
        ∀ f, t.root.fileAt? (t.place p) = some f → f.readable = true) ∧
      (∀ o, loaded.result = .ok o → o.report = .empty ∧ o.materials.files = []) ∧
      ∀ e, loaded.result = .error e → e.kind = .load ∧
        (Format.ofPath? p = none → e = .unsupportedFormat p) := by
  refine ⟨_, Outcome.load_run p none root t', ?_⟩
  rw [read_of_write h, ← readable_iff _ (Utf8.encode text), ← Format.ofPath?_eq_yaml_iff]
  split
  next readable =>
    rw [result_ofReading_text]
    cases Format.ofPath? p with
    | none => simp [Failure.kind]
    | some format => cases format <;> simp [readable, outcome, Report.empty, Failure.kind]
  next unreadable =>
    rw [result_ofReading_error]
    cases Format.ofPath? p <;> simp [unreadable, Failure.kind]

/-- A tree with nothing in it. -/
def bare : FileTree := ⟨.directory [], []⟩

theorem loads_of_write_sample :
    ∃ t', (write (.ofString "pcap-api.yml") : StateM FileTree _) bare = (.ok (), t') ∧
      ∀ root, ∃ loaded : Traced Outcome,
        (Outcome.load (.ofString "pcap-api.yml") none root : StateM FileTree _) t' = (loaded, t') ∧
          ∃ o, loaded.result = .ok o ∧ o.report = .empty ∧ o.materials.files = [] := by
  have hwrite := eq_ok_of_isSome ((write (.ofString "pcap-api.yml") : StateM FileTree _) bare)
    (by decide +kernel)
  refine ⟨_, hwrite, fun root => ?_⟩
  obtain ⟨loaded, hload, hsuccess, hclean, -⟩ := loads_of_write hwrite root
  have hblocks : (Path.ofString "pcap-api.yml").IsForBlocks := ⟨"yml", by decide +kernel⟩
  have hnew : bare.root.fileAt? (bare.place (.ofString "pcap-api.yml")) = none := by decide +kernel
  obtain ⟨o, ho⟩ := hsuccess.2 ⟨hblocks, fun f hf => nomatch hnew.symm.trans hf⟩
  exact ⟨loaded, hload, o, ho, hclean o ho⟩

/-- **A name without extension**: the sample is written, but not read again. -/
theorem refused_foo : ∃ t', (write (.ofString "foo") : StateM FileTree _) bare = (.ok (), t') ∧
    ∀ root, ∃ loaded : Traced Outcome,
      (Outcome.load (.ofString "foo") none root : StateM FileTree _) t' = (loaded, t') ∧
        loaded.result = .error (.unsupportedFormat (.ofString "foo")) := by
  have hformat : Format.ofPath? (.ofString "foo") = none := by decide +kernel
  refine ⟨_, eq_ok_of_isSome _ (by decide +kernel), fun root =>
    ⟨_, Outcome.load_run _ none root _, ?_⟩⟩
  rw [Outcome.ofReading, Traced.result_bind, PropertyFile.ofReading, hformat]
  rfl

end Sample

end CaptureConfig

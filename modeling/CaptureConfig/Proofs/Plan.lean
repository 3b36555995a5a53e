/-
**The plan and the document describe the same files.**

The document names files and the plan says what goes into them; they are made side by side.  Here
they are put together again: the plan has exactly the files that the document names, each of them
once and in the same order, what goes into a file is what the operator wrote, and only the private
key is a secret.  Below a root the files lie at places of their own, apart from each other and from
the documents, whatever the octets of the root are.

Main definitions:

* `Material.IsListedIn` — the text of an allowlist;
* `Material.Holds` — what a file of a kind has to hold;
* `Material.places` — everything that may be written below a root;
* `Outcome.IsPlanned` — the plan and the document describe the same files.

Main results:

* `Properties.isPlanned_of_resolve` — **a resolution plans exactly the files that its document
  names**, at places that are distinct and below the root.
-/

import CaptureConfig.Document.Form
import CaptureConfig.Proofs.Component
import CaptureConfig.Proofs.Rules

set_option relaxedAutoImplicit false
set_option autoImplicit false

namespace CaptureConfig

namespace Material

/-! ### Places -/

/-- The names below a root that lead to a file. -/
def Kind.names : Kind → List String
  | .certificate => ["certs", "pcap-api.crt"]
  | .privateKey => ["certs", "pcap-api.key"]
  | .clientCas => ["certs", "pcap-api-ca.crt"]
  | .cidrAllowlist => ["allowlist_cidrs.txt"]

/-- A name as a component. -/
def component (name : String) : Path.Component := .name (Utf8.encode name)

theorem components_place (root : Path) (k : Kind) :
    (place root k).components = root.components ++ k.names.map component := by
  have certs : (root.join "certs").components = root.components ++ [component "certs"] :=
    Path.components_join root (by decide)
  cases k with
  | certificate =>
      rw [place, Path.components_join _ (by decide), certs, List.append_assoc]
      rfl
  | privateKey =>
      rw [place, Path.components_join _ (by decide), certs, List.append_assoc]
      rfl
  | clientCas =>
      rw [place, Path.components_join _ (by decide), certs, List.append_assoc]
      rfl
  | cidrAllowlist => exact Path.components_join root (by decide)

theorem components_document (root : Path) (form : Config.Form) :
    (root.join form.fileName).components = root.components ++ [component form.fileName] := by
  cases form <;> exact Path.components_join root (by decide)

/-- **Everything that may be written below a root**: the four files and the two documents. -/
def places (root : Path) : List Path :=
  [place root .certificate, place root .privateKey, place root .clientCas,
    place root .cidrAllowlist, root.join (Config.Form.fileName .yaml),
    root.join (Config.Form.fileName .json)]

/-- The names below the root of everything that may be written. -/
def names : List (List String) :=
  [Kind.names .certificate, Kind.names .privateKey, Kind.names .clientCas,
    Kind.names .cidrAllowlist, [Config.Form.fileName .yaml], [Config.Form.fileName .json]]

theorem components_places (root : Path) : (places root).map Path.components =
    names.map fun ns => root.components ++ ns.map component := by
  simp only [places, names, List.map_cons, List.map_nil, components_place, components_document]

theorem nodup_names : (names.map fun ns => ns.map component).Nodup := by decide

/-- No two places have the same components. -/
theorem nodup_components_places (root : Path) : ((places root).map Path.components).Nodup := by
  have happend : names.map (fun ns => root.components ++ ns.map component) =
      (names.map fun ns => ns.map component).map (root.components ++ ·) := by
    rw [List.map_map]
    rfl
  rw [components_places, happend]
  exact List.Pairwise.map _ (fun a b hab h => hab (List.append_cancel_left h)) nodup_names

theorem prefix_of_mem_places {root q : Path} (h : q ∈ places root) :
    root.components <+: q.components := by
  have hq : q.components ∈ (places root).map Path.components := List.mem_map_of_mem h
  rw [components_places] at hq
  obtain ⟨ns, -, hns⟩ := List.mem_map.1 hq
  exact ⟨_, hns⟩

theorem place_injective (root : Path) {k l : Kind} (h : place root k = place root l) : k = l := by
  have hnames : k.names.map component = l.names.map component := by
    have := congrArg Path.components h
    rw [components_place, components_place] at this
    exact List.append_cancel_left this
  revert hnames
  cases k <;> cases l <;> decide

theorem Kind.isSecret_iff (k : Kind) : k.isSecret = true ↔ k = .privateKey := by
  cases k <;> decide

/-! ### Contents -/

/-- **The text of an allowlist**: a line for each entry that is more than blanks, in order and as
often as it is given, without the blanks around it. -/
inductive IsListedIn : List String → String → Prop
  | nil : IsListedIn [] ""
  | blank {entry : String} {rest : List String} {text : String} (h : Text.trim entry = "")
      (tail : IsListedIn rest text) : IsListedIn (entry :: rest) text
  | line {entry : String} {rest : List String} {text : String} (h : Text.trim entry ≠ "")
      (tail : IsListedIn rest text) :
      IsListedIn (entry :: rest) (Text.trim entry ++ "\n" ++ text)

theorem isListedIn_allowlistContents (list : List String) :
    IsListedIn list (Checked.allowlistContents (presentEntries (some list))) := by
  rw [presentEntries_eq_filter, Option.getD_some]
  induction list with
  | nil => exact .nil
  | cons entry rest ih =>
      by_cases h : Text.trim entry = ""
      · rw [List.filter_cons_of_neg (by simp [h])]
        exact .blank h ih
      · rw [List.filter_cons_of_pos (by simp [h]), Checked.allowlistContents, List.map_cons,
          String.join_cons]
        exact .line h ih

/-- **What a file of a kind has to hold** of what the operator wrote: a content of the block for
the encrypted listener just as it is, or the entries of the allowlist. -/
inductive Holds (p : Properties) : Kind → String → Prop
  | certificate {l : Properties.Listen} {t : Properties.Tls} {s : String}
      (given : p.listen = some l) (block : l.tls = some t) (content : t.certificate = some s) :
      Holds p .certificate s
  | privateKey {l : Properties.Listen} {t : Properties.Tls} {s : String}
      (given : p.listen = some l) (block : l.tls = some t) (content : t.privateKey = some s) :
      Holds p .privateKey s
  | clientCas {l : Properties.Listen} {t : Properties.Tls} {s : String}
      (given : p.listen = some l) (block : l.tls = some t) (content : t.ca = some s) :
      Holds p .clientCas s
  | cidrAllowlist {list : List String} {text : String} (given : p.cidrAllowlist = some list)
      (listed : IsListedIn list text) : Holds p .cidrAllowlist text

end Material

/-! ### The plan beside the document -/

/-- The path that a document names for a kind. -/
def Config.path? (c : Config) : Material.Kind → Option Path
  | .certificate => c.tls.map Config.Tls.certificate
  | .privateKey => c.tls.map Config.Tls.privateKey
  | .clientCas => c.tls.map Config.Tls.clientCas
  | .cidrAllowlist => c.cidrAllowlist

/-- **The plan and the document describe the same files**, which are places below the root and
hold what the operator wrote. -/
structure Outcome.IsPlanned (p : Properties) (root : Path) (o : Outcome) : Prop where
  /-- The plan has the paths of the document, all of them and no others, in their order. -/
  paths : o.materials.paths = o.config.paths
  /-- Each kind occurs at most once. -/
  kinds : (o.materials.files.map Material.File.kind).Nodup
  /-- The file of a kind is the one that the document names. -/
  get? : ∀ k, (o.materials.get? k).map Material.File.path = o.config.path? k
  /-- What the document names is a place below the root. -/
  placed : ∀ k q, o.config.path? k = some q → q = Material.place root k
  contents : ∀ f ∈ o.materials.files, Material.Holds p f.kind f.contents
  /-- Only the private key is a secret. -/
  secret : ∀ f ∈ o.materials.files,
    f.kind.isSecret = true ↔ ∃ t, o.config.tls = some t ∧ f.path = t.privateKey

namespace Checked

variable (c : Checked) (id : String) (root : Path)

theorem paths_plan : (c.plan root).paths = (c.config id root).paths := by
  obtain ⟨_, _, _, _, _, tls, _, list⟩ := c
  cases tls <;> cases list <;> rfl

theorem nodup_kinds_plan : ((c.plan root).files.map Material.File.kind).Nodup := by
  obtain ⟨_, _, _, _, _, tls, _, list⟩ := c
  cases tls <;> cases list <;> simp [plan, tlsFiles, allowlistFile]

theorem get?_plan (k : Material.Kind) :
    ((c.plan root).get? k).map Material.File.path = (c.config id root).path? k := by
  obtain ⟨_, _, _, _, _, tls, _, list⟩ := c
  cases k <;> cases tls <;> cases list <;> rfl

theorem eq_place_of_path? {k : Material.Kind} {q : Path}
    (h : (c.config id root).path? k = some q) : q = Material.place root k := by
  cases k <;> simp only [Config.path?, config, Option.map_map, Option.map_eq_some_iff] at h
  all_goals
    obtain ⟨_, -, rfl⟩ := h
    rfl

/-- A planned file is one of the encrypted listener or the one of the allowlist. -/
theorem mem_files_plan_iff {f : Material.File} : f ∈ (c.plan root).files ↔
    (∃ m, c.tls = some m ∧ f ∈ tlsFiles root m) ∨
      ∃ list, c.cidrAllowlist = some list ∧ f = allowlistFile root list := by
  rw [plan]
  cases c.tls <;> cases c.cidrAllowlist <;> simp

/-- A planned file lies where files of its kind lie. -/
theorem path_of_mem_files_plan {f : Material.File} (h : f ∈ (c.plan root).files) :
    f.path = Material.place root f.kind := by
  obtain ⟨m, -, hf⟩ | ⟨list, -, rfl⟩ := (c.mem_files_plan_iff root).1 h
  · simp only [tlsFiles, List.mem_cons, List.not_mem_nil, or_false] at hf
    obtain rfl | rfl | rfl := hf <;> rfl
  · rfl

theorem isSecret_iff_of_mem_files_plan {f : Material.File} (h : f ∈ (c.plan root).files) :
    f.kind.isSecret = true ↔ ∃ t, (c.config id root).tls = some t ∧ f.path = t.privateKey := by
  have hpath := c.path_of_mem_files_plan root h
  rw [Material.Kind.isSecret_iff]
  constructor
  · intro hk
    obtain ⟨m, hm, -⟩ | ⟨list, -, rfl⟩ := (c.mem_files_plan_iff root).1 h
    · exact ⟨tlsConfig root, by simp [config, hm], by rw [hpath, hk]; rfl⟩
    · exact absurd hk (by simp [allowlistFile])
  · rintro ⟨t, ht, hkey⟩
    obtain ⟨_, -, rfl⟩ := Option.map_eq_some_iff.1 ht
    exact Material.place_injective root (hpath.symm.trans hkey)

end Checked

namespace Properties

/-- The files of the encrypted listener hold the contents that the operator wrote. -/
theorem holds_of_mem_tlsFiles {p : Properties} {m : TlsMaterial} {root : Path}
    (h : p.withDefaults.material = .ok (some m)) {f : Material.File}
    (hf : f ∈ Checked.tlsFiles root m) : Material.Holds p f.kind f.contents := by
  obtain ⟨l, t, given, block, -, hm⟩ := Defaulted.material_withDefaults_eq_some_iff.1 h
  simp only [Tls.material_eq_ok_iff, Text.present_eq_some_iff] at hm
  obtain ⟨⟨certificate, -⟩, ⟨privateKey, -⟩, ⟨ca, -⟩⟩ := hm
  simp only [Checked.tlsFiles, List.mem_cons, List.not_mem_nil, or_false] at hf
  obtain rfl | rfl | rfl := hf
  · exact .certificate given block certificate
  · exact .privateKey given block privateKey
  · exact .clientCas given block ca

/-- The file of the allowlist lists the entries that the operator wrote. -/
theorem holds_allowlistContents {p : Properties} {list : List String} {findings : List Finding}
    (h : p.withDefaults.allowlist = .ok (some list, findings)) :
    Material.Holds p .cidrAllowlist (Checked.allowlistContents list) := by
  have hlist := Defaulted.allowlist_eq_ok_iff.1 h
  split at hlist
  next =>
    obtain ⟨hne, hlist, -⟩ := hlist
    obtain rfl := Option.some.inj hlist
    -- an allowlist that is not given has no entries
    cases given : p.cidrAllowlist with
    | none => exact absurd (by simp [withDefaults, given, presentEntries]) hne
    | some supplied =>
        have hsupplied : p.withDefaults.cidrAllowlist = some supplied := given
        rw [hsupplied]
        exact .cidrAllowlist given (Material.isListedIn_allowlistContents supplied)
  next => exact absurd hlist.1 (by simp)

/-- What the rules leave is planned as the operator wrote it. -/
theorem holds_of_mem_files_plan {p : Properties} {c : Checked} {r : Report} {root : Path}
    (hj : p.withDefaults.judge = .ok (c, r)) {f : Material.File} (hf : f ∈ (c.plan root).files) :
    Material.Holds p f.kind f.contents := by
  obtain ⟨list, _, tls, bosh, _, hlist, -, htls, -, -, rfl, -⟩ := Defaulted.judge_eq_ok_iff.1 hj
  obtain ⟨m, hm, hmem⟩ | ⟨entries, hentries, rfl⟩ :=
    (Checked.mem_files_plan_iff (p.withDefaults.checked tls bosh list) root).1 hf
  · obtain rfl : tls = some m := hm
    exact holds_of_mem_tlsFiles htls hmem
  · obtain rfl : list = some entries := hentries
    exact holds_allowlistContents hlist

/-- What is planned holds what the operator wrote. -/
theorem holds_of_resolve {p : Properties} {i : Instance} {root : Path} {o : Outcome}
    (h : (p.resolve i root).result = .ok o) :
    ∀ f ∈ o.materials.files, Material.Holds p f.kind f.contents := by
  obtain ⟨c, id, hj, -, -, hplan⟩ := resolve_eq_ok_iff.1 h
  rw [hplan]
  exact fun f hf => holds_of_mem_files_plan hj hf

/-- **A resolution plans exactly the files that its document names.**  Their places are distinct
from each other and from those of the documents, and lie below the root. -/
theorem isPlanned_of_resolve {p : Properties} {i : Instance} {root : Path} {o : Outcome}
    (h : (p.resolve i root).result = .ok o) :
    o.IsPlanned p root ∧ ((Material.places root).map Path.components).Nodup ∧
      ∀ q ∈ Material.places root, root.components <+: q.components := by
  obtain ⟨c, id, hj, -, hconfig, hplan⟩ := resolve_eq_ok_iff.1 h
  refine ⟨?_, Material.nodup_components_places root, fun q => Material.prefix_of_mem_places⟩
  exact
    { paths := by rw [hconfig, hplan, c.paths_plan id root]
      kinds := by rw [hplan]; exact c.nodup_kinds_plan root
      get? := by rw [hconfig, hplan]; exact c.get?_plan id root
      placed := by rw [hconfig]; exact fun k q => c.eq_place_of_path? id root
      contents := holds_of_resolve h
      secret := by
        rw [hconfig, hplan]
        exact fun f hf => c.isSecret_iff_of_mem_files_plan id root hf }

theorem isPlanned_ofEverything :
    (everything.resolve .blankEnded (.ofString "r/")).result = .ok .ofEverything ∧
      Outcome.ofEverything.IsPlanned everything (.ofString "r/") :=
  ⟨resolve_everything, (isPlanned_of_resolve resolve_everything).1⟩

end Properties

end CaptureConfig

/-
**What is written arrives.**

Files are delivered one after another into a tree of files that may hold anything.  Each delivery
makes directories at most, and then changes one file: the one that its path names in the end, whose
earlier contents are gone.  Paths that end with different names name different files, so that no
delivery undoes another one; and what no path names is as it was.

A configuration that was resolved for a root and delivered there can then be found: the document
reads back as the configuration, what the paths in it name holds what the operator wrote, and only
its owner may use the private key.

Main definitions:

* `Delivery.Leaves` — what one delivery leaves behind;
* `Delivered` — what deliveries leave behind;
* `Outcome.Arrives` — what writing a configuration leaves behind.

Main results:

* `Delivery.leaves_of_performAll` — a delivery changes one file;
* `delivered_of_deliver` — **deliveries under different names leave each other alone**;
* `Properties.arrives_of_write` — **a configuration that is written arrives**.
-/

import CaptureConfig.Delivery
import CaptureConfig.Proofs.Plan
import CaptureConfig.Proofs.RoundTrip
import CaptureConfig.Proofs.Store.Change

set_option relaxedAutoImplicit false
set_option autoImplicit false

namespace CaptureConfig

namespace Delivery

/-! ### One file -/

/-- The permissions of a file that is written in place of another one, or of none: a secret is for
its owner alone, other files keep theirs. -/
def modeOver (d : Delivery) (old : Option File) : Nat :=
  if d.isSecret then File.secretMode else (old.map File.mode).getD File.sharedMode

/-- **What one delivery leaves behind** at a place. -/
structure Leaves (d : Delivery) (t t' : FileTree) (l : Location) : Prop where
  grows : t.Grows t'
  located : t'.locate d.path = .ok l
  named : l.getLast? = d.path.target?
  file : t'.root.fileAt? l = some ⟨d.modeOver (t.root.fileAt? l), Utf8.encode d.contents⟩
  others : ∀ k, k ≠ l → t'.root.fileAt? k = t.root.fileAt? k

section

variable {d : Delivery} {t t' : FileTree}

theorem extends_of_directorySteps
    (h : (performAll d.directorySteps : StateM FileTree _) t = (.ok (), t')) : t.Extends t' := by
  rw [directorySteps] at h
  cases hparent : d.path.parent? with
  | none =>
      rw [hparent] at h
      cases h
      exact .refl t
  | some p =>
      rw [hparent] at h
      have hbuilds := FileTree.builds_makeDirectories p t
      rw [performAll_singleton_eq_ok_iff.1 h] at hbuilds
      exact hbuilds

/-- The empty file has the permissions that the file will have. -/
theorem puts_of_fileSteps (h : (performAll d.fileSteps : StateM FileTree _) t = (.ok (), t')) :
    ∃ l, t'.locate d.path = .ok l ∧ l.getLast? = d.path.target? ∧
      t.Puts t' l ⟨d.modeOver (t.root.fileAt? l), []⟩ := by
  rw [fileSteps] at h
  cases hsecret : d.isSecret with
  | false =>
      rw [hsecret, if_neg Bool.false_ne_true, performAll_singleton_eq_ok_iff] at h
      obtain ⟨l, hlocate, hname, hputs⟩ :=
        FileTree.puts_openEmpty (run_openEmpty_eq_ok_iff.1 h)
      refine ⟨l, hlocate, hname, ?_⟩
      rwa [modeOver, hsecret, if_neg Bool.false_ne_true]
  | true =>
      rw [hsecret, if_pos rfl, performAll_cons_eq_ok_iff] at h
      obtain ⟨t₁, hopen, hmode⟩ := h
      obtain ⟨l, hlocate, hname, hputs⟩ :=
        FileTree.puts_openEmpty (run_openEmpty_eq_ok_iff.1 hopen)
      -- The file may have been there before, with permissions of its own.
      have hsetMode := run_setMode_eq_ok_iff.1 (performAll_singleton_eq_ok_iff.1 hmode)
      have hopened := FileTree.file_eq_ok_iff.2 ⟨hlocate, hputs.file⟩
      have hputs' := FileTree.puts_setMode hopened hsetMode
      refine ⟨l, hputs'.grows.locate hlocate, hname, ?_⟩
      rw [modeOver, hsecret, if_pos rfl]
      exact hputs.trans hputs'

/-- **A delivery changes one file.** -/
theorem leaves_of_performAll (h : (performAll d.steps : StateM FileTree _) t = (.ok (), t')) :
    ∃ l, d.Leaves t t' l := by
  rw [steps, performAll_append_eq_ok_iff] at h
  obtain ⟨t₂, h, happend⟩ := h
  obtain ⟨t₁, hdirectories, hfile⟩ := performAll_append_eq_ok_iff.1 h
  have hextends := extends_of_directorySteps hdirectories
  obtain ⟨l, hlocate, hname, hputs⟩ := puts_of_fileSteps hfile
  have hputs' := FileTree.puts_append (FileTree.file_eq_ok_iff.2 ⟨hlocate, hputs.file⟩)
    (run_append_eq_ok_iff.1 (performAll_singleton_eq_ok_iff.1 happend))
  have hput := hputs.trans hputs'
  exact ⟨l,
    { grows := hextends.grows.trans hput.grows
      located := hputs'.grows.locate hlocate
      named := hname
      file := by rw [hput.file, hextends.files l]; rfl
      others := fun k hk => (hput.others k hk).trans (hextends.files k) }⟩

end

end Delivery

/-! ### Several files -/

/-- **What deliveries leave behind**: each its file, with the permissions of the file that was there
before all of them; and nothing else. -/
structure Delivered (ds : List Delivery) (t t' : FileTree) : Prop where
  grows : t.Grows t'
  file : ∀ d ∈ ds, ∃ l, t'.locate d.path = .ok l ∧ l.getLast? = d.path.target? ∧
    t'.root.fileAt? l = some ⟨d.modeOver (t.root.fileAt? l), Utf8.encode d.contents⟩
  others : ∀ k, (∀ d ∈ ds, t'.locate d.path ≠ .ok k) → t'.root.fileAt? k = t.root.fileAt? k

/-- The first delivery and the others. -/
theorem deliver_cons_eq_ok_iff {d : Delivery} {rest : List Delivery} {t t' : FileTree}
    {events : List Event} {written : List Path} :
    (deliver (d :: rest) : StateM FileTree _) t = (⟨events, .ok written⟩, t') ↔
      ∃ t₁ later others, (performAll d.steps : StateM FileTree _) t = (.ok (), t₁) ∧
        (deliver rest : StateM FileTree _) t₁ = (⟨later, .ok others⟩, t') ∧
        events = d.events ++ later ∧ written = d.path :: others := by
  rw [deliver, bind_run]
  generalize (performAll d.steps : StateM FileTree _) t = ran
  obtain ⟨result, t₁⟩ := ran
  cases result with
  | error refused => exact ⟨by rintro ⟨⟩, by rintro ⟨_, _, _, ⟨⟩, -⟩⟩
  | ok _ =>
      simp only [bind_run]
      constructor
      · intro h
        cases hrest : (deliver rest : StateM FileTree (Traced (List Path))) t₁ with
        | mk traced t₂ =>
            rw [hrest] at h
            obtain ⟨later, result⟩ := traced
            cases result with
            | error failure => cases h
            | ok others =>
                cases h
                exact ⟨t₁, later, others, rfl, hrest, rfl, rfl⟩
      · rintro ⟨_, later, others, ⟨⟩, hrest, rfl, rfl⟩
        rw [hrest]
        rfl

/-- **Deliveries under different names leave each other alone.** -/
theorem delivered_of_deliver {ds : List Delivery} {t t' : FileTree} {events : List Event}
    {written : List Path} (hnames : (ds.map fun d => d.path.target?).Nodup)
    (h : (deliver ds : StateM FileTree _) t = (⟨events, .ok written⟩, t')) :
    written = ds.map Delivery.path ∧ Delivered ds t t' := by
  induction ds generalizing t events written with
  | nil =>
      cases h
      exact ⟨rfl, .refl _, fun d hd => absurd hd List.not_mem_nil, fun _ _ => rfl⟩
  | cons d rest ih =>
      obtain ⟨hname, hnames⟩ := List.nodup_cons.1 hnames
      obtain ⟨t₁, later, others, hsteps, hrest, -, rfl⟩ := deliver_cons_eq_ok_iff.1 h
      obtain ⟨l, hl⟩ := Delivery.leaves_of_performAll hsteps
      obtain ⟨rfl, hothers⟩ := ih hnames hrest
      -- The file of this delivery has a name that no later one has.
      have hfree (e : Delivery) (he : e ∈ rest) {k : Location} (hk : k.getLast? = e.path.target?) :
          k ≠ l := by
        rintro rfl
        exact hname (List.mem_map.2 ⟨e, he, hk.symm.trans hl.named⟩)
      -- So none of them leads there, and the file stays as this delivery left it.
      have hkept : t'.root.fileAt? l = t₁.root.fileAt? l := by
        refine hothers.others l fun e he hlocate => ?_
        obtain ⟨k, hk, hlast, -⟩ := hothers.file e he
        exact hfree e he hlast (Except.ok.inj (hk.symm.trans hlocate))
      refine ⟨rfl, hl.grows.trans hothers.grows, fun e he => ?_, fun k hk => ?_⟩
      · obtain rfl | he := List.mem_cons.1 he
        · exact ⟨l, hothers.grows.locate hl.located, hl.named, hkept.trans hl.file⟩
        · obtain ⟨k, hlocate, hlast, hfile⟩ := hothers.file e he
          refine ⟨k, hlocate, hlast, ?_⟩
          rw [hfile, hl.others k (hfree e he hlast)]
      · rw [hothers.others k fun e he => hk e (List.mem_cons_of_mem d he)]
        refine hl.others k ?_
        rintro rfl
        exact hk d List.mem_cons_self (hothers.grows.locate hl.located)

/-! ### Names -/

namespace Material

/-- The file of a kind has the last of its names. -/
theorem target?_place (root : Path) (k : Kind) :
    (place root k).target? = k.names.getLast?.map Utf8.encode := by
  cases k <;> exact Path.target?_join _ (by decide)

theorem target?_document (root : Path) (form : Config.Form) :
    (root.join form.fileName).target? = some (Utf8.encode form.fileName) := by
  cases form <;> exact Path.target?_join _ (by decide)

theorem target?_place_injective (root : Path) {k l : Kind}
    (h : (place root k).target? = (place root l).target?) : k = l := by
  rw [target?_place, target?_place] at h
  revert h
  cases k <;> cases l <;> decide

theorem target?_place_ne_document (root document : Path) (k : Kind) (form : Config.Form) :
    (place root k).target? ≠ (document.join form.fileName).target? := by
  rw [target?_place, target?_document]
  cases k <;> cases form <;> decide

end Material

namespace Checked

variable (c : Checked) (id : String) (root : Path)

/-- The planned files and the document all have names of their own, wherever the document goes. -/
theorem nodup_targets (document : Path) (form : Config.Form) (s : String) (events : List Event) :
    ((⟨document.join form.fileName, s, false, events⟩ :: (c.plan root).deliveries).map
      fun d : Delivery => d.path.target?).Nodup := by
  have hpaths : (c.plan root).deliveries.map (fun d => d.path.target?) =
      ((c.plan root).files.map Material.File.kind).map
        fun k => (Material.place root k).target? := by
    rw [Material.Plan.deliveries, List.map_map, List.map_map]
    refine List.map_congr_left fun f hf => ?_
    exact congrArg Path.target? (c.path_of_mem_files_plan root hf)
  rw [List.map_cons, hpaths, List.nodup_cons]
  constructor
  · intro hmem
    obtain ⟨k, -, hk⟩ := List.mem_map.1 hmem
    exact Material.target?_place_ne_document root document k form hk
  · exact List.Pairwise.map _ (fun k l hkl h => hkl (Material.target?_place_injective root h))
      (c.nodup_kinds_plan root)

/-- A path that the document names is that of a planned file of its kind. -/
theorem exists_mem_files_plan {k : Material.Kind} {q : Path}
    (h : (c.config id root).path? k = some q) :
    ∃ f ∈ (c.plan root).files, f.kind = k ∧ f.path = q := by
  rw [← c.get?_plan id root k] at h
  obtain ⟨f, hf, hpath⟩ := Option.map_eq_some_iff.1 h
  rw [Material.Plan.get?] at hf
  have hkind := List.find?_some hf
  exact ⟨f, List.mem_of_find?_eq_some hf, of_decide_eq_true hkind, hpath⟩

end Checked

/-! ### Writing a configuration -/

/-- **What writing a configuration leaves behind**: files in place of those that were there, or of
none. -/
structure Outcome.Arrives (p : Properties) (o : Outcome) (form : Config.Form) (root : Path)
    (t t' : FileTree) (written : List Path) : Prop where
  paths : written = root.join form.fileName :: o.materials.paths
  current : t'.current = t.current
  /-- The document reads back as the configuration. -/
  document : ∃ l f s, t'.file (root.join form.fileName) = .ok (l, f) ∧
    f.contents = Utf8.encode s ∧ Config.ofText form s = .ok o.config
  /-- What the configuration names holds what the operator wrote, and nothing else. -/
  material : ∀ k q, o.config.path? k = some q → ∃ l f s, t'.file q = .ok (l, f) ∧
    f.contents = Utf8.encode s ∧ Material.Holds p k s
  /-- Only its owner may use the private key; other files keep their permissions. -/
  mode : ∀ q ∈ written, ∃ l f, t'.file q = .ok (l, f) ∧ f.mode =
    if o.config.path? .privateKey = some q then 0o600
    else ((t.root.fileAt? l).map File.mode).getD 0o644
  /-- What is not written to is as it was. -/
  others : ∀ l, (∀ q ∈ written, t'.locate q ≠ .ok l) → t'.root.fileAt? l = t.root.fileAt? l

namespace Delivered

variable {ds : List Delivery} {t t' : FileTree} {d : Delivery}

theorem exists_file (h : Delivered ds t t') (hd : d ∈ ds) :
    ∃ l, t'.file d.path = .ok (l, ⟨d.modeOver (t.root.fileAt? l), Utf8.encode d.contents⟩) := by
  obtain ⟨l, hlocate, -, hfile⟩ := h.file d hd
  exact ⟨l, FileTree.file_eq_ok_iff.2 ⟨hlocate, hfile⟩⟩

end Delivered

/-- What is written is a document that reads back, and the planned files. -/
theorem Outcome.deliver_of_write {o : Outcome} {form : Config.Form} {root : Path} {t t' : FileTree}
    {events : List Event} {written : List Path}
    (h : (o.write form root : StateM FileTree _) t = (⟨events, .ok written⟩, t')) :
    ∃ s, Config.ofText form s = .ok o.config ∧
      (deliver (⟨root.join form.fileName, s, false, []⟩ :: o.materials.deliveries) :
        StateM FileTree _) t = (⟨events, .ok written⟩, t') := by
  rw [write, deliveries] at h
  by_cases hbad : ∃ p ∈ o.config.paths, ¬ p.IsText
  · rw [Config.text_eq_error hbad] at h
    cases h
  · have htexts : ∀ p ∈ o.config.paths, p.IsText := by simpa using hbad
    rw [Config.text_eq_ok htexts] at h
    exact ⟨form.print o.config.doc, Config.ofText_print htexts form, h⟩

/-- The permissions of a planned file are those of its kind. -/
theorem Checked.modeOver_delivery (c : Checked) (id : String) (root : Path) {f : Material.File}
    (hf : f ∈ (c.plan root).files) (old : Option File) : f.delivery.modeOver old =
      if (c.config id root).path? .privateKey = some f.path then 0o600
      else (old.map File.mode).getD 0o644 := by
  have hsecret : f.kind.isSecret = true ↔ (c.config id root).path? .privateKey = some f.path := by
    rw [c.isSecret_iff_of_mem_files_plan id root hf, Config.path?, Option.map_eq_some_iff]
    exact exists_congr fun t => and_congr_right fun _ => eq_comm
  rw [Delivery.modeOver]
  by_cases h : f.kind.isSecret = true
  · rw [if_pos (hsecret.1 h)]
    exact if_pos h
  · rw [if_neg (mt hsecret.2 h)]
    exact if_neg h

namespace Properties

/-- **A configuration that is written arrives**, whatever the tree holds before. -/
theorem arrives_of_write {p : Properties} {i : Instance} {root : Path} {o : Outcome}
    {form : Config.Form} {t t' : FileTree} {events : List Event} {written : List Path}
    (hresolve : (p.resolve i root).result = .ok o)
    (hwrite : (o.write form root : StateM FileTree _) t = (⟨events, .ok written⟩, t')) :
    o.Arrives p form root t t' written := by
  obtain ⟨c, id, hj, -, hconfig, hplan⟩ := resolve_eq_ok_iff.1 hresolve
  obtain ⟨s, hs, hdeliver⟩ := Outcome.deliver_of_write hwrite
  have hnodup := c.nodup_targets root root form s []
  rw [← hplan] at hnodup
  obtain ⟨hwritten, hdelivered⟩ := delivered_of_deliver hnodup hdeliver
  obtain ⟨l₀, hdocument⟩ := hdelivered.exists_file List.mem_cons_self
  have hfile {f : Material.File} (hf : f ∈ o.materials.files) :=
    hdelivered.exists_file (List.mem_cons_of_mem _ (List.mem_map_of_mem hf))
  have hpaths : written = root.join form.fileName :: o.materials.paths := by
    rw [hwritten, List.map_cons, Material.Plan.deliveries, List.map_map]
    rfl
  exact
    { paths := hpaths
      current := hdelivered.grows.current
      document := ⟨l₀, _, s, hdocument, rfl, hs⟩
      material := by
        intro k q hq
        rw [hconfig] at hq
        obtain ⟨f, hf, rfl, rfl⟩ := c.exists_mem_files_plan id root hq
        obtain ⟨l, hl⟩ := hfile (hplan ▸ hf)
        exact ⟨l, _, f.contents, hl, rfl, holds_of_mem_files_plan hj hf⟩
      mode := by
        intro q hq
        rw [hpaths, List.mem_cons, hplan] at hq
        obtain rfl | hq := hq
        · refine ⟨l₀, _, hdocument, ?_⟩
          have hkey : o.config.path? .privateKey ≠ some (root.join form.fileName) := by
            rw [hconfig]
            intro hkey
            exact Material.target?_place_ne_document root root .privateKey form
              (congrArg Path.target? (c.eq_place_of_path? id root hkey).symm)
          rw [if_neg hkey]
          rfl
        · obtain ⟨f, hf, rfl⟩ := List.mem_map.1 hq
          obtain ⟨l, hl⟩ := hfile (hplan ▸ hf)
          exact ⟨l, _, hl, by rw [hconfig]; exact c.modeOver_delivery id root hf _⟩
      others := by
        intro l hl
        refine hdelivered.others l fun d hd => hl d.path ?_
        rw [hwritten]
        exact List.mem_map_of_mem hd }

/-- A tree in which there is a private key already that others may read. -/
def occupied : FileTree where
  root := .directory [(Utf8.encode "r", .directory [(Utf8.encode "certs", .directory
    [(Utf8.encode "pcap-api.key", .file ⟨0o644, Utf8.encode "a key that is longer"⟩)])])]
  current := []

/-- The hypothesis that a configuration is written is satisfiable. -/
theorem exists_write_ofEverything : ∃ events written t',
    (Outcome.ofEverything.write .yaml (.ofString "r/") : StateM FileTree _) occupied =
      (⟨events, .ok written⟩, t') := by
  have hsome : ((Outcome.ofEverything.write .yaml (.ofString "r/") :
      StateM FileTree (Traced (List Path))) occupied).1.result.toOption.isSome = true := by
    decide +kernel
  revert hsome
  generalize (Outcome.ofEverything.write .yaml (.ofString "r/") :
    StateM FileTree (Traced (List Path))) occupied = ran
  obtain ⟨⟨events, result⟩, t'⟩ := ran
  cases result with
  | error failure => rintro ⟨⟩
  | ok written => exact fun _ => ⟨events, written, t', rfl⟩

theorem arrives_ofEverything :
    (everything.resolve .blankEnded (.ofString "r/")).result = .ok .ofEverything ∧
      ∃ written t', Outcome.ofEverything.Arrives everything .yaml (.ofString "r/") occupied t'
        written := by
  obtain ⟨events, written, t', hwrite⟩ := exists_write_ofEverything
  exact ⟨resolve_everything, written, t', arrives_of_write resolve_everything hwrite⟩

end Properties

end CaptureConfig

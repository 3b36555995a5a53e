/-
**What a write that fails leaves behind.**

Files are delivered one after another, and the first delivery that fails is the last one.  A
delivery fails while its directories are made or when its file is to be emptied, and either way no
file has changed yet: what can be emptied can also be closed to others and be written.  So a write
that fails has written the files before a certain one as a whole, and none of the others in part.

Main definitions:

* `StoppedAt` — what a write leaves behind that fails at one of its files.

Main results:

* `Delivery.extends_of_refused` — **a delivery that fails changes no file**;
* `exists_of_deliver_eq_error` — deliveries are made up to the first that fails;
* `exists_delivered_of_deliver` — **deliveries that fail leave what a beginning of them leaves**;
* `Properties.stoppedAt_of_resolve` — **a write that fails leaves a clean beginning**.
-/

import CaptureConfig.Proofs.Concealment
import CaptureConfig.Proofs.Repetition

set_option relaxedAutoImplicit false
set_option autoImplicit false

namespace CaptureConfig

/-! ### Steps of which one is refused -/

section

variable {s : Step} {steps rest : List Step} {t t' : FileTree} {refused : Step × Refusal}

/-- Either the first step is refused, or it is done and a later one is refused. -/
theorem performAll_cons_eq_error_iff :
    (performAll (s :: rest) : StateM FileTree _) t = (.error refused, t') ↔
      (s.run t = (.error refused.2, t') ∧ refused.1 = s) ∨
        ∃ t₁, s.run t = (.ok (), t₁) ∧
          (performAll rest : StateM FileTree _) t₁ = (.error refused, t') := by
  rw [FileTree.performAll_cons_run]
  cases hrun : s.run t with
  | mk result t₁ =>
      cases result with
      | ok _ =>
          constructor
          · exact fun h => .inr ⟨t₁, rfl, h⟩
          · rintro (⟨⟨⟩, -⟩ | ⟨_, ⟨⟩, h⟩)
            exact h
      | error why =>
          constructor
          · rintro ⟨⟩
            exact .inl ⟨rfl, rfl⟩
          · rintro (⟨h, rfl⟩ | ⟨_, ⟨⟩, -⟩)
            cases h
            rfl

theorem performAll_singleton_eq_error_iff :
    (performAll [s] : StateM FileTree _) t = (.error refused, t') ↔
      s.run t = (.error refused.2, t') ∧ refused.1 = s := by
  rw [performAll_cons_eq_error_iff]
  exact ⟨fun h => h.resolve_right (by rintro ⟨_, -, ⟨⟩⟩), .inl⟩

/-- Either one of the first steps is refused, or they are done and a later one is refused. -/
theorem performAll_append_eq_error_iff :
    (performAll (steps ++ rest) : StateM FileTree _) t = (.error refused, t') ↔
      (performAll steps : StateM FileTree _) t = (.error refused, t') ∨
        ∃ t₁, (performAll steps : StateM FileTree _) t = (.ok (), t₁) ∧
          (performAll rest : StateM FileTree _) t₁ = (.error refused, t') := by
  rw [FileTree.performAll_append_run]
  cases (performAll steps : StateM FileTree (Except (Step × Refusal) Unit)) t with
  | mk result t₁ =>
      cases result with
      | ok _ => exact ⟨fun h => .inr ⟨t₁, rfl, h⟩, by rintro (⟨⟨⟩, -⟩ | ⟨_, ⟨⟩, h⟩); exact h⟩
      | error e => exact ⟨.inl, fun h => h.resolve_right (by rintro ⟨_, ⟨⟩, -⟩)⟩

end

namespace Delivery

/-! ### One file -/

section

variable {d : Delivery} {t t' : FileTree} {refused : Step × Refusal}

/-- Directories that cannot be made are those above the file, and some may have been made. -/
theorem refused_of_directorySteps
    (h : (performAll d.directorySteps : StateM FileTree _) t = (.error refused, t')) :
    t.Extends t' ∧ d.path.parent? = some refused.1.path := by
  rw [directorySteps] at h
  cases hparent : d.path.parent? with
  | none => rw [hparent] at h; cases h
  | some p =>
      rw [hparent] at h
      obtain ⟨hrun, hstep⟩ := performAll_singleton_eq_error_iff.1 h
      have hbuilds := FileTree.builds_makeDirectories p t
      rw [hrun] at hbuilds
      exact ⟨hbuilds, by rw [hstep]; rfl⟩

/-- A file that cannot be emptied is as it was; one that was emptied can be closed to others. -/
theorem refused_of_fileSteps
    (h : (performAll d.fileSteps : StateM FileTree _) t = (.error refused, t')) :
    t' = t ∧ refused.1.path = d.path := by
  have hopen {mode : Nat} (h : (Step.openEmpty d.path mode).run t = (.error refused.2, t')) :
      t' = t := by
    rw [Step.run] at h
    obtain ⟨t₁, -, hrun⟩ | ⟨why, -, hrun⟩ :=
      FileTree.change_cases (fun t => t.openEmpty d.path mode) t
    · rw [hrun] at h
      cases h
    · rw [hrun] at h
      cases h
      rfl
  rw [fileSteps] at h
  cases hsecret : d.isSecret with
  | false =>
      rw [hsecret, if_neg Bool.false_ne_true] at h
      obtain ⟨hrun, hstep⟩ := performAll_singleton_eq_error_iff.1 h
      exact ⟨hopen hrun, by rw [hstep]; rfl⟩
  | true =>
      rw [hsecret, if_pos rfl] at h
      obtain ⟨hrun, hstep⟩ | ⟨t₁, hrun, hmode⟩ := performAll_cons_eq_error_iff.1 h
      · exact ⟨hopen hrun, by rw [hstep]; rfl⟩
      · obtain ⟨l, hlocate, -, hputs⟩ := FileTree.puts_openEmpty (run_openEmpty_eq_ok_iff.1 hrun)
        obtain ⟨t₂, hset⟩ := FileTree.exists_setMode
          (FileTree.file_eq_ok_iff.2 ⟨hlocate, hputs.file⟩) File.secretMode
        obtain ⟨hmode, -⟩ := performAll_singleton_eq_error_iff.1 hmode
        rw [run_setMode_eq_ok_iff.2 hset] at hmode
        cases hmode

/-- **A delivery that fails changes no file**, and fails at its path or at the directory of it. -/
theorem extends_of_refused
    (h : (performAll d.steps : StateM FileTree _) t = (.error refused, t')) :
    t.Extends t' ∧ (refused.1.path = d.path ∨ d.path.parent? = some refused.1.path) := by
  rw [steps] at h
  obtain h | ⟨t₂, h, happend⟩ := performAll_append_eq_error_iff.1 h
  · obtain h | ⟨t₁, hdirectories, hfile⟩ := performAll_append_eq_error_iff.1 h
    · obtain ⟨hextends, hpath⟩ := refused_of_directorySteps h
      exact ⟨hextends, .inr hpath⟩
    · obtain ⟨rfl, hpath⟩ := refused_of_fileSteps hfile
      exact ⟨extends_of_directorySteps hdirectories, .inl hpath⟩
  · -- The file has been emptied, so it is there to be written.
    obtain ⟨t₁, -, hfile⟩ := performAll_append_eq_ok_iff.1 h
    obtain ⟨l, hlocate, -, hputs⟩ := puts_of_fileSteps hfile
    obtain ⟨t₃, hwritten⟩ := FileTree.exists_append
      (FileTree.file_eq_ok_iff.2 ⟨hlocate, hputs.file⟩) (Utf8.encode d.contents)
    obtain ⟨happend, -⟩ := performAll_singleton_eq_error_iff.1 happend
    rw [run_append_eq_ok_iff.2 hwritten] at happend
    cases happend

end

end Delivery

/-! ### Several files -/

section

variable {d : Delivery} {ds rest : List Delivery} {t t' t'' : FileTree} {events : List Event}
  {failure : Failure}

/-- Either the first delivery fails, or it is made and a later one fails. -/
theorem deliver_cons_eq_error_iff :
    (deliver (d :: rest) : StateM FileTree _) t = (⟨events, .error failure⟩, t') ↔
      (∃ refused, (performAll d.steps : StateM FileTree _) t = (.error refused, t') ∧
        events = [] ∧ failure = .unwritable refused.1.path refused.2) ∨
      ∃ t₁ later, (performAll d.steps : StateM FileTree _) t = (.ok (), t₁) ∧
        (deliver rest : StateM FileTree _) t₁ = (⟨later, .error failure⟩, t') ∧
        events = d.events ++ later := by
  rw [deliver, bind_run]
  generalize (performAll d.steps : StateM FileTree _) t = ran
  obtain ⟨result, t₁⟩ := ran
  cases result with
  | error refused =>
      constructor
      · rintro ⟨⟩
        exact .inl ⟨refused, rfl, rfl, rfl⟩
      · rintro (⟨_, ⟨⟩, rfl, rfl⟩ | ⟨_, _, ⟨⟩, -⟩)
        rfl
  | ok _ =>
      simp only [bind_run]
      cases hrest : (deliver rest : StateM FileTree (Traced (List Path))) t₁ with
      | mk traced t₂ =>
          obtain ⟨later, result⟩ := traced
          constructor
          · intro h
            cases result with
            | ok others => cases h
            | error e =>
                cases h
                exact .inr ⟨t₁, later, rfl, hrest, rfl⟩
          · rintro (⟨_, ⟨⟩, -⟩ | ⟨_, _, ⟨⟩, h, rfl⟩)
            rw [hrest] at h
            cases h
            rfl

/-- **Deliveries are made up to the first that fails.** -/
theorem exists_of_deliver_eq_error
    (h : (deliver ds : StateM FileTree _) t = (⟨events, .error failure⟩, t')) :
    ∃ before d after t₁ refused, ds = before ++ d :: after ∧
      (deliver before : StateM FileTree _) t = (⟨events, .ok (before.map Delivery.path)⟩, t₁) ∧
      (performAll d.steps : StateM FileTree _) t₁ = (.error refused, t') ∧
      failure = .unwritable refused.1.path refused.2 := by
  induction ds generalizing t events with
  | nil => cases h
  | cons d rest ih =>
      obtain ⟨refused, hrefused, rfl, hfailure⟩ | ⟨t₁, later, hsteps, hrest, rfl⟩ :=
        deliver_cons_eq_error_iff.1 h
      · exact ⟨[], d, rest, t, refused, rfl, rfl, hrefused, hfailure⟩
      · obtain ⟨before, e, after, t₂, refused, rfl, hbefore, hrefused, hfailure⟩ := ih hrest
        exact ⟨d :: before, e, after, t₂, refused, rfl,
          deliver_cons_eq_ok_iff.2 ⟨t₁, later, _, hsteps, hbefore, rfl, rfl⟩, hrefused, hfailure⟩

/-- Directories that are made behind deliveries leave what these have left. -/
theorem Delivered.of_extends (h : Delivered ds t t') (hextends : t'.Extends t'') :
    Delivered ds t t'' where
  grows := h.grows.trans hextends.grows
  file d hd := by
    obtain ⟨l, hlocate, hname, hfile⟩ := h.file d hd
    exact ⟨l, hextends.grows.locate hlocate, hname, (hextends.files l).trans hfile⟩
  others l hl := by
    rw [hextends.files l]
    exact h.others l fun d hd hlocate => hl d hd (hextends.grows.locate hlocate)

/-- **Deliveries that fail leave what a beginning of them leaves.** -/
theorem exists_delivered_of_deliver (hnames : (ds.map fun d => d.path.target?).Nodup)
    (h : (deliver ds : StateM FileTree _) t = (⟨events, .error failure⟩, t')) :
    ∃ before d after path why, ds = before ++ d :: after ∧ Delivered before t t' ∧
      failure = .unwritable path why ∧ (path = d.path ∨ d.path.parent? = some path) := by
  obtain ⟨before, d, after, t₁, refused, rfl, hbefore, hrefused, rfl⟩ :=
    exists_of_deliver_eq_error h
  obtain ⟨hextends, hpath⟩ := Delivery.extends_of_refused hrefused
  rw [List.map_append] at hnames
  have hdelivered := (delivered_of_deliver (List.nodup_append.1 hnames).1 hbefore).2
  exact ⟨before, d, after, _, _, rfl, hdelivered.of_extends hextends, rfl, hpath⟩

/-- What has another name than what was delivered is as it was. -/
theorem Delivered.fileAt?_of_target? (h : Delivered ds t t') {p : Path} {name : Name}
    (hname : p.target? = some name) (hother : ∀ d ∈ ds, d.path.target? ≠ some name) {l : Location}
    (hlocate : t'.locate p = .ok l) : t'.root.fileAt? l = t.root.fileAt? l := by
  refine h.others l fun d hd hd' => hother d hd ?_
  obtain ⟨k, hk, hlast, -⟩ := h.file d hd
  obtain rfl : k = l := Except.ok.inj (hk.symm.trans hd')
  rw [← hlast]
  exact FileTree.getLast?_of_target? hlocate hname

end

/-! ### Writing a configuration -/

/-- **What a write leaves behind that fails at one of its files.** -/
structure StoppedAt (before : List Delivery) (d : Delivery) (after : List Delivery)
    (t t' : FileTree) : Prop where
  /-- The files before it are there as a whole, and secrets are for their owner alone. -/
  written : ∀ e ∈ before, ∃ l f, t'.file e.path = .ok (l, f) ∧
    f.contents = Utf8.encode e.contents ∧ (e.isSecret = true → f.mode = 0o600)
  /-- The file that is at one of the other paths is the one that was there. -/
  unwritten : ∀ e ∈ d :: after, (∀ found, t.file e.path = .ok found → t'.file e.path = .ok found) ∧
    ∀ l, t'.locate e.path = .ok l → t'.root.fileAt? l = t.root.fileAt? l
  /-- Every other place holds the file that it held, or none. -/
  others : ∀ l, (∀ e ∈ before, t'.locate e.path ≠ .ok l) → t'.root.fileAt? l = t.root.fileAt? l
  /-- Directories may have come, and none has gone. -/
  grows : t.Grows t'

/-- **Deliveries under different names of which one fails** leave the others alone. -/
theorem stoppedAt_of_delivered {before after : List Delivery} {d : Delivery} {t t' : FileTree}
    (hnames : ((before ++ d :: after).map fun d => d.path.target?).Nodup)
    (htargets : ∀ e ∈ d :: after, e.path.target?.isSome = true)
    (hdelivered : Delivered before t t') : StoppedAt before d after t t' := by
  have hkept (e : Delivery) (he : e ∈ d :: after) {l : Location}
      (hlocate : t'.locate e.path = .ok l) : t'.root.fileAt? l = t.root.fileAt? l := by
    obtain ⟨name, hname⟩ := Option.isSome_iff_exists.1 (htargets e he)
    refine hdelivered.fileAt?_of_target? hname (fun b hb hsame => ?_) hlocate
    rw [List.map_append, List.nodup_append] at hnames
    exact hnames.2.2 _ (List.mem_map_of_mem hb) _ (List.mem_map_of_mem he) (hsame.trans hname.symm)
  refine ⟨fun e he => ?_, fun e he => ⟨fun found hfound => ?_, fun l => hkept e he⟩,
    hdelivered.others, hdelivered.grows⟩
  · obtain ⟨l, hfile⟩ := hdelivered.exists_file he
    exact ⟨l, _, hfile, rfl, fun hsecret => if_pos hsecret⟩
  · obtain ⟨l, f⟩ := found
    obtain ⟨hlocate, hfile⟩ := FileTree.file_eq_ok_iff.1 hfound
    have hlocate' := hdelivered.grows.locate hlocate
    exact FileTree.file_eq_ok_iff.2 ⟨hlocate', (hkept e he hlocate').trans hfile⟩

/-- Only a document that is no text leaves nothing to write. -/
theorem Outcome.eq_pathNotText_of_deliveries {o : Outcome} {form : Config.Form} {document : Path}
    {e : Failure} (h : o.deliveries form document = .error e) : e = .pathNotText := by
  rw [deliveries] at h
  obtain htext | htext := o.config.text_cases form
  · rw [htext] at h
    cases h
  · rw [htext] at h
    exact (Except.error.inj h).symm

namespace Properties

variable {p : Properties} {i : Instance} {root : Path} {o : Outcome}

/-- The files that are written have names of their own, wherever the document goes. -/
theorem nodup_targets_of_resolve (hresolve : (p.resolve i root).result = .ok o)
    {form : Config.Form} {document : Path} {s : String} {ds : List Delivery}
    (hds : ds = ⟨document.join form.fileName, s, false, []⟩ :: o.materials.deliveries) :
    (ds.map fun d => d.path.target?).Nodup ∧ ∀ d ∈ ds, d.path.target?.isSome = true := by
  obtain ⟨c, id, -, -, -, hplan⟩ := resolve_eq_ok_iff.1 hresolve
  subst hds
  rw [hplan]
  refine ⟨c.nodup_targets root document form s [], fun d hd => ?_⟩
  obtain rfl | hd := List.mem_cons.1 hd
  · rw [Material.target?_document]
    rfl
  · obtain ⟨f, hf, rfl⟩ := List.mem_map.1 hd
    have hpath : f.delivery.path = Material.place root f.kind := c.path_of_mem_files_plan root hf
    rw [hpath, Material.target?_place]
    cases f.kind <;> rfl

/-- **A write that fails leaves a clean beginning.**  If the document is no text, nothing happens at
all; else the document and the planned files are written in order up to one of them, at which or at
whose directory the write fails. -/
theorem stoppedAt_of_resolve (hresolve : (p.resolve i root).result = .ok o) {form : Config.Form}
    {document : Path} {t t' : FileTree} {events : List Event} {failure : Failure}
    (hwrite : (o.write form document : StateM FileTree _) t = (⟨events, .error failure⟩, t')) :
    (failure.kind = .serialize ∧ t' = t) ∨
      ∃ s before d after path why, o.config.text form = .ok s ∧
        ⟨document.join form.fileName, s, false, []⟩ :: o.materials.deliveries =
          before ++ d :: after ∧
        failure = .unwritable path why ∧ (path = d.path ∨ d.path.parent? = some path) ∧
        StoppedAt before d after t t' := by
  rw [Outcome.write] at hwrite
  cases hds : o.deliveries form document with
  | error e =>
      rw [hds] at hwrite
      cases hwrite
      exact .inl ⟨by rw [Outcome.eq_pathNotText_of_deliveries hds]; rfl, rfl⟩
  | ok ds =>
      rw [hds] at hwrite
      obtain ⟨s, hs, hfiles⟩ := Outcome.deliveries_eq_ok_iff.1 hds
      obtain ⟨hnames, htargets⟩ := nodup_targets_of_resolve hresolve hfiles
      obtain ⟨before, d, after, path, why, rfl, hdelivered, hfailure, hpath⟩ :=
        exists_delivered_of_deliver hnames hwrite
      refine .inr ⟨s, before, d, after, path, why, hs, hfiles.symm, hfailure, hpath, ?_⟩
      exact stoppedAt_of_delivered hnames (fun e he => htargets e (List.mem_append_right _ he))
        hdelivered

/-- A tree in which a file is where the directory of the planned files should be. -/
def blocked : FileTree where
  root := .directory [(Utf8.encode "r", .directory [(Utf8.encode "certs", .file ⟨0o644, []⟩)])]
  current := []

/-- The hypothesis that a write fails is satisfiable, behind the document. -/
theorem exists_write_blocked : ∃ events t',
    (Outcome.ofEverything.write .json (.ofString "s") : StateM FileTree _) blocked =
      (⟨events, .error (.unwritable (.ofString "r/certs") .alreadyExists)⟩, t') := by
  have hfailure : failureOf ((Outcome.ofEverything.write .json (.ofString "s") :
      StateM FileTree (Traced (List Path))) blocked).1.result =
        some (.unwritable (.ofString "r/certs") .alreadyExists) := by decide +kernel
  revert hfailure
  generalize (Outcome.ofEverything.write .json (.ofString "s") :
    StateM FileTree (Traced (List Path))) blocked = ran
  obtain ⟨⟨events, result⟩, t'⟩ := ran
  intro hfailure
  obtain rfl := failureOf_eq_some_iff.1 hfailure
  exact ⟨events, t', rfl⟩

/-- The document is written, and then the directory for the certificates cannot be made. -/
theorem stoppedAt_blocked :
    (everything.resolve .blankEnded (.ofString "r/")).result = .ok .ofEverything ∧
      ∃ events t', (Outcome.ofEverything.write .json (.ofString "s") : StateM FileTree _) blocked =
          (⟨events, .error (.unwritable (.ofString "r/certs") .alreadyExists)⟩, t') ∧
        ∃ before d after, before ≠ [] ∧ d.path.parent? = some (.ofString "r/certs") ∧
          StoppedAt before d after blocked t' := by
  obtain ⟨events, t', hwrite⟩ := exists_write_blocked
  refine ⟨resolve_everything, events, t', hwrite, ?_⟩
  obtain ⟨⟨⟩, -⟩ | ⟨s, before, d, after, path, why, -, hfiles, hfailure, hpath, hstopped⟩ :=
    stoppedAt_of_resolve resolve_everything hwrite
  cases hfailure
  have hparent : d.path.parent? = some (.ofString "r/certs") := by
    -- No file has that path.
    refine hpath.resolve_left fun heq => ?_
    have hpaths : ∀ q ∈ (Path.ofString "s").join Config.Form.json.fileName ::
        Outcome.ofEverything.materials.deliveries.map Delivery.path, q ≠ .ofString "r/certs" := by
      decide +kernel
    refine hpaths d.path ?_ heq.symm
    rw [← List.map_cons (f := Delivery.path) (a := ⟨_, s, false, []⟩), hfiles]
    exact List.mem_map_of_mem (List.mem_append_right _ List.mem_cons_self)
  refine ⟨before, d, after, ?_, hparent, hstopped⟩
  rintro rfl
  obtain ⟨rfl, -⟩ := List.cons.inj hfiles
  have hdocument : ((Path.ofString "s").join Config.Form.json.fileName).parent? ≠
      some (.ofString "r/certs") := by decide +kernel
  exact hdocument hparent

end Properties

end CaptureConfig

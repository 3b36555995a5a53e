/-
**What has been written can be written again.**

Once a configuration is written, the directories for its files are there and the files may be
written, so that nothing is in the way of writing it a second time; and what is written then is what
is there already.  The property file is read a second time as well.  It lies under a name of its own
unless it lies where the document goes: there the document takes its place, and what was written in
it is lost.

Main definitions:

* `Delivery.Ready` — nothing is in the way of a delivery.

Main results:

* `Delivery.ready_of_performAll`, `Delivery.Ready.exists_performAll` — a delivery that was made can
  be made again;
* `ready_of_deliver`, `exists_deliver` — so can deliveries one after another;
* `Delivered.fileAt?_eq` — **deliveries that are made again change nothing**;
* `Command.render_again` — **rendering again says the same and changes nothing**;
* `Command.render_over_properties` — a property file that the document takes the place of.
-/

import CaptureConfig.Command.Run
import CaptureConfig.Proofs.Delivery
import CaptureConfig.Proofs.Loading
import CaptureConfig.Proofs.Store.Readiness

set_option relaxedAutoImplicit false
set_option autoImplicit false

namespace CaptureConfig

namespace Delivery

/-! ### One file -/

/-- **Nothing is in the way of a delivery**: its directory is there, and so is a file that may be
written. -/
structure Ready (d : Delivery) (t : FileTree) : Prop where
  directory : ∀ p ∈ d.path.parent?, p.octets = [] ∨ t.isDirectory p = true
  file : ∃ l f, t.file d.path = .ok (l, f) ∧ f.writable = true

section

variable {d e : Delivery} {t t' : FileTree} {l k : Location} {f : File}

/-- A file that is written in place of one that may be written, or of none, may be written. -/
theorem writable_modeOver (d : Delivery) {old : Option File}
    (h : ∀ f, old = some f → f.writable = true) (contents : List UInt8) :
    (File.mk (d.modeOver old) contents).writable = true := by
  rw [modeOver]
  cases d.isSecret with
  | true => exact (by decide : File.secretMode.testBit 7 = true)
  | false =>
      cases old with
      | none => exact (by decide : File.sharedMode.testBit 7 = true)
      | some f => exact h f rfl

/-- A delivery leaves files writable. -/
theorem Leaves.exists_writable (h : d.Leaves t t' l) (hfile : t.root.fileAt? k = some f)
    (hwritable : f.writable = true) : ∃ g, t'.root.fileAt? k = some g ∧ g.writable = true := by
  by_cases hkl : k = l
  · subst hkl
    refine ⟨_, h.file, d.writable_modeOver ?_ _⟩
    intro g hg
    rw [hfile] at hg
    cases hg
    exact hwritable
  · exact ⟨f, by rw [h.others k hkl, hfile], hwritable⟩

/-- A delivery puts nothing in the way of another one. -/
theorem Ready.of_leaves (h : e.Ready t) (hleaves : d.Leaves t t' l) : e.Ready t' := by
  obtain ⟨hdirectory, k, f, hfile, hwritable⟩ := h
  obtain ⟨hlocate, hat⟩ := FileTree.file_eq_ok_iff.1 hfile
  obtain ⟨g, hg, hwritable'⟩ := hleaves.exists_writable hat hwritable
  exact ⟨fun p hp => (hdirectory p hp).imp id hleaves.grows.isDirectory,
    k, g, FileTree.file_eq_ok_iff.2 ⟨hleaves.grows.locate hlocate, hg⟩, hwritable'⟩

/-! ### Making a delivery again -/

theorem Ready.performAll_directorySteps (h : d.Ready t) :
    (performAll d.directorySteps : StateM FileTree _) t = (.ok (), t) := by
  rw [directorySteps]
  cases hparent : d.path.parent? with
  | none => rfl
  | some p =>
      exact performAll_singleton_eq_ok_iff.2
        (FileTree.run_makeDirectories_of_isDirectory (h.directory p hparent))

theorem Ready.exists_fileSteps (h : d.Ready t) :
    ∃ t', (performAll d.fileSteps : StateM FileTree _) t = (.ok (), t') := by
  obtain ⟨-, l, f, hfile, hwritable⟩ := h
  rw [fileSteps]
  cases d.isSecret with
  | false =>
      obtain ⟨t₁, hopen⟩ := FileTree.exists_openEmpty hfile hwritable File.sharedMode
      exact ⟨t₁, performAll_singleton_eq_ok_iff.2 (run_openEmpty_eq_ok_iff.2 hopen)⟩
  | true =>
      obtain ⟨t₁, hopen⟩ := FileTree.exists_openEmpty hfile hwritable File.secretMode
      obtain ⟨k, hlocate, -, hputs⟩ := FileTree.puts_openEmpty hopen
      obtain ⟨t₂, hmode⟩ := FileTree.exists_setMode
        (FileTree.file_eq_ok_iff.2 ⟨hlocate, hputs.file⟩) File.secretMode
      exact ⟨t₂, performAll_cons_eq_ok_iff.2 ⟨t₁, run_openEmpty_eq_ok_iff.2 hopen,
        performAll_singleton_eq_ok_iff.2 (run_setMode_eq_ok_iff.2 hmode)⟩⟩

/-- **A delivery that nothing is in the way of is made.** -/
theorem Ready.exists_performAll (h : d.Ready t) :
    ∃ t', (performAll d.steps : StateM FileTree _) t = (.ok (), t') := by
  obtain ⟨t₁, hsteps⟩ := h.exists_fileSteps
  obtain ⟨l, hlocate, -, hputs⟩ := puts_of_fileSteps hsteps
  obtain ⟨t₂, happend⟩ := FileTree.exists_append
    (FileTree.file_eq_ok_iff.2 ⟨hlocate, hputs.file⟩) (Utf8.encode d.contents)
  refine ⟨t₂, performAll_append_eq_ok_iff.2 ⟨t₁, ?_,
    performAll_singleton_eq_ok_iff.2 (run_append_eq_ok_iff.2 happend)⟩⟩
  exact performAll_append_eq_ok_iff.2 ⟨t, h.performAll_directorySteps, hsteps⟩

/-- Directories that are made for a delivery are there. -/
theorem isDirectory_of_directorySteps
    (h : (performAll d.directorySteps : StateM FileTree _) t = (.ok (), t')) :
    ∀ p ∈ d.path.parent?, p.octets = [] ∨ t'.isDirectory p = true := by
  intro p hp
  rw [directorySteps, Option.mem_def.1 hp] at h
  exact FileTree.isDirectory_of_run_makeDirectories (performAll_singleton_eq_ok_iff.1 h)

/-- A file that was written in place of another one could be written. -/
theorem writable_of_fileSteps
    (h : (performAll d.fileSteps : StateM FileTree _) t = (.ok (), t'))
    (hlocate : t'.locate d.path = .ok l) (hfile : t.root.fileAt? l = some f) :
    f.writable = true := by
  -- Whatever follows, the file is emptied first.
  have hopen : ∃ t₁ mode, t.openEmpty d.path mode = .ok t₁ ∧ t₁.Grows t' := by
    rw [fileSteps] at h
    cases hsecret : d.isSecret with
    | false =>
        rw [hsecret, if_neg Bool.false_ne_true, performAll_singleton_eq_ok_iff] at h
        exact ⟨t', _, run_openEmpty_eq_ok_iff.1 h, .refl t'⟩
    | true =>
        rw [hsecret, if_pos rfl, performAll_cons_eq_ok_iff] at h
        obtain ⟨t₁, hopen, hmode⟩ := h
        have hgrows := (Step.setMode d.path File.secretMode).grows_run t₁
        rw [performAll_singleton_eq_ok_iff.1 hmode] at hgrows
        exact ⟨t₁, _, run_openEmpty_eq_ok_iff.1 hopen, hgrows⟩
  obtain ⟨t₁, mode, hopen, hgrows⟩ := hopen
  obtain ⟨k, hk, -, -⟩ := FileTree.puts_openEmpty hopen
  obtain rfl : k = l := Except.ok.inj ((hgrows.locate hk).symm.trans hlocate)
  exact FileTree.writable_of_openEmpty hopen hk hfile

/-- **Nothing is in the way of a delivery that was made.** -/
theorem ready_of_performAll (h : (performAll d.steps : StateM FileTree _) t = (.ok (), t')) :
    d.Ready t' := by
  obtain ⟨l, hleaves⟩ := leaves_of_performAll h
  rw [steps, performAll_append_eq_ok_iff] at h
  obtain ⟨t₂, h, happend⟩ := h
  obtain ⟨t₁, hdirectories, hfile⟩ := performAll_append_eq_ok_iff.1 h
  have hextends := extends_of_directorySteps hdirectories
  obtain ⟨k, hlocate, -, hputs⟩ := puts_of_fileSteps hfile
  have hgrows : t₂.Grows t' := by
    have hgrows := (Step.append d.path (Utf8.encode d.contents)).grows_run t₂
    rwa [performAll_singleton_eq_ok_iff.1 happend] at hgrows
  obtain rfl : k = l := Except.ok.inj ((hgrows.locate hlocate).symm.trans hleaves.located)
  refine ⟨fun p hp => ?_, k, _, FileTree.file_eq_ok_iff.2 ⟨hleaves.located, hleaves.file⟩, ?_⟩
  · exact (isDirectory_of_directorySteps hdirectories p hp).imp id
      (hputs.grows.trans hgrows).isDirectory
  · refine d.writable_modeOver (fun f hf => ?_) _
    exact writable_of_fileSteps hfile hlocate ((hextends.files k).trans hf)

end

end Delivery

/-! ### Several files -/

section

variable {d : Delivery} {ds : List Delivery} {t t' t'' : FileTree} {events : List Event}
  {written : List Path}

/-- Deliveries put nothing in the way of another one. -/
theorem Delivery.Ready.of_deliver (hd : d.Ready t)
    (h : (deliver ds : StateM FileTree _) t = (⟨events, .ok written⟩, t')) : d.Ready t' := by
  induction ds generalizing t events written with
  | nil => cases h; exact hd
  | cons e rest ih =>
      obtain ⟨t₁, later, others, hsteps, hrest, -⟩ := deliver_cons_eq_ok_iff.1 h
      obtain ⟨l, hl⟩ := Delivery.leaves_of_performAll hsteps
      exact ih (hd.of_leaves hl) hrest

/-- **Nothing is in the way of deliveries that were made.** -/
theorem ready_of_deliver (h : (deliver ds : StateM FileTree _) t = (⟨events, .ok written⟩, t')) :
    ∀ d ∈ ds, d.Ready t' := by
  induction ds generalizing t events written with
  | nil => exact fun d hd => absurd hd List.not_mem_nil
  | cons e rest ih =>
      obtain ⟨t₁, later, others, hsteps, hrest, -⟩ := deliver_cons_eq_ok_iff.1 h
      intro d hd
      obtain rfl | hd := List.mem_cons.1 hd
      · exact (Delivery.ready_of_performAll hsteps).of_deliver hrest
      · exact ih hrest d hd

/-- Deliveries that are made tell of all of them. -/
theorem events_of_deliver (h : (deliver ds : StateM FileTree _) t = (⟨events, .ok written⟩, t')) :
    events = ds.flatMap Delivery.events ∧ written = ds.map Delivery.path := by
  induction ds generalizing t events written with
  | nil => cases h; exact ⟨rfl, rfl⟩
  | cons d rest ih =>
      obtain ⟨t₁, later, others, -, hrest, rfl, rfl⟩ := deliver_cons_eq_ok_iff.1 h
      obtain ⟨rfl, rfl⟩ := ih hrest
      exact ⟨rfl, rfl⟩

/-- **Deliveries that nothing is in the way of are made.** -/
theorem exists_deliver (h : ∀ d ∈ ds, d.Ready t) : ∃ t', (deliver ds : StateM FileTree _) t =
    (⟨ds.flatMap Delivery.events, .ok (ds.map Delivery.path)⟩, t') := by
  induction ds generalizing t with
  | nil => exact ⟨t, rfl⟩
  | cons d rest ih =>
      obtain ⟨t₁, hsteps⟩ := (h d List.mem_cons_self).exists_performAll
      obtain ⟨l, hl⟩ := Delivery.leaves_of_performAll hsteps
      obtain ⟨t', hrest⟩ := ih fun e he => (h e (List.mem_cons_of_mem d he)).of_leaves hl
      exact ⟨t', deliver_cons_eq_ok_iff.2 ⟨t₁, _, _, hsteps, hrest, rfl, rfl⟩⟩

/-- A file that is written again keeps its permissions. -/
theorem Delivery.modeOver_modeOver (d : Delivery) (old : Option File) (contents : List UInt8) :
    d.modeOver (some ⟨d.modeOver old, contents⟩) = d.modeOver old := by
  rw [modeOver]
  cases hsecret : d.isSecret with
  | true => rw [modeOver, hsecret]; rfl
  | false => rfl

/-- **Deliveries that are made again change nothing.** -/
theorem Delivered.fileAt?_eq (h : Delivered ds t t') (h' : Delivered ds t' t'') (l : Location) :
    t''.root.fileAt? l = t'.root.fileAt? l := by
  by_cases hl : ∃ d ∈ ds, t''.locate d.path = .ok l
  · obtain ⟨d, hd, hlocate⟩ := hl
    obtain ⟨k, hk, -, hfile⟩ := h.file d hd
    obtain ⟨k', hk', -, hfile'⟩ := h'.file d hd
    obtain rfl : k = l := Except.ok.inj ((h'.grows.locate hk).symm.trans hlocate)
    obtain rfl : k' = k := Except.ok.inj (hk'.symm.trans hlocate)
    rw [hfile', hfile, d.modeOver_modeOver]
  · exact h'.others l fun d hd hlocate => hl ⟨d, hd, hlocate⟩

end

/-! ### Names of property files -/

theorem Hop.ofStretch_eq_down_iff {part : List UInt8} {name : Name} :
    Hop.ofStretch part = .down name ↔
      part = name ∧ part ≠ [Path.dot] ∧ part ≠ [Path.dot, Path.dot] := by
  rw [Hop.ofStretch]
  split
  next hdot => simp [hdot]
  next hdot => split <;> simp [*]

/-- The last stretch that is not empty is the name that a path ends with. -/
theorem Path.getLast?_stretches_of_target? {p : Path} {name : Name} (h : p.target? = some name) :
    ((stretches p.octets).filter (! ·.isEmpty)).getLast? = some name ∧
      name ≠ [dot] ∧ name ≠ [dot, dot] := by
  have hlast : p.hops.getLast? = some (.down name) := by
    rw [hops_of_target? h, List.getLast?_concat]
  rw [hops, List.getLast?_map, Option.map_eq_some_iff] at hlast
  obtain ⟨part, hpart, hhop⟩ := hlast
  obtain ⟨rfl, hdot, hup⟩ := Hop.ofStretch_eq_down_iff.1 hhop
  exact ⟨hpart, hdot, hup⟩

/-- A name that a path ends with is its file name. -/
theorem Path.fileName?_of_target? {p : Path} {name : Name} (h : p.target? = some name) :
    p.fileName? = some name := by
  obtain ⟨hlast, hdot, hup⟩ := getLast?_stretches_of_target? h
  obtain ⟨front, hfront⟩ := List.getLast?_eq_some_iff.1 hlast
  have hidle : (stretches p.octets).filter (! isIdle ·) =
      ((stretches p.octets).filter (! ·.isEmpty)).filter (· != [dot]) := by
    rw [List.filter_filter]
    refine List.filter_congr fun part _ => ?_
    rw [isIdle, Bool.not_or, Bool.and_comm]
    rfl
  have hnames : namesOf p.octets =
      (front.filter (· != [dot])).map Component.ofStretch ++ [.name name] := by
    rw [namesOf, hidle, hfront, List.filter_append, List.map_append]
    simp [hdot, Component.ofStretch, hup]
  rw [fileName?, components_eq, hnames, ← List.append_assoc, List.getLast?_concat]

/-- What is read is a file. -/
theorem FileTree.exists_file_of_read {t : FileTree} {p : Path} {octets : List UInt8}
    (h : t.read p = .ok octets) : ∃ l f, t.file p = .ok (l, f) := by
  rw [read] at h
  cases hfile : t.file p with
  | error why => rw [hfile] at h; cases h
  | ok found => exact ⟨found.1, found.2, rfl⟩

/-- A planned file is not under the name of a property file. -/
theorem Format.ofPath?_eq_none_of_target? {p root : Path} {k : Material.Kind}
    (h : p.target? = (Material.place root k).target?) : Format.ofPath? p = none := by
  rw [Material.target?_place] at h
  cases k <;>
    · rw [Format.ofPath?, Path.extension?, Path.fileName?_of_target? h]
      decide

/-! ### Rendering again -/

/-- What is delivered is the document and the planned files. -/
theorem Outcome.deliveries_eq_ok_iff {o : Outcome} {form : Config.Form} {root : Path}
    {ds : List Delivery} : o.deliveries form root = .ok ds ↔ ∃ s, o.config.text form = .ok s ∧
      ds = ⟨root.join form.fileName, s, false, []⟩ :: o.materials.deliveries := by
  rw [deliveries]
  cases o.config.text form with
  | error e => exact ⟨by rintro ⟨⟩, by rintro ⟨_, ⟨⟩, -⟩⟩
  | ok s =>
      exact ⟨fun h => ⟨s, rfl, (Except.ok.inj h).symm⟩, by rintro ⟨_, ⟨⟩, rfl⟩; rfl⟩

theorem Outcome.write_eq_ok_iff {o : Outcome} {form : Config.Form} {root : Path} {t t' : FileTree}
    {events : List Event} {written : List Path} :
    (o.write form root : StateM FileTree _) t = (⟨events, .ok written⟩, t') ↔
      ∃ ds, o.deliveries form root = .ok ds ∧
        (deliver ds : StateM FileTree _) t = (⟨events, .ok written⟩, t') := by
  rw [write]
  cases o.deliveries form root with
  | error e => exact ⟨by rintro ⟨⟩, by rintro ⟨_, ⟨⟩, -⟩⟩
  | ok ds => exact ⟨fun h => ⟨ds, rfl, h⟩, by rintro ⟨_, ⟨⟩, h⟩; exact h⟩

namespace Command

section

variable {path root : Path} {instanceId : Option String} {form : Config.Form} {t t' : FileTree}
  {said : Transcript}

/-- **What it is that a configuration has been rendered to files.** -/
theorem renderFile_write_iff :
    (renderFile path instanceId root form true : StateM FileTree _) t = (said, t') ∧
        said.exit = 0 ↔
      ∃ o events paths, (Outcome.ofReading path (t.read path) instanceId root).result = .ok o ∧
        (o.write form root : StateM FileTree _) t = (⟨events, .ok paths⟩, t') ∧
        said = written ((Outcome.ofReading path (t.read path) instanceId root).events ++
          o.report.warnings.map (Event.warned renderTarget)) root ⟨events, .ok paths⟩ := by
  rw [renderFile, bind_run, Outcome.load_run]
  generalize Outcome.ofReading path (t.read path) instanceId root = loaded
  obtain ⟨told, result⟩ := loaded
  cases result with
  | error failure =>
      constructor
      · rintro ⟨⟨⟩, ⟨⟩⟩
      · rintro ⟨_, _, _, ⟨⟩, -⟩
  | ok o =>
      simp only [if_true, bind_run]
      cases hran : (o.write form root : StateM FileTree (Traced (List Path))) t with
      | mk w t₁ =>
          obtain ⟨events, result⟩ := w
          cases result with
          | error failure =>
              constructor
              · rintro ⟨⟨⟩, ⟨⟩⟩
              · rintro ⟨_, _, _, ⟨⟩, hwrite, -⟩
                rw [hran] at hwrite
                cases hwrite
          | ok paths =>
              constructor
              · rintro ⟨⟨⟩, -⟩
                exact ⟨o, events, paths, rfl, hran, rfl⟩
              · rintro ⟨_, _, _, ⟨⟩, hwrite, rfl⟩
                rw [hran] at hwrite
                cases hwrite
                exact ⟨rfl, rfl⟩

/-- **A property file that lies elsewhere than the document is left alone.** -/
theorem read_of_delivered {o : Outcome} {ds : List Delivery} {f : PropertyFile}
    (hload : (PropertyFile.ofReading path (t.read path)).result = .ok f)
    (hresolve : (f.resolve instanceId root).result = .ok o)
    (hds : o.deliveries form root = .ok ds) (hdelivered : Delivered ds t t')
    (helsewhere : t'.locate path ≠ t'.locate (root.join form.fileName)) :
    t'.read path = t.read path := by
  obtain ⟨format, octets, hformat, hread, -⟩ := PropertyFile.exists_of_ofReading hload
  obtain ⟨l, found, hfile⟩ := FileTree.exists_file_of_read hread
  obtain ⟨hlocate, hat⟩ := FileTree.file_eq_ok_iff.1 hfile
  have hlocate' := hdelivered.grows.locate hlocate
  have hkept : t'.root.fileAt? l = t.root.fileAt? l := by
    refine hdelivered.others l fun d hd hd' => ?_
    obtain ⟨s, -, rfl⟩ := Outcome.deliveries_eq_ok_iff.1 hds
    obtain ⟨c, id, -, -, -, hplan⟩ := Properties.resolve_eq_ok_iff.1 hresolve
    obtain rfl | hd := List.mem_cons.1 hd
    · exact helsewhere (hlocate'.trans hd'.symm)
    · -- A planned file is under another name.
      rw [hplan] at hd
      obtain ⟨file, hmem, rfl⟩ := List.mem_map.1 hd
      have hname : path.target? = (Material.place root file.kind).target? := by
        obtain ⟨g, hg⟩ := Option.isSome_iff_exists.1 (hdelivered.grows.file l (by rw [hat]; rfl))
        rw [← FileTree.getLast?_of_locate hlocate hat, FileTree.getLast?_of_locate hd' hg]
        exact congrArg Path.target? (c.path_of_mem_files_plan root hmem)
      rw [Format.ofPath?_eq_none_of_target? hname] at hformat
      cases hformat
  rw [FileTree.read, FileTree.read, hfile, FileTree.file_eq_ok_iff.2 ⟨hlocate', hkept.trans hat⟩]

/-- **Rendering again says the same and changes nothing**, unless the property file lies where the
document goes.  In particular the property file is left as it was. -/
theorem render_again
    (h : (run (.render path instanceId root form true) : StateM FileTree _) t = (said, t'))
    (hexit : said.exit = 0)
    (helsewhere : t'.locate path ≠ t'.locate (root.join form.fileName)) :
    t'.read path = t.read path ∧
      ∃ t'', (run (.render path instanceId root form true) : StateM FileTree _) t' = (said, t'') ∧
        ∀ l, t''.root.fileAt? l = t'.root.fileAt? l := by
  obtain ⟨o, events, paths, hload, hwrite, rfl⟩ := renderFile_write_iff.1 ⟨h, hexit⟩
  obtain ⟨f, hf, hresolve⟩ := Outcome.exists_resolve_of_ofReading hload
  obtain ⟨ds, hds, hdeliver⟩ := Outcome.write_eq_ok_iff.1 hwrite
  have hnames : (ds.map fun d => d.path.target?).Nodup := by
    obtain ⟨s, -, rfl⟩ := Outcome.deliveries_eq_ok_iff.1 hds
    obtain ⟨c, id, -, -, -, hplan⟩ := Properties.resolve_eq_ok_iff.1 hresolve
    rw [hplan]
    exact c.nodup_targets root root form s []
  obtain ⟨rfl, rfl⟩ := events_of_deliver hdeliver
  have hdelivered := (delivered_of_deliver hnames hdeliver).2
  have hread := read_of_delivered hf hresolve hds hdelivered helsewhere
  obtain ⟨t'', hdeliver'⟩ := exists_deliver (ready_of_deliver hdeliver)
  have hdelivered' := (delivered_of_deliver hnames hdeliver').2
  refine ⟨hread, t'', (renderFile_write_iff.2 ?_).1, hdelivered.fileAt?_eq hdelivered'⟩
  rw [hread]
  exact ⟨o, _, _, hload, Outcome.write_eq_ok_iff.2 ⟨ds, hds, hdeliver'⟩, rfl⟩

end

/-- Rendering the property file to files below a root. -/
def renderBare (root : Path) : StateM FileTree Transcript :=
  run (.render Bare.path none root .json true)

theorem render_again_bare :
    ∃ said t' t'', renderBare (.ofString "out") Bare.tree = (said, t') ∧
      said.exit = 0 ∧ t'.read Bare.path = Bare.tree.read Bare.path ∧
      renderBare (.ofString "out") t' = (said, t'') ∧
      ∀ l, t''.root.fileAt? l = t'.root.fileAt? l := by
  have hexit : (renderBare (.ofString "out") Bare.tree).1.exit = 0 := by decide +kernel
  have helsewhere : (renderBare (.ofString "out") Bare.tree).2.locate Bare.path ≠
      (renderBare (.ofString "out") Bare.tree).2.locate
        ((Path.ofString "out").join Config.Form.json.fileName) :=
    ne_of_apply_ne Except.toOption (by decide +kernel)
  generalize hrun : renderBare (.ofString "out") Bare.tree = ran at hexit helsewhere
  obtain ⟨said, t'⟩ := ran
  obtain ⟨hread, t'', hagain, hsame⟩ := render_again hrun hexit helsewhere
  exact ⟨said, t', t'', rfl, hexit, hread, hagain, hsame⟩

/-- What takes its place, if it lies where the document goes. -/
def documentText : String :=
  "\x7b\n  \"id\": \"pcap-api/f9281cda-1234-bbcd-ef12-1337cafe0048\",\n" ++
    "  \"log_level\": \"info\",\n  \"listen\": \x7b\n    \"port\": 8080\n  \x7d,\n" ++
    "  \"enable_ip_restriction\": false\n\x7d"

/-- **A property file that lies where the document goes is lost**, and then there is nothing left to
render: what has taken its place is under the name of a property file, and is none. -/
theorem render_over_properties :
    (renderBare (.ofString ".") Bare.tree).1.exit = 0 ∧
      (renderBare (.ofString ".") Bare.tree).2.read Bare.path ≠
        Bare.tree.read Bare.path ∧
      (renderBare (.ofString ".") (renderBare (.ofString ".") Bare.tree).2).1.exit ≠
        0 := by
  have hbefore : (Bare.tree.read Bare.path).toOption =
      some (Utf8.encode Bare.text) := by decide +kernel
  have hafter : ((renderBare (.ofString ".") Bare.tree).2.read
      Bare.path).toOption = some (Utf8.encode documentText) := by decide +kernel
  have hrefused : (Outcome.ofReading Bare.path (.ok (Utf8.encode documentText)) none
      (.ofString ".")).result.toOption = none := by decide +kernel
  have hdiffer : Utf8.encode documentText ≠ Utf8.encode Bare.text := by decide +kernel
  have hexit : (renderBare (.ofString ".") Bare.tree).1.exit = 0 := by decide +kernel
  generalize Utf8.encode documentText = document at hafter hrefused hdiffer
  generalize renderBare (.ofString ".") Bare.tree = first at hafter hexit
  obtain ⟨said, t⟩ := first
  refine ⟨hexit, fun hsame => hdiffer ?_, fun hexit' => ?_⟩
  · rw [hsame, hbefore] at hafter
    exact (Option.some.inj hafter).symm
  · generalize hrun : renderBare (.ofString ".") t = second at hexit'
    obtain ⟨said', t'⟩ := second
    obtain ⟨o, -, -, hload, -⟩ := renderFile_write_iff.1 ⟨hrun, hexit'⟩
    change (t.read Bare.path).toOption = _ at hafter
    generalize t.read Bare.path = read at hafter hload
    cases read with
    | error why => cases hafter
    | ok octets =>
        obtain rfl := Option.some.inj hafter
        rw [hload] at hrefused
        cases hrefused

end Command

end CaptureConfig

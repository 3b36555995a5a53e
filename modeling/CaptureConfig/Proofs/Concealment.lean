/-
**The private key is not exposed while it is written.**

A private key is a secret from its first octet on, so it is not enough that its file belongs to its
owner in the end.  Writing a configuration is a list of steps, any of which may be the last one, and
a write may be interrupted; in every tree on the way the file of the key is as it was before, or
empty, or for its owner alone.

The file is emptied first, then it is closed to everybody else, and only then the key goes into it.
Steps for other files end with other names and leave it alone, and none of them depends on the key.

Main definitions:

* `Outcome.steps` — the steps in which a configuration is written;
* `File.Conceals` — what may become of the file of a key;
* `Outcome.withKey`, `Step.withKey`, `Properties.withKey` — the same with another key;
* `Outcome.ConcealsKey` — a key is never exposed and goes nowhere else.

Main results:

* `Outcome.write_run` — writing is doing these steps;
* `Delivery.conceals_of_passes` — a secret is not exposed while it is delivered;
* `Properties.resolve_withKey`, `Properties.steps_withKey` — with another key the same is resolved
  and done, but for one write;
* `Properties.concealsKey_of_resolve` — **the private key is not exposed while a configuration is
  written**.
-/

import CaptureConfig.Proofs.Delivery
import CaptureConfig.Proofs.Secrecy
import CaptureConfig.Proofs.Store.Passage

set_option relaxedAutoImplicit false
set_option autoImplicit false

namespace CaptureConfig

/-! ### Writing as a list of steps -/

/-- Writing files is doing the steps of all of them. -/
theorem deliver_run (ds : List Delivery) (t : FileTree) :
    ((deliver ds : StateM FileTree _) t).2 =
      ((performAll (ds.flatMap Delivery.steps) : StateM FileTree _) t).2 := by
  induction ds generalizing t with
  | nil => rfl
  | cons d rest ih =>
      rw [deliver, bind_run, List.flatMap_cons, FileTree.performAll_append_run]
      generalize (performAll d.steps : StateM FileTree _) t = ran
      obtain ⟨result, t₁⟩ := ran
      cases result with
      | ok _ => exact ih t₁
      | error refused => rfl

/-- **The steps in which a configuration is written.**  A document that is no text leaves none. -/
def Outcome.steps (o : Outcome) (form : Config.Form) (root : Path) : List Step :=
  match o.deliveries form root with
  | .error _ => []
  | .ok ds => ds.flatMap Delivery.steps

/-- **Writing a configuration is doing its steps.** -/
theorem Outcome.write_run (o : Outcome) (form : Config.Form) (root : Path) (t : FileTree) :
    ((o.write form root : StateM FileTree _) t).2 =
      ((performAll (o.steps form root) : StateM FileTree _) t).2 := by
  rw [write, steps]
  cases o.deliveries form root with
  | error failure => rfl
  | ok ds => exact deliver_run ds t

/-! ### One secret -/

/-- **What may become of the file of a key** while the key is written: it is as it was, or empty, or
for its owner alone, and then it holds a beginning of the key. -/
inductive File.Conceals (key : List UInt8) (before : Option File) : Option File → Prop
  | untouched : Conceals key before before
  | emptied (mode : Nat) : Conceals key before (some ⟨mode, []⟩)
  | closed {written : List UInt8} (h : written <+: key) :
      Conceals key before (some ⟨File.secretMode, written⟩)

section

variable {t t₁ t₂ t' : FileTree} {key : List UInt8} {p : Path} {k l : Location} {f : File}

theorem FileTree.Puts.conceals (h : t.Puts t' k f)
    (hf : File.Conceals key (t.root.fileAt? k) (some f)) (l : Location) :
    File.Conceals key (t.root.fileAt? l) (t'.root.fileAt? l) := by
  by_cases hl : l = k
  · rw [hl, h.file]
    exact hf
  · rw [h.others l hl]
    exact .untouched

/-! ### The steps of a secret, the last one first -/

/-- A beginning of the key goes into a file that is closed to everybody else. -/
theorem conceals_of_append (hputs : t.Puts t₁ k ⟨File.secretMode, []⟩)
    (hlocate : t₁.locate p = .ok k) {written : List UInt8} (h : written <+: key) (l : Location) :
    File.Conceals key (t.root.fileAt? l) (((Step.append p written).run t₁).2.root.fileAt? l) := by
  have hfile := FileTree.file_eq_ok_iff.2 ⟨hlocate, hputs.file⟩
  rw [Step.run]
  obtain ⟨t₂, happend, hrun⟩ | ⟨why, -, hrun⟩ :=
    FileTree.change_cases (fun t => t.append p written) t₁
  · rw [hrun]
    exact (hputs.trans (FileTree.puts_append hfile happend)).conceals (.closed h) l
  · rw [hrun]
    exact hputs.conceals (.emptied _) l

theorem conceals_of_passes_append (hputs : t.Puts t₁ k ⟨File.secretMode, []⟩)
    (hlocate : t₁.locate p = .ok k) (h : FileTree.Passes [.append p key] t₁ t') (l : Location) :
    File.Conceals key (t.root.fileAt? l) (t'.root.fileAt? l) := by
  cases h with
  | here => exact hputs.conceals (.emptied _) l
  | part hpart => exact conceals_of_append hputs hlocate hpart l
  | behind => exact conceals_of_append hputs hlocate List.prefix_rfl l
  | later done h =>
      cases h with
      | here => exact conceals_of_append hputs hlocate List.prefix_rfl l

/-- An empty file is closed to everybody else before anything goes into it. -/
theorem conceals_of_passes_setMode {mode : Nat} (hputs : t.Puts t₁ k ⟨mode, []⟩)
    (hlocate : t₁.locate p = .ok k)
    (h : FileTree.Passes [.setMode p File.secretMode, .append p key] t₁ t') (l : Location) :
    File.Conceals key (t.root.fileAt? l) (t'.root.fileAt? l) := by
  have hfile := FileTree.file_eq_ok_iff.2 ⟨hlocate, hputs.file⟩
  obtain ⟨t₂, hset, hrun⟩ | ⟨why, hrefused, -⟩ :=
    FileTree.change_cases (fun t => t.setMode p File.secretMode) t₁
  · have hputs' := FileTree.puts_setMode hfile hset
    have hclosed : t.Puts t₂ k ⟨File.secretMode, []⟩ := hputs.trans hputs'
    cases h with
    | here => exact hputs.conceals (.emptied _) l
    | behind =>
        rw [Step.run, hrun]
        exact hclosed.conceals (.emptied _) l
    | later done h =>
        rw [Step.run, hrun] at h
        exact conceals_of_passes_append hclosed (hputs'.grows.locate hlocate) h l
  · -- The permissions of a file that is there can be set.
    rw [FileTree.setMode, hfile] at hrefused
    cases hrefused

/-- A file is emptied before it is closed. -/
theorem conceals_of_passes_openEmpty
    (h : FileTree.Passes [.openEmpty p File.secretMode, .setMode p File.secretMode, .append p key]
      t t') (l : Location) :
    File.Conceals key (t.root.fileAt? l) (t'.root.fileAt? l) := by
  obtain ⟨t₁, hopen, hrun⟩ | ⟨why, -, hrun⟩ :=
    FileTree.change_cases (fun t => t.openEmpty p File.secretMode) t
  · obtain ⟨k, hlocate, -, hputs⟩ := FileTree.puts_openEmpty hopen
    cases h with
    | here => exact .untouched
    | behind =>
        rw [Step.run, hrun]
        exact hputs.conceals (.emptied _) l
    | later done h =>
        rw [Step.run, hrun] at h
        exact conceals_of_passes_setMode hputs hlocate h l
  · cases h with
    | here => exact .untouched
    | behind =>
        rw [Step.run, hrun]
        exact .untouched
    | later done h =>
        rw [Step.run, hrun] at done
        cases done

end

namespace Delivery

section

variable {d : Delivery} {t t' : FileTree}

/-- Directories are no files. -/
theorem filePath?_of_mem_directorySteps {s : Step} (h : s ∈ d.directorySteps) :
    s.filePath? = none := by
  rw [directorySteps] at h
  cases hparent : d.path.parent? with
  | none => rw [hparent] at h; cases h
  | some p =>
      rw [hparent] at h
      obtain rfl := List.mem_singleton.1 h
      rfl

/-- Every step of a delivery that changes a file changes the one of its path. -/
theorem filePath?_of_mem_steps {s : Step} (h : s ∈ d.steps) {p : Path} (hp : p ∈ s.filePath?) :
    p = d.path := by
  rw [steps, fileSteps, List.mem_append, List.mem_append] at h
  obtain (h | h) | h := h
  · rw [filePath?_of_mem_directorySteps h] at hp
    cases hp
  · split at h
    · simp only [List.mem_cons, List.not_mem_nil, or_false] at h
      obtain rfl | rfl := h <;> cases hp <;> rfl
    · obtain rfl := List.mem_singleton.1 h
      cases hp
      rfl
  · obtain rfl := List.mem_singleton.1 h
    cases hp
    rfl

/-- **A secret is not exposed while it is delivered.** -/
theorem conceals_of_passes (hsecret : d.isSecret = true) (h : FileTree.Passes d.steps t t')
    (l : Location) :
    File.Conceals (Utf8.encode d.contents) (t.root.fileAt? l) (t'.root.fileAt? l) := by
  have hsteps : d.steps = d.directorySteps ++ [.openEmpty d.path File.secretMode,
      .setMode d.path File.secretMode, .append d.path (Utf8.encode d.contents)] := by
    rw [steps, fileSteps, if_pos hsecret, List.append_assoc]
    rfl
  rw [hsteps] at h
  obtain h | ⟨t₁, hdirectories, h⟩ := FileTree.passes_append h
  · rw [h.fileAt?_eq fun s hs p hp => by rw [filePath?_of_mem_directorySteps hs] at hp; cases hp]
    exact .untouched
  · rw [← (extends_of_directorySteps hdirectories).files l]
    exact conceals_of_passes_openEmpty h l

/-- A delivery leaves a file of another name alone, however much of it is done. -/
theorem fileAt?_of_passes (h : FileTree.Passes d.steps t t') {l : Location}
    (hname : d.path.target? ≠ l.getLast?) : t'.root.fileAt? l = t.root.fileAt? l :=
  h.fileAt?_eq fun _ hs _ hp => filePath?_of_mem_steps hs hp ▸ hname

end

/-- **A secret is not exposed while it is delivered among files of other names.** -/
theorem conceals_of_passes_flatMap {ds : List Delivery} {d : Delivery} (hd : d ∈ ds)
    (hsecret : d.isSecret = true) (hnames : (ds.map fun d => d.path.target?).Nodup)
    {t t' : FileTree} (h : FileTree.Passes (ds.flatMap steps) t t') {l : Location}
    (hl : l.getLast? = d.path.target?) :
    File.Conceals (Utf8.encode d.contents) (t.root.fileAt? l) (t'.root.fileAt? l) := by
  induction ds generalizing t with
  | nil => cases hd
  | cons e rest ih =>
      obtain ⟨hname, hnames⟩ := List.nodup_cons.1 hnames
      have hne (e' : Delivery) (he : e' ∈ rest) : e.path.target? ≠ e'.path.target? :=
        fun heq => hname (List.mem_map.2 ⟨e', he, heq.symm⟩)
      rw [List.flatMap_cons] at h
      obtain rfl | hd := List.mem_cons.1 hd
      · -- The files behind the secret have other names.
        obtain h | ⟨t₁, hdone, h⟩ := FileTree.passes_append h
        · exact conceals_of_passes hsecret h l
        · rw [h.fileAt?_eq (l := l) ?_]
          · exact conceals_of_passes hsecret (FileTree.passes_performAll hdone) l
          · intro s hs p hp
            obtain ⟨e', he, hs⟩ := List.mem_flatMap.1 hs
            rw [filePath?_of_mem_steps hs hp, hl]
            exact (hne e' he).symm
      · -- The file before the secret has another name.
        have hleft {t₁ : FileTree} (h : FileTree.Passes e.steps t t₁) :=
          fileAt?_of_passes h (hl ▸ hne d hd)
        obtain h | ⟨t₁, hdone, h⟩ := FileTree.passes_append h
        · rw [hleft h]
          exact .untouched
        · rw [← hleft (FileTree.passes_performAll hdone)]
          exact ih hd hnames h

end Delivery

/-! ### The same with another key -/

/-- A planned file with another key in the place of the key. -/
def Material.File.withKey (key : String) (f : Material.File) : Material.File :=
  if f.kind = .privateKey then { f with contents := key } else f

/-- **The same with another key** in the file that is planned for it. -/
def Outcome.withKey (o : Outcome) (key : String) : Outcome :=
  { o with materials := ⟨o.materials.files.map (Material.File.withKey key)⟩ }

/-- **The same step with another key**, if it writes to the path of the key. -/
def Step.withKey (q : Path) (key : String) : Step → Step
  | .append p octets => .append p (if p = q then Utf8.encode key else octets)
  | s => s

namespace Delivery

variable {d : Delivery} {q : Path} (key : String)

/-- A delivery to another path is the same with any key. -/
theorem map_withKey_steps_of_ne (h : d.path ≠ q) : d.steps.map (Step.withKey q key) = d.steps := by
  rw [steps, directorySteps, fileSteps]
  cases d.path.parent? <;> cases d.isSecret <;> simp [Step.withKey, h]

/-- A delivery to the path of the key is the delivery of another key. -/
theorem map_withKey_steps_of_eq (h : d.path = q) :
    d.steps.map (Step.withKey q key) = steps { d with contents := key } := by
  simp only [steps, directorySteps, fileSteps, List.map_append, List.map_cons, List.map_nil,
    Step.withKey, if_pos h]
  cases d.path.parent? <;> cases d.isSecret <;> rfl

end Delivery

/-! ### The properties with another key -/

/-- **The same properties with another key**, if there is a block for one. -/
def Properties.withKey (p : Properties) (key : String) : Properties :=
  { p with listen := p.listen.map fun l =>
      { l with tls := l.tls.map fun t => { t with privateKey := some key } } }

/-- The block for the encrypted listener has the other key. -/
theorem Properties.tls_withKey {p : Properties} {key : String} {l l' : Listen} {t t' : Tls}
    (given : p.listen = some l) (block : l.tls = some t)
    (given' : (p.withKey key).listen = some l') (block' : l'.tls = some t') :
    t' = { t with privateKey := some key } := by
  rw [withKey, given] at given'
  obtain rfl := Option.some.inj given'
  replace block' : l.tls.map _ = some t' := block'
  rw [block] at block'
  exact (Option.some.inj block').symm

/-- Where a key is present, they differ at most in a secret. -/
theorem Properties.alike_withKey {p : Properties} {m : TlsMaterial}
    (hm : p.withDefaults.material = .ok (some m)) {key : String}
    (hkey : Text.IsPresent (some key)) : p.Alike (p.withKey key) := by
  obtain ⟨l, t, given, block, -, hm⟩ := Defaulted.material_withDefaults_eq_some_iff.1 hm
  have hpresent : Text.IsPresent t.privateKey :=
    Text.isSome_present_iff.1 (Option.isSome_iff_exists.2 ⟨_, (Tls.material_eq_ok_iff.1 hm).2.1⟩)
  have htls : t.Alike { t with privateKey := some key } :=
    ⟨rfl, .inr ⟨.rfl, iff_of_true hpresent hkey, .rfl⟩⟩
  refine ⟨rfl, ?_⟩
  rw [withKey, given]
  refine .some ⟨rfl, ?_⟩
  show Option.Rel _ l.tls (l.tls.map _)
  rw [block]
  exact .some htls

namespace Material

/-- What the files of the encrypted listener have to hold is the same but for the key. -/
theorem Holds.eq_of_withKey {p : Properties} {key s s' : String} {k : Kind}
    (hk : k ≠ .cidrAllowlist) (h : Holds p k s) (h' : Holds (p.withKey key) k s') :
    s' = if k = .privateKey then key else s := by
  cases h with
  | certificate given block content =>
      cases h' with
      | certificate given' block' content' =>
          obtain rfl := Properties.tls_withKey given block given' block'
          exact Option.some.inj (content'.symm.trans content)
  | privateKey given block content =>
      cases h' with
      | privateKey given' block' content' =>
          obtain rfl := Properties.tls_withKey given block given' block'
          exact (Option.some.inj content').symm
  | clientCas given block content =>
      cases h' with
      | clientCas given' block' content' =>
          obtain rfl := Properties.tls_withKey given block given' block'
          exact Option.some.inj (content'.symm.trans content)
  | cidrAllowlist => exact absurd rfl hk

/-- Files that show the same are the same but for the key. -/
theorem File.eq_withKey {p : Properties} {key : String} {f f' : File}
    (hshown : f.redacted = f'.redacted) (h : Holds p f.kind f.contents)
    (h' : Holds (p.withKey key) f'.kind f'.contents) : f' = f.withKey key := by
  have hkind : f.kind = f'.kind := by simpa using congrArg File.kind hshown
  have hpath : f.path = f'.path := by simpa using congrArg File.path hshown
  obtain ⟨kind, path, contents⟩ := f
  obtain ⟨_, _, contents'⟩ := f'
  obtain rfl : kind = _ := hkind
  obtain rfl : path = _ := hpath
  by_cases hlist : kind = .cidrAllowlist
  · subst hlist
    rw [File.redacted, File.redacted, if_pos rfl, if_pos rfl] at hshown
    rw [← hshown, File.withKey, if_neg (by simp)]
  · have hcontents : contents' = if kind = .privateKey then key else contents :=
      h.eq_of_withKey hlist h'
    rw [hcontents, File.withKey]
    split <;> rfl

/-- Plans that show the same are the same but for the key. -/
theorem eq_map_withKey {p : Properties} {key : String} {files files' : List File}
    (hshown : files.map File.redacted = files'.map File.redacted)
    (h : ∀ f ∈ files, Holds p f.kind f.contents)
    (h' : ∀ f ∈ files', Holds (p.withKey key) f.kind f.contents) :
    files' = files.map (File.withKey key) := by
  induction files generalizing files' with
  | nil => exact List.map_eq_nil_iff.1 hshown.symm
  | cons f rest ih =>
      cases files' with
      | nil => cases hshown
      | cons f' rest' =>
          obtain ⟨hfile, hrest⟩ := List.cons.inj hshown
          obtain ⟨hf, hfs⟩ := List.forall_mem_cons.1 h
          obtain ⟨hf', hfs'⟩ := List.forall_mem_cons.1 h'
          rw [List.map_cons, ← File.eq_withKey hfile hf hf', ← ih hrest hfs hfs']

end Material

namespace Properties

/-- **With another key the same is resolved**, but for the key in the file that is planned for it. -/
theorem resolve_withKey {p : Properties} {i : Instance} {root q : Path} {o : Outcome}
    (h : (p.resolve i root).result = .ok o) (hq : o.config.path? .privateKey = some q)
    {key : String} (hkey : Text.IsPresent (some key)) :
    ((p.withKey key).resolve i root).result = .ok (o.withKey key) := by
  obtain ⟨c, id, hj, -, hconfig, -⟩ := resolve_eq_ok_iff.1 h
  obtain ⟨m, hm⟩ : ∃ m, p.withDefaults.material = .ok (some m) := by
    obtain ⟨_, _, tls, _, _, -, -, htls, -, -, rfl, -⟩ := Defaulted.judge_eq_ok_iff.1 hj
    rw [hconfig] at hq
    cases tls with
    | none => cases hq
    | some m => exact ⟨m, htls⟩
  have halike := ((alike_withKey hm hkey).resolve i root).result
  rw [h] at halike
  generalize hresult : ((p.withKey key).resolve i root).result = result at halike
  cases halike with
  | ok halike =>
      have hfiles := Material.eq_map_withKey halike.files (holds_of_resolve h)
        (holds_of_resolve hresult)
      rw [Outcome.withKey, ← hfiles, halike.config, halike.report]

end Properties

/-! ### Writing a configuration -/

/-- **A key is not exposed while a configuration is written**, and goes nowhere else. -/
structure Outcome.ConcealsKey (o : Outcome) (form : Config.Form) (root q : Path) (key : String) :
    Prop where
  /-- In every tree on the way, the file at the path of the key is concealed. -/
  file : ∀ t t', FileTree.Passes (o.steps form root) t t' → ∀ l, t'.locate q = .ok l →
    File.Conceals (Utf8.encode key) (t.root.fileAt? l) (t'.root.fileAt? l)
  /-- With another key the steps are the same, but for what is written to that path. -/
  elsewhere : ∀ other,
    (o.withKey other).steps form root = (o.steps form root).map (Step.withKey q other)

/-- While nothing is done, nothing changes. -/
theorem FileTree.eq_of_passes_nil {t t' : FileTree} (h : FileTree.Passes [] t t') : t' = t := by
  cases h with
  | here => rfl

namespace Outcome

variable {o : Outcome} {form : Config.Form} {root : Path}

theorem steps_of_text {s : String} (h : o.config.text form = .ok s) :
    o.steps form root = (⟨root.join form.fileName, s, false, []⟩ ::
      o.materials.deliveries).flatMap Delivery.steps := by
  rw [steps, deliveries, h]
  rfl

theorem steps_of_error {e : Failure} (h : o.config.text form = .error e) :
    o.steps form root = [] := by
  rw [steps, deliveries, h]
  rfl

end Outcome

namespace Checked

variable {c : Checked} {id : String} {root : Path} {q : Path}

/-- Only the key lies at the path of the key. -/
theorem path_eq_iff_of_mem_files_plan (hq : (c.config id root).path? .privateKey = some q)
    {f : Material.File} (hf : f ∈ (c.plan root).files) : f.path = q ↔ f.kind = .privateKey := by
  rw [c.path_of_mem_files_plan root hf, c.eq_place_of_path? id root hq]
  exact ⟨Material.place_injective root, fun h => by rw [h]⟩

/-- With another key, the steps for the planned files are the same but for the key. -/
theorem map_withKey_deliveries (hq : (c.config id root).path? .privateKey = some q) (key : String) :
    ((c.plan root).deliveries.flatMap Delivery.steps).map (Step.withKey q key) =
      (((c.plan root).files.map (Material.File.withKey key)).map (·.delivery)).flatMap
        Delivery.steps := by
  rw [Material.Plan.deliveries, List.map_flatMap, List.flatMap_map, List.map_map, List.flatMap_map]
  rw [List.flatMap_def, List.flatMap_def]
  refine congrArg List.flatten (List.map_congr_left fun f hf => ?_)
  have hpath := path_eq_iff_of_mem_files_plan hq hf
  by_cases hkind : f.kind = .privateKey
  · rw [Delivery.map_withKey_steps_of_eq (d := f.delivery) key (hpath.2 hkind), Function.comp_apply,
      Material.File.withKey, if_pos hkind]
    rfl
  · rw [Delivery.map_withKey_steps_of_ne (d := f.delivery) key (mt hpath.1 hkind),
      Function.comp_apply, Material.File.withKey, if_neg hkind]

end Checked

namespace Properties

/-- **With another key the steps are the same**, but for what is written to the path of the key. -/
theorem steps_withKey {p : Properties} {i : Instance} {root q : Path} {o : Outcome}
    (h : (p.resolve i root).result = .ok o) (hq : o.config.path? .privateKey = some q) (key : String)
    (form : Config.Form) (document : Path) : (o.withKey key).steps form document =
      (o.steps form document).map (Step.withKey q key) := by
  obtain ⟨c, id, -, -, hconfig, hplan⟩ := resolve_eq_ok_iff.1 h
  cases htext : o.config.text form with
  | error e =>
      rw [Outcome.steps_of_error htext, Outcome.steps_of_error (o := o.withKey key) htext]
      rfl
  | ok s =>
      rw [hconfig] at hq
      have hdocument : document.join form.fileName ≠ q := by
        rintro rfl
        exact Material.target?_place_ne_document root document .privateKey form
          (congrArg Path.target? (c.eq_place_of_path? id root hq).symm)
      have hfiles := Checked.map_withKey_deliveries hq key
      rw [← hplan] at hfiles
      rw [Outcome.steps_of_text htext, Outcome.steps_of_text (o := o.withKey key) htext,
        List.flatMap_cons, List.flatMap_cons, List.map_append, hfiles,
        Delivery.map_withKey_steps_of_ne key hdocument]
      rfl

/-- A path that the document names is that of a planned file of its kind. -/
theorem exists_mem_files_of_path? {p : Properties} {i : Instance} {root q : Path} {o : Outcome}
    (h : (p.resolve i root).result = .ok o) {k : Material.Kind} (hq : o.config.path? k = some q) :
    ∃ f ∈ o.materials.files, f.kind = k ∧ f.path = q := by
  obtain ⟨c, id, -, -, hconfig, hplan⟩ := resolve_eq_ok_iff.1 h
  rw [hconfig] at hq
  rw [hplan]
  exact c.exists_mem_files_plan id root hq

/-- In every tree on the way, the file of the key is concealed. -/
theorem conceals_of_passes_steps {p : Properties} {i : Instance} {root : Path} {o : Outcome}
    (h : (p.resolve i root).result = .ok o) {f : Material.File} (hf : f ∈ o.materials.files)
    (hkind : f.kind = .privateKey) {form : Config.Form} {document : Path} {t t' : FileTree}
    (hpasses : FileTree.Passes (o.steps form document) t t') {l : Location}
    (hlocate : t'.locate f.path = .ok l) :
    File.Conceals (Utf8.encode f.contents) (t.root.fileAt? l) (t'.root.fileAt? l) := by
  obtain ⟨c, id, -, -, -, hplan⟩ := resolve_eq_ok_iff.1 h
  rw [hplan] at hf
  have hname : f.path.target? = some (Utf8.encode "pcap-api.key") := by
    rw [c.path_of_mem_files_plan root hf, hkind, Material.target?_place]
    rfl
  cases htext : o.config.text form with
  | error e =>
      rw [Outcome.steps_of_error htext] at hpasses
      rw [FileTree.eq_of_passes_nil hpasses]
      exact .untouched
  | ok s =>
      rw [Outcome.steps_of_text htext, hplan] at hpasses
      have hdelivered : f.delivery ∈ (c.plan root).deliveries := List.mem_map_of_mem hf
      exact Delivery.conceals_of_passes_flatMap (List.mem_cons_of_mem _ hdelivered)
        ((Material.Kind.isSecret_iff _).2 hkind) (c.nodup_targets root document form s [])
        hpasses ((FileTree.getLast?_of_target? hlocate hname).trans hname.symm)

/-- **The private key is not exposed while a configuration is written.**  Writing is doing steps;
every beginning of them leads to a tree on the way; and in all these trees the key that the
operator wrote is concealed, wherever the document goes.  Had the operator written another key, the
document and the steps would be the same, but for that one write. -/
theorem concealsKey_of_resolve {p : Properties} {i : Instance} {root : Path} {o : Outcome}
    (h : (p.resolve i root).result = .ok o) (form : Config.Form) (document : Path) :
    (∀ t, ((o.write form document : StateM FileTree _) t).2 =
        ((performAll (o.steps form document) : StateM FileTree _) t).2) ∧
      (∀ n t, FileTree.Passes (o.steps form document) t
        ((performAll ((o.steps form document).take n) : StateM FileTree _) t).2) ∧
      ∀ q, o.config.path? .privateKey = some q →
        (∃ key, Material.Holds p .privateKey key ∧ o.ConcealsKey form document q key) ∧
          ∀ other, Text.IsPresent (some other) →
            ∃ o', ((p.withKey other).resolve i root).result = .ok o' ∧ o'.config = o.config ∧
              o'.steps form document = (o.steps form document).map (Step.withKey q other) := by
  refine ⟨o.write_run form document, fun n t => FileTree.passes_performAll_take _ n t,
    fun q hq => ⟨?_, fun other hother => ?_⟩⟩
  · obtain ⟨f, hf, hkind, rfl⟩ := exists_mem_files_of_path? h hq
    exact ⟨f.contents, hkind ▸ holds_of_resolve h f hf,
      fun t t' hpasses l hlocate => conceals_of_passes_steps h hf hkind hpasses hlocate,
      fun other => steps_withKey h hq other form document⟩
  · exact ⟨_, resolve_withKey h hq hother, rfl, steps_withKey h hq other form document⟩

theorem concealsKey_ofEverything :
    (everything.resolve .blankEnded (.ofString "r/")).result = .ok .ofEverything ∧
      Outcome.ofEverything.config.path? .privateKey = some (.ofString "r/certs/pcap-api.key") ∧
      (∃ key, Material.Holds everything .privateKey key ∧
        Outcome.ofEverything.ConcealsKey .json (.ofString "s") (.ofString "r/certs/pcap-api.key")
          key) ∧
      ∃ o, ((everything.withKey "other").resolve .blankEnded (.ofString "r/")).result = .ok o ∧
        o.steps .json (.ofString "s") = (Outcome.ofEverything.steps .json (.ofString "s")).map
          (Step.withKey (.ofString "r/certs/pcap-api.key") "other") := by
  obtain ⟨hconceals, hother⟩ :=
    (concealsKey_of_resolve resolve_everything .json (.ofString "s")).2.2 _ rfl
  obtain ⟨o, ho, -, hsteps⟩ := hother "other" ⟨_, rfl, by decide⟩
  exact ⟨resolve_everything, rfl, hconceals, o, ho, hsteps⟩

end Properties

end CaptureConfig

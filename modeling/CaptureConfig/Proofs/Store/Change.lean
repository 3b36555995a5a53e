/-
**What the steps on a tree of files change.**

Each step either makes directories, and then leaves every file as it is, or changes the one file
that its path names, and then leaves everything else as it is.  Either way the tree has grown.

Main definitions:

* `FileTree.Puts` — one file has been put at a place, and nothing else has changed;
* `FileTree.Extends` — directories have been made, and nothing else has changed;
* `FileTree.Builds` — a program that at most makes directories.

Main results:

* `FileTree.puts_openEmpty`, `FileTree.puts_setMode`, `FileTree.puts_append` — one file changes;
* `FileTree.builds_makeDirectories` — **making directories changes no file**;
* `performAll_append_eq_ok_iff` — steps that are all done.
-/

import CaptureConfig.Proofs.Store.Growth
import CaptureConfig.Store.Step

set_option relaxedAutoImplicit false
set_option autoImplicit false

namespace CaptureConfig

namespace FileTree

/-- **One file has been put at a place**, and nothing else has changed. -/
structure Puts (t t' : FileTree) (l : Location) (f : File) : Prop where
  current : t'.current = t.current
  file : t'.root.fileAt? l = some f
  others : ∀ k, k ≠ l → t'.root.fileAt? k = t.root.fileAt? k
  directories : ∀ k, t'.root.directoryAt k = t.root.directoryAt k

/-- **Directories have been made**, and nothing else has changed. -/
structure Extends (t t' : FileTree) : Prop where
  current : t'.current = t.current
  files : ∀ k, t'.root.fileAt? k = t.root.fileAt? k
  directory : ∀ k, t.root.directoryAt k = true → t'.root.directoryAt k = true

section

variable {t t' t'' : FileTree} {p : Path} {l : Location} {f : File}

theorem Puts.grows (h : t.Puts t' l f) : t.Grows t' where
  current := h.current
  directory k hk := (h.directories k).trans hk
  file k hk := by
    by_cases hkl : k = l
    · rw [hkl, h.file]
      rfl
    · rw [h.others k hkl]
      exact hk

/-- A file that is put twice is there as it was put last. -/
theorem Puts.trans {g : File} (h : t.Puts t' l f) (h' : t'.Puts t'' l g) : t.Puts t'' l g :=
  ⟨h'.current.trans h.current, h'.file, fun k hk => (h'.others k hk).trans (h.others k hk),
    fun k => (h'.directories k).trans (h.directories k)⟩

theorem Extends.refl (t : FileTree) : t.Extends t := ⟨rfl, fun _ => rfl, fun _ h => h⟩

theorem Extends.trans (h : t.Extends t') (h' : t'.Extends t'') : t.Extends t'' :=
  ⟨h'.current.trans h.current, fun k => (h'.files k).trans (h.files k),
    fun k hk => h'.directory k (h.directory k hk)⟩

theorem Extends.grows (h : t.Extends t') : t.Grows t' :=
  ⟨h.current, h.directory, fun k hk => by rwa [h.files k]⟩

/-! ### Changes of one file -/

theorem puts_put (hput : (t.root.put l (.file f)).get? l = some (.file f))
    (hl : t.root.directoryAt l = false) : t.Puts (t.put l (.file f)) l f where
  current := rfl
  file := Node.fileAt?_eq_some_iff.2 hput
  others k hk := Node.fileAt?_put_of_ne hput hl (Node.get?_file_cons f) hk
  directories k := by
    by_cases hkl : k = l
    · rw [hkl, hl]
      exact Node.directoryAt_of_fileAt? (Node.fileAt?_eq_some_iff.2 hput)
    · exact Node.directoryAt_put_of_ne hput hl (Node.get?_file_cons f) hkl

/-- A file takes the place of another one. -/
theorem puts_put_of_fileAt? {g : File} (h : t.root.fileAt? l = some g) :
    t.Puts (t.put l (.file f)) l f :=
  puts_put (Node.get?_put_of_isSome _ (by rw [Node.fileAt?_eq_some_iff.1 h]; rfl))
    (Node.directoryAt_of_fileAt? h)

/-- A file that is put where nothing was. -/
theorem puts_put_of_get?_eq_none {parent : Location} {name : Name}
    (hparent : t.root.directoryAt parent = true) (h : t.root.get? (parent ++ [name]) = none) :
    t.Puts (t.put (parent ++ [name]) (.file f)) (parent ++ [name]) f :=
  puts_put (Node.get?_put_self _ name parent t.root hparent) (Node.directoryAt_of_get?_eq_none h)

theorem file_eq_ok_iff :
    t.file p = .ok (l, f) ↔ t.locate p = .ok l ∧ t.root.fileAt? l = some f := by
  rw [FileTree.file]
  cases t.locate p with
  | error why => exact ⟨by rintro ⟨⟩, by rintro ⟨⟨⟩, -⟩⟩
  | ok k =>
      simp only [bind, Except.bind]
      cases hf : t.root.fileAt? k with
      | none => exact ⟨by rintro ⟨⟩, by rintro ⟨⟨⟩, h⟩; rw [hf] at h; cases h⟩
      | some g =>
          exact ⟨by rintro ⟨⟩; exact ⟨rfl, hf⟩, by rintro ⟨⟨⟩, h⟩; rw [hf] at h; cases h; rfl⟩

/-- A path that names a file ends with a name, and not with a slash. -/
theorem exists_leads_of_file (h : t.file p = .ok (l, f)) : ∃ parent name,
    t.Leads p (.entry parent name) ∧ l = parent ++ [name] ∧ name.length ≤ 255 ∧
      p.endsWithSlash = false := by
  obtain ⟨hlocate, hfile⟩ := file_eq_ok_iff.1 h
  obtain ⟨s, hleads⟩ := leads_of_locate hlocate
  have hnot := Node.directoryAt_of_fileAt? hfile
  cases s with
  | directory k =>
      obtain rfl : k = l := Except.ok.inj ((locate_of_directory hleads).symm.trans hlocate)
      cases hleads with
      | directory _ start _ walk =>
          rw [directoryAt_of_walk (start_eq_ok_iff.1 start).1 walk] at hnot
          cases hnot
  | entry parent name =>
      obtain ⟨rfl, hlength, hdirectory | ⟨-, hslash⟩⟩ := (locate_entry_iff hleads).1 hlocate
      · rw [hdirectory] at hnot
        cases hnot
      · exact ⟨parent, name, hleads, rfl, hlength, hslash⟩

/-- What an empty file is made of: of nothing, or of the file that was there. -/
theorem cases_of_openEmpty {parent : Location} {name : Name} {mode : Nat}
    (hleads : t.Leads p (.entry parent name)) (h : t.openEmpty p mode = .ok t') :
    p.endsWithSlash = false ∧ name.length ≤ 255 ∧
      ((t.root.get? (parent ++ [name]) = none ∧
          t' = t.put (parent ++ [name]) (.file ⟨mode, []⟩)) ∨
        ∃ f, t.root.get? (parent ++ [name]) = some (.file f) ∧ f.writable = true ∧
          t' = t.put (parent ++ [name]) (.file ⟨f.mode, []⟩)) := by
  rw [openEmpty, slot_eq_ok_iff.2 hleads] at h
  cases hslash : p.endsWithSlash with
  | true => simp only [bind, Except.bind, hslash] at h; cases h
  | false =>
      simp only [bind, Except.bind, hslash, Bool.false_eq_true, if_false, entry?, node?] at h
      by_cases hlength : 255 < name.length
      · rw [if_pos hlength] at h
        cases h
      · rw [if_neg hlength] at h
        refine ⟨rfl, Nat.not_lt.1 hlength, ?_⟩
        cases hget : t.root.get? (parent ++ [name]) with
        | none =>
            rw [hget] at h
            exact .inl ⟨rfl, (Except.ok.inj h).symm⟩
        | some x =>
            rw [hget] at h
            cases x with
            | directory entries => cases h
            | file f =>
                simp only at h
                split at h
                next hwritable => exact .inr ⟨f, rfl, hwritable, (Except.ok.inj h).symm⟩
                next => cases h

/-- **An empty file**: it keeps the permissions of the one that was there. -/
theorem puts_openEmpty {mode : Nat} (h : t.openEmpty p mode = .ok t') :
    ∃ l, t'.locate p = .ok l ∧ l.getLast? = p.target? ∧
      t.Puts t' l ⟨((t.root.fileAt? l).map File.mode).getD mode, []⟩ := by
  cases hslot : t.slot p with
  | error why => rw [openEmpty, hslot] at h; cases h
  | ok s =>
      have hleads := slot_eq_ok_iff.1 hslot
      cases s with
      | directory l => rw [openEmpty, hslot] at h; cases h
      | entry parent name =>
          obtain ⟨hslash, hlength, hmade⟩ := cases_of_openEmpty hleads h
          have hputs : t.Puts t' (parent ++ [name])
              ⟨((t.root.fileAt? (parent ++ [name])).map File.mode).getD mode, []⟩ := by
            obtain ⟨hnone, rfl⟩ | ⟨f, hfile, -, rfl⟩ := hmade
            · rw [Node.fileAt?, hnone]
              exact puts_put_of_get?_eq_none hleads.directoryAt hnone
            · rw [Node.fileAt?_eq_some_iff.2 hfile]
              exact puts_put_of_fileAt? (Node.fileAt?_eq_some_iff.2 hfile)
          refine ⟨parent ++ [name], ?_, ?_, hputs⟩
          · refine (locate_entry_iff (hputs.grows.leads hleads)).2 ⟨rfl, hlength, .inr ⟨?_, hslash⟩⟩
            rw [hputs.file]
            rfl
          · rw [List.getLast?_concat, hleads.target?_eq]

/-- Other permissions. -/
theorem puts_setMode (hfile : t.file p = .ok (l, f)) {mode : Nat}
    (h : t.setMode p mode = .ok t') : t.Puts t' l { f with mode := mode } := by
  rw [setMode, hfile] at h
  obtain rfl := Except.ok.inj h
  exact puts_put_of_fileAt? (file_eq_ok_iff.1 hfile).2

/-- More contents at the end. -/
theorem puts_append (hfile : t.file p = .ok (l, f)) {octets : List UInt8}
    (h : t.append p octets = .ok t') :
    t.Puts t' l { f with contents := f.contents ++ octets } := by
  rw [append, hfile] at h
  obtain rfl := Except.ok.inj h
  exact puts_put_of_fileAt? (file_eq_ok_iff.1 hfile).2

theorem exists_puts_setMode {mode : Nat} (h : t.setMode p mode = .ok t') :
    ∃ l f, t.file p = .ok (l, f) ∧ t.Puts t' l { f with mode := mode } := by
  cases hfile : t.file p with
  | error why => rw [setMode, hfile] at h; cases h
  | ok found => exact ⟨found.1, found.2, rfl, puts_setMode hfile h⟩

theorem exists_puts_append {octets : List UInt8} (h : t.append p octets = .ok t') :
    ∃ l f, t.file p = .ok (l, f) ∧ t.Puts t' l { f with contents := f.contents ++ octets } := by
  cases hfile : t.file p with
  | error why => rw [append, hfile] at h; cases h
  | ok found => exact ⟨found.1, found.2, rfl, puts_append hfile h⟩

/-! ### Making directories -/

theorem extends_put {parent : Location} {name : Name} (hparent : t.root.directoryAt parent = true)
    (h : t.root.get? (parent ++ [name]) = none) :
    t.Extends (t.put (parent ++ [name]) (.directory [])) := by
  have hput := Node.get?_put_self (.directory []) name parent t.root hparent
  have hl := Node.directoryAt_of_get?_eq_none h
  have hempty (name : Name) (rest : Location) : (Node.directory []).get? (name :: rest) = none := by
    rw [Node.get?_directory_cons]
    rfl
  refine ⟨rfl, fun k => ?_, fun k hk => ?_⟩
  · by_cases hkl : k = parent ++ [name]
    · rw [hkl]
      show ((t.root.put _ _).get? _).bind _ = (t.root.get? _).bind _
      rw [hput, h]
      rfl
    · exact Node.fileAt?_put_of_ne hput hl hempty hkl
  · refine (Node.directoryAt_put_of_ne hput hl hempty ?_).trans hk
    rintro rfl
    rw [hl] at hk
    cases hk

/-- **What a new directory is**: one under a name that nothing has. -/
theorem makeDirectory_eq_ok_iff : t.makeDirectory p = .ok t' ↔ ∃ parent name,
    t.Leads p (.entry parent name) ∧ name.length ≤ 255 ∧ t.root.get? (parent ++ [name]) = none ∧
      t' = t.put (parent ++ [name]) (.directory []) := by
  rw [makeDirectory]
  cases hslot : t.slot p with
  | error why =>
      refine ⟨by rintro ⟨⟩, ?_⟩
      rintro ⟨_, _, hleads, -⟩
      rw [slot_eq_ok_iff.2 hleads] at hslot
      cases hslot
  | ok s =>
      have hleads := slot_eq_ok_iff.1 hslot
      cases s with
      | directory l =>
          refine ⟨by rintro ⟨⟩, ?_⟩
          rintro ⟨_, _, hleads', -⟩
          rw [slot_eq_ok_iff.2 hleads'] at hslot
          cases hslot
      | entry parent name =>
          change Except.bind ( t.entry? parent name) _ = _ ↔ _
          constructor
          · intro h
            rw [ entry?, node?] at h
            split at h
            next => cases h
            next hlength =>
              cases hget : t.root.get? (parent ++ [name]) with
              | some x => rw [hget] at h; cases h
              | none =>
                  rw [hget] at h
                  exact ⟨parent, name, hleads, Nat.not_lt.1 hlength, hget,
                    (Except.ok.inj h).symm⟩
          · rintro ⟨parent', name', hleads', hlength, hget, rfl⟩
            rw [slot_eq_ok_iff.2 hleads'] at hslot
            cases hslot
            rw [ entry?, if_neg (Nat.not_lt.2 hlength), node?, hget]
            rfl

theorem extends_makeDirectory (h : t.makeDirectory p = .ok t') : t.Extends t' := by
  obtain ⟨parent, name, hleads, -, hget, rfl⟩ := makeDirectory_eq_ok_iff.1 h
  exact extends_put hleads.directoryAt hget

end

theorem change_eq_ok_iff {f : FileTree → Except Refusal FileTree} {t t' : FileTree} :
    change f t = (.ok (), t') ↔ f t = .ok t' := by
  rw [change]
  cases f t with
  | error why => exact ⟨by rintro ⟨⟩, by rintro ⟨⟩⟩
  | ok x => exact ⟨fun h => by cases h; rfl, fun h => by cases h; rfl⟩

/-- A program that at most makes directories. -/
def Builds {α : Type} (x : StateM FileTree α) : Prop :=
  ∀ t : FileTree, t.Extends (x t).2

section

variable {α β : Type}

theorem builds_pure (a : α) : Builds (pure a) := fun t => .refl t

theorem Builds.bind {x : StateM FileTree α} {f : α → StateM FileTree β} (hx : Builds x)
    (hf : ∀ a, Builds (f a)) : Builds (x >>= f) := fun t => (hx t).trans (hf (x t).1 (x t).2)

end

theorem builds_isDirectory (p : Path) :
    Builds (return (← get).isDirectory p : StateM FileTree Bool) := fun t => .refl t

/-- A change that is refused changes nothing. -/
theorem builds_makeDirectory (p : Path) : Builds (change fun t => t.makeDirectory p) := by
  intro t
  rw [change]
  cases h : t.makeDirectory p with
  | error why => exact .refl t
  | ok t' => exact extends_makeDirectory h

theorem builds_settleDirectory {isDirectory : Path → StateM FileTree Bool}
    (hread : ∀ p, Builds (isDirectory p)) (p : Path) (result : Except Refusal Unit) :
    Builds (settleDirectory isDirectory p result) := by
  cases result with
  | ok _ => exact builds_pure _
  | error why => exact (hread p).bind fun _ => builds_pure _

theorem builds_makeMissing {make : Path → StateM FileTree (Except Refusal Unit)}
    {isDirectory : Path → StateM FileTree Bool} (hmake : ∀ p, Builds (make p))
    (hread : ∀ p, Builds (isDirectory p)) (paths : List Path) :
    Builds (makeMissing make isDirectory paths) := by
  induction paths with
  | nil => exact builds_pure _
  | cons p above ih =>
      rw [makeMissing]
      refine (hmake p).bind fun result => ?_
      split
      next =>
        -- The directory above is made first, and then this one once more.
        refine ih.bind fun result => ?_
        cases result with
        | ok _ => exact (hmake p).bind fun result => builds_settleDirectory hread p result
        | error why => exact builds_pure _
      next => exact builds_settleDirectory hread p result

/-- **Making the directories that are missing changes no file**, also if not all can be made. -/
theorem builds_makeDirectories (p : Path) : Builds (Step.makeDirectories p).run :=
  builds_makeMissing builds_makeDirectory builds_isDirectory p.chain

end FileTree

/-! ### Steps one after another -/

/-- One program behind another one takes up the tree that this leaves. -/
theorem bind_run {α β : Type} (x : StateM FileTree α) (f : α → StateM FileTree β) (t : FileTree) :
    (x >>= f) t = f (x t).1 (x t).2 := rfl

section

variable {p : Path} {t t' : FileTree}

theorem run_openEmpty_eq_ok_iff {mode : Nat} :
    (Step.openEmpty p mode).run t = (.ok (), t') ↔ t.openEmpty p mode = .ok t' := by
  rw [Step.run]
  exact FileTree.change_eq_ok_iff

theorem run_setMode_eq_ok_iff {mode : Nat} :
    (Step.setMode p mode).run t = (.ok (), t') ↔ t.setMode p mode = .ok t' := by
  rw [Step.run]
  exact FileTree.change_eq_ok_iff

theorem run_append_eq_ok_iff {octets : List UInt8} :
    (Step.append p octets).run t = (.ok (), t') ↔ t.append p octets = .ok t' := by
  rw [Step.run]
  exact FileTree.change_eq_ok_iff

end

theorem performAll_cons_eq_ok_iff {s : Step} {rest : List Step} {t t' : FileTree} :
    (performAll (s :: rest) : StateM FileTree _) t = (.ok (), t') ↔
      ∃ t₁, s.run t = (.ok (), t₁) ∧ (performAll rest : StateM FileTree _) t₁ = (.ok (), t') := by
  have hperform : (FileSystem.perform s : StateM FileTree _) = s.run := rfl
  rw [performAll, bind_run, hperform]
  generalize s.run t = ran
  obtain ⟨result, t₁⟩ := ran
  cases result with
  | ok _ => exact ⟨fun h => ⟨t₁, rfl, h⟩, by rintro ⟨_, ⟨⟩, h⟩; exact h⟩
  | error why => exact ⟨by rintro ⟨⟩, by rintro ⟨_, ⟨⟩, -⟩⟩

theorem performAll_append_eq_ok_iff {steps rest : List Step} {t t' : FileTree} :
    (performAll (steps ++ rest) : StateM FileTree _) t = (.ok (), t') ↔
      ∃ t₁, (performAll steps : StateM FileTree _) t = (.ok (), t₁) ∧
        (performAll rest : StateM FileTree _) t₁ = (.ok (), t') := by
  induction steps generalizing t with
  | nil => exact ⟨fun h => ⟨t, rfl, h⟩, by rintro ⟨_, ⟨⟩, h⟩; exact h⟩
  | cons s steps ih =>
      rw [List.cons_append, performAll_cons_eq_ok_iff]
      constructor
      · rintro ⟨t₁, hs, h⟩
        obtain ⟨t₂, hsteps, hrest⟩ := ih.1 h
        exact ⟨t₂, performAll_cons_eq_ok_iff.2 ⟨t₁, hs, hsteps⟩, hrest⟩
      · rintro ⟨t₂, hsteps, hrest⟩
        obtain ⟨t₁, hs, hsteps⟩ := performAll_cons_eq_ok_iff.1 hsteps
        exact ⟨t₁, hs, ih.2 ⟨t₂, hsteps, hrest⟩⟩

theorem performAll_singleton_eq_ok_iff {s : Step} {t t' : FileTree} :
    (performAll [s] : StateM FileTree _) t = (.ok (), t') ↔ s.run t = (.ok (), t') := by
  rw [performAll_cons_eq_ok_iff]
  exact ⟨by rintro ⟨t₁, hs, ⟨⟩⟩; exact hs, fun h => ⟨t', h, rfl⟩⟩

end CaptureConfig

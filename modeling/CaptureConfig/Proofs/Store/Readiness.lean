/-
**What has been made can be made again.**

A directory that is there is not made a second time, and a file that is there and may be written is
emptied and written like a new one.  So steps that were done once are not refused when they are done
again in the tree that they have led to.

Main results:

* `FileTree.run_makeDirectories_of_isDirectory` — directories that are there are left alone;
* `FileTree.isDirectory_of_run_makeDirectories` — directories that have been made are there;
* `FileTree.exists_openEmpty` — a file that may be written can be emptied;
* `FileTree.writable_of_openEmpty` — a file that has been emptied may be written.
-/

import CaptureConfig.Proofs.Store.Passage

set_option relaxedAutoImplicit false
set_option autoImplicit false

namespace CaptureConfig

namespace FileTree

section

variable {t t' : FileTree} {p : Path} {l : Location} {f : File}

/-! ### Directories -/

theorem isDirectory_iff :
    t.isDirectory p = true ↔ ∃ l, t.locate p = .ok l ∧ t.root.directoryAt l = true := by
  rw [isDirectory]
  cases t.locate p with
  | error why => exact ⟨by rintro ⟨⟩, by rintro ⟨_, ⟨⟩, -⟩⟩
  | ok l => exact ⟨fun h => ⟨l, rfl, h⟩, by rintro ⟨_, ⟨⟩, h⟩; exact h⟩

theorem Grows.isDirectory (hgrows : t.Grows t') (h : t.isDirectory p = true) :
    t'.isDirectory p = true := by
  obtain ⟨l, hlocate, hl⟩ := isDirectory_iff.1 h
  exact isDirectory_iff.2 ⟨l, hgrows.locate hlocate, hgrows.directory l hl⟩

/-- A directory that is there is in the way of a new one. -/
theorem makeDirectory_of_isDirectory (h : t.isDirectory p = true) :
    t.makeDirectory p = .error .alreadyExists := by
  obtain ⟨l, hlocate, hl⟩ := isDirectory_iff.1 h
  obtain ⟨s, hleads⟩ := leads_of_locate hlocate
  rw [makeDirectory, slot_eq_ok_iff.2 hleads]
  cases s with
  | directory k => rfl
  | entry parent name =>
      obtain ⟨rfl, hlength, -⟩ := (locate_entry_iff hleads).1 hlocate
      change Except.bind ( t.entry? parent name) _ = _
      rw [ entry?, if_neg (Nat.not_lt.2 hlength), node?]
      cases hget : t.root.get? (parent ++ [name]) with
      | none => rw [Node.directoryAt_of_get?_eq_none hget] at hl; cases hl
      | some x => rfl

/-- A directory that has been made is there. -/
theorem isDirectory_of_makeDirectory (h : t.makeDirectory p = .ok t') : t'.isDirectory p = true := by
  obtain ⟨parent, name, hleads, hlength, hget, rfl⟩ := makeDirectory_eq_ok_iff.1 h
  have hgrows := (extends_put hleads.directoryAt hget).grows
  have hmade : (t.put (parent ++ [name]) (.directory [])).root.directoryAt (parent ++ [name]) =
      true := by
    rw [Node.directoryAt, put, Node.get?_put_self _ name parent t.root hleads.directoryAt]
    rfl
  exact isDirectory_iff.2
    ⟨_, (locate_entry_iff (hgrows.leads hleads)).2 ⟨rfl, hlength, .inl hmade⟩, hmade⟩

end

/-! ### Directories that are missing -/

/-- Making a directory. -/
abbrev make (p : Path) : StateM FileTree (Except Refusal Unit) := change fun t => t.makeDirectory p

/-- Looking for a directory. -/
abbrev look (p : Path) : StateM FileTree Bool := return (← get).isDirectory p

section

variable {t t₁ t' : FileTree} {p : Path}

theorem settleDirectory_error (why : Refusal) (t : FileTree) : settleDirectory look p (.error why) t =
    (if t.isDirectory p then .ok () else .error why, t) := rfl

/-- A directory that has been made, or was found, is there. -/
theorem isDirectory_of_settleDirectory (h : settleDirectory look p (make p t).1 (make p t).2 = (.ok (), t')) :
    t'.isDirectory p = true := by
  obtain ⟨t₁, hmade, hrun⟩ | ⟨why, -, hrun⟩ := change_cases (fun t => t.makeDirectory p) t
  · rw [make, hrun] at h
    obtain rfl : t₁ = t' := congrArg Prod.snd h
    exact isDirectory_of_makeDirectory hmade
  · rw [make, hrun, settleDirectory_error] at h
    obtain rfl : t = t' := congrArg Prod.snd h
    by_cases hthere : t.isDirectory p = true
    · exact hthere
    · rw [if_neg hthere] at h
      cases h

theorem makeMissing_cons_run (p : Path) (above : List Path) (t : FileTree) :
    makeMissing make look (p :: above) t =
      match (make p t).1 with
      | .error .notFound =>
          match (makeMissing make look above (make p t).2).1 with
          | .ok () =>
              let t₁ := (makeMissing make look above (make p t).2).2
              settleDirectory look p (make p t₁).1 (make p t₁).2
          | .error why => (.error why, (makeMissing make look above (make p t).2).2)
      | result => settleDirectory look p result (make p t).2 := by
  rw [makeMissing, bind_run]
  generalize make p t = ran
  obtain ⟨result, t₁⟩ := ran
  cases result with
  | ok _ => rfl
  | error why =>
      cases why <;> try rfl
      simp only [bind_run]
      cases (makeMissing make look above t₁).1 <;> rfl

theorem isDirectory_of_makeMissing {above : List Path}
    (h : makeMissing make look (p :: above) t = (.ok (), t')) : t'.isDirectory p = true := by
  rw [makeMissing_cons_run] at h
  split at h
  next =>
    split at h
    next => exact isDirectory_of_settleDirectory h
    next => cases h
  next => exact isDirectory_of_settleDirectory h

/-- Nothing is made where a directory is. -/
theorem makeMissing_of_isDirectory (h : t.isDirectory p = true) (above : List Path) :
    makeMissing make look (p :: above) t = (.ok (), t) := by
  have hmake : make p t = (.error .alreadyExists, t) := by
    rw [make, change, makeDirectory_of_isDirectory h]
  rw [makeMissing_cons_run, hmake]
  show settleDirectory look p (.error .alreadyExists) t = _
  rw [settleDirectory_error, if_pos h]

end

/-! ### Steps once more -/

end FileTree

/-- A path with octets comes before those above it. -/
theorem Path.exists_chain_eq_cons {p : Path} (h : p.octets ≠ []) : ∃ above, p.chain = p :: above := by
  refine ⟨p.ancestors.tail.filter fun q => ! q.octets.isEmpty, ?_⟩
  rw [chain, List.filter_cons_of_pos]
  simpa using h

/-- Above a path without octets there is nothing to make. -/
theorem Path.chain_of_octets_eq_nil {p : Path} (h : p.octets = []) : p.chain = [] := by
  obtain ⟨octets⟩ := p
  obtain rfl : octets = [] := h
  rfl

namespace FileTree

section

variable {t t' : FileTree} {p : Path} {l : Location} {f : File} {mode : Nat}

/-- **Directories that are there are left alone.** -/
theorem run_makeDirectories_of_isDirectory (h : p.octets = [] ∨ t.isDirectory p = true) :
    (Step.makeDirectories p).run t = (.ok (), t) := by
  by_cases hnil : p.octets = []
  · rw [Step.run, Path.chain_of_octets_eq_nil hnil]
    rfl
  · obtain ⟨above, hchain⟩ := Path.exists_chain_eq_cons hnil
    rw [Step.run, hchain]
    exact makeMissing_of_isDirectory (h.resolve_left hnil) above

/-- **Directories that have been made are there.** -/
theorem isDirectory_of_run_makeDirectories (h : (Step.makeDirectories p).run t = (.ok (), t')) :
    p.octets = [] ∨ t'.isDirectory p = true := by
  by_cases hnil : p.octets = []
  · exact .inl hnil
  · obtain ⟨above, hchain⟩ := Path.exists_chain_eq_cons hnil
    rw [Step.run, hchain] at h
    exact .inr (isDirectory_of_makeMissing h)

/-- **A file that may be written can be emptied.** -/
theorem exists_openEmpty (h : t.file p = .ok (l, f)) (hwritable : f.writable = true) (mode : Nat) :
    ∃ t', t.openEmpty p mode = .ok t' := by
  obtain ⟨parent, name, hleads, rfl, hlength, hslash⟩ := exists_leads_of_file h
  refine ⟨t.put (parent ++ [name]) (.file ⟨f.mode, []⟩), ?_⟩
  rw [openEmpty, slot_eq_ok_iff.2 hleads]
  simp only [bind, Except.bind, hslash, Bool.false_eq_true, if_false, entry?, node?,
    if_neg (Nat.not_lt.2 hlength), Node.fileAt?_eq_some_iff.1 (file_eq_ok_iff.1 h).2, if_pos hwritable]

/-- The permissions of a file that is there can be set. -/
theorem exists_setMode (h : t.file p = .ok (l, f)) (mode : Nat) :
    ∃ t', t.setMode p mode = .ok t' :=
  ⟨_, by rw [setMode, h]; rfl⟩

/-- More can be written to a file that is there. -/
theorem exists_append (h : t.file p = .ok (l, f)) (octets : List UInt8) :
    ∃ t', t.append p octets = .ok t' :=
  ⟨_, by rw [append, h]; rfl⟩

/-- **A file that has been emptied could be written.** -/
theorem writable_of_openEmpty (h : t.openEmpty p mode = .ok t') (hlocate : t'.locate p = .ok l)
    (hfile : t.root.fileAt? l = some f) : f.writable = true := by
  obtain ⟨k, hk, -, hputs⟩ := puts_openEmpty h
  obtain rfl : k = l := Except.ok.inj (hk.symm.trans hlocate)
  cases hslot : t.slot p with
  | error why => rw [openEmpty, hslot] at h; cases h
  | ok s =>
      have hleads := slot_eq_ok_iff.1 hslot
      cases s with
      | directory k => rw [openEmpty, hslot] at h; cases h
      | entry parent name =>
          obtain ⟨rfl, -⟩ := (locate_entry_iff (hputs.grows.leads hleads)).1 hlocate
          have hget := Node.fileAt?_eq_some_iff.1 hfile
          obtain ⟨-, -, ⟨hnone, -⟩ | ⟨g, hg, hwritable, -⟩⟩ := cases_of_openEmpty hleads h
          · rw [hget] at hnone
            cases hnone
          · rw [hget] at hg
            cases hg
            exact hwritable

end

end FileTree

end CaptureConfig

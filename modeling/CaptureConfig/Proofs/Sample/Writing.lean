/-
**What writing the sample leaves as it is.**

The sample is written in three steps, each of which follows the path anew: a look at what is there,
the directories above it, and the file.  Where something is at the place of a path, the look or one
of the steps is refused, and nothing changes, whatever dots and slashes the path has in it.  There
is one way around this.  A path that leaves a missing directory again leads nowhere when it is
looked at; but then that directory is made, and behind it the path leads to the file that was there
all along, which loses its contents.

Main definitions:

* `FileTree.Gains` — a file has come to a place, and perhaps directories;
* `Sample.Leaves` — what writing the sample leaves behind.

Main results:

* `Sample.write_of_isSome` — **something that is there is not written over**, unless the path leaves
  a missing directory again;
* `Sample.spares_of_write` — what becomes of a tree, in all cases;
* `Sample.write_over` — the way around.
-/

import CaptureConfig.Command.Sample
import CaptureConfig.Proofs.Stoppage
import CaptureConfig.Proofs.Store.Place

set_option relaxedAutoImplicit false
set_option autoImplicit false

namespace CaptureConfig

/-- **A file has come to a place**, in the stead of one that may have been there; directories may
have been made, and nothing else has changed. -/
structure FileTree.Gains (t t' : FileTree) (l : Location) (f : File) : Prop where
  current : t'.current = t.current
  file : t'.root.fileAt? l = some f
  others : ∀ k, k ≠ l → t'.root.fileAt? k = t.root.fileAt? k
  directory : ∀ k, t.root.directoryAt k = true → t'.root.directoryAt k = true

namespace Sample

/-- The sample as a file that is to be written. -/
def delivery (p : Path) : Delivery := ⟨p, text, false, []⟩

/-- **What writing the sample leaves behind.** -/
inductive Leaves (t : FileTree) (p : Path) : Except Failure Unit → FileTree → Prop
  /-- A failure leaves every file as it is; at most directories have been made. -/
  | refused {e : Failure} {t' : FileTree} (same : t.Extends t') : Leaves t p (.error e) t'
  /-- The sample is the one new file, where nothing was. -/
  | fresh {t' : FileTree} (free : t.root.get? (t.place p) = none)
      (gains : t.Gains t' (t.place p) ⟨0o644, Utf8.encode text⟩) : Leaves t p (.ok ()) t'
  /-- The sample has taken the contents of a file that the path hid. -/
  | replaced {t' : FileTree} {f : File} (climbs : t.ClimbsOut p)
      (hidden : t.root.fileAt? (t.place p) = some f)
      (gains : t.Gains t' (t.place p) ⟨f.mode, Utf8.encode text⟩) : Leaves t p (.ok ()) t'

section

variable {t t' : FileTree} {p q : Path}

/-! ### The steps -/

theorem performAll_directorySteps (p : Path) (t : FileTree) :
    (performAll (directorySteps p) : StateM FileTree _) t =
      (performAll (delivery p).directorySteps : StateM FileTree _) t := by
  rw [directorySteps, Delivery.directorySteps, delivery]
  cases p.parent? with
  | none => rfl
  | some parent =>
      cases hoctets : parent.octets.isEmpty with
      | false => simp only [hoctets, Bool.false_eq_true, if_false]
      | true =>
          have hrun : (Step.makeDirectories parent).run t = (.ok (), t) :=
            FileTree.run_makeDirectories_of_isDirectory (.inl (List.isEmpty_iff.1 hoctets))
          simp only [hoctets, if_true]
          rw [FileTree.performAll_cons_run, hrun]

/-- The sample is written in the steps in which any file is written. -/
theorem performAll_steps (p : Path) (t : FileTree) :
    (performAll (steps p) : StateM FileTree _) t =
      (performAll (delivery p).steps : StateM FileTree _) t := by
  rw [steps, Delivery.steps, FileTree.performAll_append_run, List.append_assoc,
    FileTree.performAll_append_run, performAll_directorySteps]
  rfl

theorem write_of_holds (h : t.holds p = true) :
    (write p : StateM FileTree _) t = (.error (.taken p), t) := by
  have hholds : (FileSystem.holds p : StateM FileTree Bool) t = (t.holds p, t) := rfl
  rw [write, bind_run, hholds, h]
  rfl

theorem write_of_performAll (h : t.holds p = false) : (write p : StateM FileTree _) t =
    match (performAll (delivery p).steps : StateM FileTree _) t with
    | (.ok (), t') => (.ok (), t')
    | (.error (step, why), t') => (.error (failure step why), t') := by
  have hholds : (FileSystem.holds p : StateM FileTree Bool) t = (t.holds p, t) := rfl
  rw [write, bind_run, hholds, h, ← performAll_steps]
  simp only [Bool.false_eq_true, if_false, bind_run]
  generalize (performAll (steps p) : StateM FileTree _) t = ran
  obtain ⟨result, t'⟩ := ran
  cases result <;> rfl

/-- The sample is written if nothing is there and every step is taken. -/
theorem write_eq_ok_iff : (write p : StateM FileTree _) t = (.ok (), t') ↔
    t.holds p = false ∧ (performAll (delivery p).steps : StateM FileTree _) t = (.ok (), t') := by
  cases hholds : t.holds p with
  | true =>
      rw [write_of_holds hholds]
      exact ⟨fun h => (nomatch h), fun h => (nomatch h.1)⟩
  | false =>
      rw [write_of_performAll hholds]
      generalize (performAll (delivery p).steps : StateM FileTree _) t = ran
      obtain ⟨result, t₁⟩ := ran
      cases result with
      | error refused => exact ⟨fun h => (nomatch h), fun h => (nomatch h.2)⟩
      | ok _ =>
          -- The failures of the two are told in different words, so only the trees are compared.
          refine ⟨fun h => ?_, fun h => ?_⟩
          · obtain rfl : t₁ = t' := congrArg Prod.snd h
            exact ⟨rfl, rfl⟩
          · obtain rfl : t₁ = t' := congrArg Prod.snd h.2
            rfl

/-- A failure leaves every file as it is. -/
theorem extends_of_write {e : Failure} (h : (write p : StateM FileTree _) t = (.error e, t')) :
    t.Extends t' := by
  cases hholds : t.holds p with
  | true =>
      obtain rfl : t = t' := congrArg Prod.snd ((write_of_holds hholds).symm.trans h)
      exact .refl t
  | false =>
      rw [write_of_performAll hholds] at h
      cases hrun : (performAll (delivery p).steps :
          StateM FileTree (Except (Step × Refusal) Unit)) t with
      | mk result t₁ =>
          rw [hrun] at h
          cases result with
          | error refused =>
              obtain rfl : t₁ = t' := congrArg Prod.snd h
              exact (Delivery.extends_of_refused hrun).1
          | ok _ => cases h

/-! ### Something that is there -/

/-- A path to something is empty only of a file, and then the path names it. -/
theorem openEmpty_of_isSome (hthere : (t.root.get? (t.place p)).isSome = true)
    (hholds : t.holds p = false) (mode : Nat) : ∃ why, t.openEmpty p mode = .error why := by
  cases hopen : t.openEmpty p mode with
  | error why => exact ⟨why, rfl⟩
  | ok t' =>
      cases hslot : t.slot p with
      | error why => rw [FileTree.openEmpty, hslot] at hopen; cases hopen
      | ok s =>
          have hleads := FileTree.slot_eq_ok_iff.1 hslot
          cases s with
          | directory l => rw [FileTree.openEmpty, hslot] at hopen; cases hopen
          | entry parent name =>
              rw [FileTree.place_of_leads hleads] at hthere
              obtain ⟨hslash, hlength, ⟨hnone, -⟩ | ⟨f, hfile, -, -⟩⟩ :=
                FileTree.cases_of_openEmpty hleads hopen
              · rw [hnone] at hthere
                cases hthere
              · have hlocate : t.locate p = .ok (parent ++ [name]) := by
                  refine (FileTree.locate_entry_iff hleads).2 ⟨rfl, hlength, .inr ⟨?_, hslash⟩⟩
                  rw [Node.fileAt?_eq_some_iff.2 hfile]
                  rfl
                rw [FileTree.holds, hlocate] at hholds
                cases hholds

theorem performAll_directorySteps_snd (hthere : (t.root.get? (t.place p)).isSome = true)
    (hclimb : ¬ t.ClimbsOut p) :
    ((performAll (delivery p).directorySteps : StateM FileTree _) t).2 = t := by
  rw [Delivery.directorySteps, delivery]
  cases hparent : p.parent? with
  | none => rfl
  | some parent =>
      have hrun := FileTree.run_makeDirectories_of_isSome (q := parent)
        (Path.begins_of_parent? hparent) hthere hclimb
      simp only [FileTree.performAll_cons_run]
      split
      next => exact hrun
      next => exact hrun

/-- **Something that is there is not written over**, and nothing changes, unless the path leaves a
missing directory again. -/
theorem write_of_isSome (hthere : (t.root.get? (t.place p)).isSome = true)
    (hclimb : ¬ t.ClimbsOut p) :
    ∃ e, (write p : StateM FileTree (Except Failure Unit)) t = (.error e, t) := by
  cases hholds : t.holds p with
  | true => exact ⟨_, write_of_holds hholds⟩
  | false =>
      obtain ⟨why, hopen⟩ := openEmpty_of_isSome hthere hholds File.sharedMode
      have hdirectories := performAll_directorySteps_snd hthere hclimb
      have hrefused : ∃ refused, (performAll (delivery p).steps : StateM FileTree _) t =
          (.error refused, t) := by
        rw [Delivery.steps, List.append_assoc, FileTree.performAll_append_run]
        generalize (performAll (delivery p).directorySteps : StateM FileTree _) t = ran
          at hdirectories ⊢
        obtain ⟨result, t₁⟩ := ran
        obtain rfl : t₁ = t := hdirectories
        cases result with
        | error refused => exact ⟨refused, rfl⟩
        | ok _ =>
            refine ⟨(.openEmpty p File.sharedMode, why), ?_⟩
            show (performAll (.openEmpty p File.sharedMode :: _) : StateM FileTree _) t₁ = _
            rw [FileTree.performAll_cons_run, Step.run, FileTree.change, hopen]
      obtain ⟨⟨step, why⟩, hrefused⟩ := hrefused
      exact ⟨failure step why, by rw [write_of_performAll hholds, hrefused]⟩

/-! ### All cases -/

/-- Where no file was and a file is now, nothing was. -/
theorem get?_eq_none_of_grows {l : Location} {f : File} (hgrows : t.Grows t')
    (hbefore : t.root.fileAt? l = none) (hafter : t'.root.fileAt? l = some f) :
    t.root.get? l = none := by
  cases hget : t.root.get? l with
  | none => rfl
  | some x =>
      cases x with
      | file g =>
          rw [Node.fileAt?_eq_some_iff.2 hget] at hbefore
          cases hbefore
      | directory entries =>
          have hdirectory := hgrows.directory l (by rw [Node.directoryAt, hget]; rfl)
          rw [Node.directoryAt_of_fileAt? hafter] at hdirectory
          cases hdirectory

/-- The file comes to the place of the path, with the permissions of the one that it hid, and then
the path names it. -/
theorem located_of_write (h : (write p : StateM FileTree _) t = (.ok (), t')) :
    t'.locate p = .ok (t.place p) ∧ t.Gains t' (t.place p)
      ⟨((t.root.fileAt? (t.place p)).map File.mode).getD 0o644, Utf8.encode text⟩ := by
  obtain ⟨l, leaves⟩ := Delivery.leaves_of_performAll (write_eq_ok_iff.1 h).2
  have hplace : t.place p = l := by
    rw [← FileTree.place_of_locate leaves.located]
    simp only [FileTree.place, leaves.grows.current]
    rfl
  rw [hplace]
  exact ⟨leaves.located, leaves.grows.current, leaves.file, leaves.others, leaves.grows.directory⟩

/-- The path names the file that it was written to. -/
theorem file_of_write (h : (write p : StateM FileTree _) t = (.ok (), t')) :
    t'.file p = .ok (t.place p,
      ⟨((t.root.fileAt? (t.place p)).map File.mode).getD 0o644, Utf8.encode text⟩) := by
  obtain ⟨hlocated, gains⟩ := located_of_write h
  exact FileTree.file_eq_ok_iff.2 ⟨hlocated, gains.file⟩

/-- **What becomes of a tree**, whatever the path and whatever the tree. -/
theorem leaves_of_write (p : Path) (t : FileTree) :
    Leaves t p ((write p : StateM FileTree _) t).1 ((write p : StateM FileTree _) t).2 := by
  cases hwrite : (write p : StateM FileTree (Except Failure Unit)) t with
  | mk result t' =>
      cases result with
      | error e => exact .refused (extends_of_write hwrite)
      | ok _ =>
          have gains := (located_of_write hwrite).2
          have hgrows := FileTree.passes_performAll (write_eq_ok_iff.1 hwrite).2 |>.grows
          cases hbefore : t.root.fileAt? (t.place p) with
          | none =>
              rw [hbefore] at gains
              exact .fresh (get?_eq_none_of_grows hgrows hbefore gains.file) gains
          | some f =>
              rw [hbefore] at gains
              refine .replaced ?_ hbefore gains
              -- What is there is not written over by a path that does not climb.
              refine Classical.byContradiction fun hclimb => ?_
              have hthere : (t.root.get? (t.place p)).isSome = true := by
                rw [Node.fileAt?_eq_some_iff.1 hbefore]
                rfl
              obtain ⟨e, hrefused⟩ := write_of_isSome hthere hclimb
              cases hrefused.symm.trans hwrite

/-- **Writing the sample damages nothing**, whatever the path and whatever the tree, unless the path
leaves a missing directory again.  A failure changes no file; a success makes one file, where nothing
was; what is there is in the way, also of a path with other dots and slashes; and so the sample is
never written to the same place twice. -/
theorem spares_of_write (p : Path) (t : FileTree) :
    Leaves t p ((write p : StateM FileTree _) t).1 ((write p : StateM FileTree _) t).2 ∧
      ((t.root.get? (t.place p)).isSome = true → ¬ t.ClimbsOut p →
        ∃ e, (write p : StateM FileTree _) t = (.error e, t)) ∧
      ∀ t', (write p : StateM FileTree _) t = (.ok (), t') → ∀ q, t'.place q = t'.place p →
        ¬ t'.ClimbsOut q → ∃ e, (write q : StateM FileTree _) t' = (.error e, t') := by
  refine ⟨leaves_of_write p t, write_of_isSome, fun t' hwrite q hplace hclimb =>
    write_of_isSome ?_ hclimb⟩
  have gains := (located_of_write hwrite).2
  have hsame : t'.place q = t.place p := by
    rw [hplace, FileTree.place, FileTree.place, gains.current]
  rw [hsame, Node.fileAt?_eq_some_iff.1 gains.file]
  rfl

/-- A tree with a property file in it. -/
def kept : FileTree where
  root := .directory [(Utf8.encode "f.yml", .file ⟨0o644, Utf8.encode "keep me"⟩)]
  current := []

theorem eq_ok_of_isSome (ran : Except Failure Unit × FileTree)
    (h : ran.1.toOption.isSome = true) : ran = (.ok (), ran.2) := by
  obtain ⟨result, t'⟩ := ran
  cases result with
  | error e => cases h
  | ok _ => rfl

/-- **The way around**: a path that leaves a missing directory again finds nothing, makes that
directory, and then takes the contents of the file that it hid. -/
theorem write_over : ∃ t', (write (.ofString "x/../f.yml") : StateM FileTree _) kept = (.ok (), t') ∧
    kept.root.fileAt? [Utf8.encode "f.yml"] = some ⟨0o644, Utf8.encode "keep me"⟩ ∧
    t'.root.fileAt? [Utf8.encode "f.yml"] = some ⟨0o644, Utf8.encode text⟩ ∧
    text ≠ "keep me" := by
  have hfile : kept.root.fileAt? [Utf8.encode "f.yml"] =
      some ⟨0o644, Utf8.encode "keep me"⟩ := by decide +kernel
  have hplace : kept.place (.ofString "x/../f.yml") = [Utf8.encode "f.yml"] := by decide +kernel
  obtain ⟨t', hrun⟩ : ∃ t', (write (.ofString "x/../f.yml") : StateM FileTree _) kept =
      (.ok (), t') := ⟨_, eq_ok_of_isSome _ (by decide +kernel)⟩
  have leaves := leaves_of_write (.ofString "x/../f.yml") kept
  rw [hrun] at leaves
  cases leaves with
  | fresh free _ =>
      rw [hplace, Node.fileAt?_eq_some_iff.1 hfile] at free
      cases free
  | replaced _ hidden gains =>
      rw [hplace] at hidden gains
      obtain rfl := Option.some.inj (hidden.symm.trans hfile)
      exact ⟨t', hrun, hfile, gains.file, by decide +kernel⟩

end

end Sample

end CaptureConfig

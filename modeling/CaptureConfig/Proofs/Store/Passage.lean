/-
**The trees that there are while steps are done.**

Between the tree before some steps and the one behind them there are others: steps may stop after
any one of them, a step that is refused may have done something before it was, and a write may be
interrupted after any octet.  Whatever becomes of the steps, the trees on the way have grown from
the first one, and a file whose name no step ends with is on all of them as it was.

Main definitions:

* `Step.filePath?` — the path of the file that a step changes;
* `FileTree.Passes` — **a tree that there is while steps are done**.

Main results:

* `Step.effect` — a step makes directories, changes the file that its path names, or does nothing;
* `FileTree.Passes.fileAt?_eq` — **a file of another name stays as it was**;
* `FileTree.passes_append` — the trees while two lists of steps are done.
-/

import CaptureConfig.Proofs.Store.Change

set_option relaxedAutoImplicit false
set_option autoImplicit false

namespace CaptureConfig

/-! ### What one step does -/

namespace FileTree

/-- A change is done, or it is refused and changes nothing. -/
theorem change_cases (f : FileTree → Except Refusal FileTree) (t : FileTree) :
    (∃ t', f t = .ok t' ∧ change f t = (.ok (), t')) ∨
      ∃ why, f t = .error why ∧ change f t = (.error why, t) := by
  rw [change]
  cases f t with
  | ok t' => exact .inl ⟨t', rfl, rfl⟩
  | error why => exact .inr ⟨why, rfl, rfl⟩

/-- What a path that ends with a name names lies under that name. -/
theorem getLast?_of_target? {t : FileTree} {p : Path} {l : Location} {name : Name}
    (h : t.locate p = .ok l) (htarget : p.target? = some name) : l.getLast? = some name := by
  obtain ⟨s, hleads⟩ := leads_of_locate h
  cases s with
  | directory k =>
      cases hleads with
      | directory _ _ hnone _ => rw [htarget] at hnone; cases hnone
  | entry parent name' =>
      obtain ⟨rfl, -, -⟩ := (locate_entry_iff hleads).1 h
      rw [List.getLast?_concat, ← hleads.target?_eq, htarget]

/-- A file lies under the name that its path ends with. -/
theorem getLast?_of_locate {t : FileTree} {p : Path} {l : Location} {f : File}
    (h : t.locate p = .ok l) (hfile : t.root.fileAt? l = some f) : l.getLast? = p.target? := by
  obtain ⟨parent, name, hleads, rfl, -⟩ := exists_leads_of_file (file_eq_ok_iff.2 ⟨h, hfile⟩)
  rw [List.getLast?_concat, hleads.target?_eq]

end FileTree

namespace Step

/-- The path of the file that a step changes. -/
def filePath? : Step → Option Path
  | .makeDirectories _ => none
  | .openEmpty p _ => some p
  | .setMode p _ => some p
  | .append p _ => some p

/-- **What a step does**, be it refused or not: it makes directories at most, or it puts a file at
the place that its path names. -/
theorem effect (s : Step) (t : FileTree) : t.Extends (s.run t).2 ∨
    ∃ p ∈ s.filePath?, ∃ l f, l.getLast? = p.target? ∧ t.Puts (s.run t).2 l f := by
  cases s with
  | makeDirectories p => exact .inl (FileTree.builds_makeDirectories p t)
  | openEmpty p mode =>
      rw [run]
      obtain ⟨t', h, hrun⟩ | ⟨why, -, hrun⟩ :=
        FileTree.change_cases (fun t => t.openEmpty p mode) t
      · obtain ⟨l, -, hname, hputs⟩ := FileTree.puts_openEmpty h
        rw [hrun]
        exact .inr ⟨p, rfl, l, _, hname, hputs⟩
      · rw [hrun]
        exact .inl (.refl t)
  | setMode p mode =>
      rw [run]
      obtain ⟨t', h, hrun⟩ | ⟨why, -, hrun⟩ := FileTree.change_cases (fun t => t.setMode p mode) t
      · obtain ⟨l, f, hfile, hputs⟩ := FileTree.exists_puts_setMode h
        obtain ⟨hlocate, hat⟩ := FileTree.file_eq_ok_iff.1 hfile
        rw [hrun]
        exact .inr ⟨p, rfl, l, _, FileTree.getLast?_of_locate hlocate hat, hputs⟩
      · rw [hrun]
        exact .inl (.refl t)
  | append p octets =>
      rw [run]
      obtain ⟨t', h, hrun⟩ | ⟨why, -, hrun⟩ := FileTree.change_cases (fun t => t.append p octets) t
      · obtain ⟨l, f, hfile, hputs⟩ := FileTree.exists_puts_append h
        obtain ⟨hlocate, hat⟩ := FileTree.file_eq_ok_iff.1 hfile
        rw [hrun]
        exact .inr ⟨p, rfl, l, _, FileTree.getLast?_of_locate hlocate hat, hputs⟩
      · rw [hrun]
        exact .inl (.refl t)

/-- After any step the tree has grown. -/
theorem grows_run (s : Step) (t : FileTree) : t.Grows (s.run t).2 := by
  obtain hextends | ⟨p, -, l, f, -, hputs⟩ := s.effect t
  · exact hextends.grows
  · exact hputs.grows

/-- **A step leaves a file of another name alone.** -/
theorem fileAt?_run {s : Step} {l : Location} (h : ∀ p ∈ s.filePath?, p.target? ≠ l.getLast?)
    (t : FileTree) : (s.run t).2.root.fileAt? l = t.root.fileAt? l := by
  obtain hextends | ⟨p, hp, k, f, hname, hputs⟩ := s.effect t
  · exact hextends.files l
  · refine hputs.others l ?_
    rintro rfl
    exact h p hp hname.symm

end Step

/-! ### The trees on the way -/

namespace FileTree

/-- **A tree that there is while steps are done.** -/
inductive Passes : List Step → FileTree → FileTree → Prop
  /-- Before the next step. -/
  | here (steps : List Step) (t : FileTree) : Passes steps t t
  /-- A write that has been done in part. -/
  | part {p : Path} {octets written : List UInt8} {rest : List Step} {t : FileTree}
      (h : written <+: octets) : Passes (.append p octets :: rest) t ((Step.append p written).run t).2
  /-- Behind a step, be it refused or not. -/
  | behind (s : Step) (rest : List Step) (t : FileTree) : Passes (s :: rest) t (s.run t).2
  /-- While the steps behind one that is done are done. -/
  | later {s : Step} {rest : List Step} {t t' : FileTree} (done : (s.run t).1 = .ok ())
      (h : Passes rest (s.run t).2 t') : Passes (s :: rest) t t'

section

variable {steps rest : List Step} {t t' : FileTree}

/-- The first step leads to every tree behind it. -/
theorem performAll_cons_run (s : Step) (rest : List Step) (t : FileTree) :
    (performAll (s :: rest) : StateM FileTree _) t =
      match (s.run t).1 with
      | .ok () => (performAll rest : StateM FileTree _) (s.run t).2
      | .error why => (.error (s, why), (s.run t).2) := by
  have hperform : (FileSystem.perform s : StateM FileTree _) = s.run := rfl
  rw [performAll, bind_run, hperform]
  cases (s.run t).1 <;> rfl

/-- Steps behind others are done if all of those are. -/
theorem performAll_append_run (steps rest : List Step) (t : FileTree) :
    (performAll (steps ++ rest) : StateM FileTree _) t =
      match (performAll steps : StateM FileTree _) t with
      | (.ok (), t₁) => (performAll rest : StateM FileTree _) t₁
      | (.error refused, t₁) => (.error refused, t₁) := by
  induction steps generalizing t with
  | nil => rfl
  | cons s steps ih =>
      rw [List.cons_append, performAll_cons_run, performAll_cons_run]
      cases (s.run t).1 with
      | ok _ => exact ih _
      | error why => rfl

/-- **Every beginning of the steps leads to such a tree.** -/
theorem passes_performAll_take (steps : List Step) (n : Nat) (t : FileTree) :
    Passes steps t ((performAll (steps.take n) : StateM FileTree _) t).2 := by
  induction steps generalizing n t with
  | nil => rw [List.take_nil]; exact .here [] t
  | cons s rest ih =>
      cases n with
      | zero => exact .here _ t
      | succ n =>
          rw [List.take_succ_cons, performAll_cons_run]
          cases hdone : (s.run t).1 with
          | ok _ => exact .later hdone (ih n _)
          | error why => exact .behind s rest t

theorem passes_performAll {result : Except (Step × Refusal) Unit}
    (h : (performAll steps : StateM FileTree _) t = (result, t')) : Passes steps t t' := by
  have hall := passes_performAll_take steps steps.length t
  rwa [List.take_length, h] at hall

theorem Passes.grows (h : Passes steps t t') : t.Grows t' := by
  induction h with
  | here steps t => exact .refl t
  | part h => exact Step.grows_run _ _
  | behind s rest t => exact s.grows_run t
  | later done h ih => exact (Step.grows_run _ _).trans ih

/-- **A file whose name no step ends with stays as it was.** -/
theorem Passes.fileAt?_eq (h : Passes steps t t') {l : Location}
    (hsteps : ∀ s ∈ steps, ∀ p ∈ s.filePath?, p.target? ≠ l.getLast?) :
    t'.root.fileAt? l = t.root.fileAt? l := by
  induction h with
  | here steps t => rfl
  | @part p octets written rest t h =>
      exact Step.fileAt?_run (s := .append p written) (hsteps (.append p octets) List.mem_cons_self) t
  | behind s rest t => exact Step.fileAt?_run (hsteps s List.mem_cons_self) t
  | later done h ih =>
      rw [ih fun s hs => hsteps s (List.mem_cons_of_mem _ hs)]
      exact Step.fileAt?_run (hsteps _ List.mem_cons_self) _

/-- While two lists of steps are done, either the first one is being done or it is done and the
second one is being done. -/
theorem passes_append (h : Passes (steps ++ rest) t t') : Passes steps t t' ∨
    ∃ t₁, (performAll steps : StateM FileTree _) t = (.ok (), t₁) ∧ Passes rest t₁ t' := by
  induction steps generalizing t with
  | nil => exact .inr ⟨t, rfl, h⟩
  | cons s steps ih =>
      cases h with
      | here => exact .inl (.here _ _)
      | part hpart => exact .inl (.part hpart)
      | behind => exact .inl (.behind s steps t)
      | later done h =>
          obtain h | ⟨t₁, hall, h⟩ := ih h
          · exact .inl (.later done h)
          · refine .inr ⟨t₁, ?_, h⟩
            rw [performAll_cons_run, done]
            exact hall

end

end FileTree

end CaptureConfig

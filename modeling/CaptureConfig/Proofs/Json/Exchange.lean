/-
**A number exchanged for another.**

Two values that differ in one number have the same shape, so that one is printed, nested and used as
the other is.  Whatever tree a notation makes of values, the trees of the two differ in the same
place: what stands around the number is the same.

Main definitions:

* `Json.DiffersAt` — two values that differ in the number under some keys.

Main results:

* `Json.DiffersAt.isUsed`, `Json.DiffersAt.holds`, `Json.DiffersAt.depth_le` — the shape is the same;
* `Json.DiffersAt.exists_frames` — **their trees have the same frames**.
-/

import CaptureConfig.Proofs.Document.Frame
import CaptureConfig.Proofs.Json.Record
import CaptureConfig.Proofs.Yaml.Strict.Tokens

set_option relaxedAutoImplicit false
set_option autoImplicit false

namespace CaptureConfig

namespace Json

/-- The tree of an object is made entry by entry. -/
theorem tree_toWide_object (entries : List (String × Json)) : (object entries).toWide.tree =
    .map .none (entries.map fun e => (.scalar (.text e.1), e.2.toWide.tree)) true := by
  have hentries : Wide.entryTrees (entriesToWide entries) =
      entries.map fun e => (.scalar (.text e.1), e.2.toWide.tree) := by
    induction entries with
    | nil => rfl
    | cons e rest ih => rw [entriesToWide, Wide.entryTrees, ih, List.map_cons]
  rw [toWide, Wide.tree, hentries]

/-- **Two values that differ in a number**: under these keys, the outermost first, there is one
number in the one and another in the other, and everything else is the same. -/
inductive DiffersAt (m n : Int) : List String → Json → Json → Prop
  | here : DiffersAt m n [] (.number m) (.number n)
  | under {k : String} {keys : List String} {v w : Json} (before behind : List (String × Json))
      (more : DiffersAt m n keys v w) :
      DiffersAt m n (k :: keys) (.object (before ++ (k, v) :: behind))
        (.object (before ++ (k, w) :: behind))

variable {m n : Int} {keys : List String} {v w : Json}

namespace DiffersAt

theorem isUsed {u : Uses} (h : DiffersAt m n keys v w) (hv : v.IsUsed u) : w.IsUsed u := by
  induction h generalizing u with
  | here => exact hv
  | under before behind _ ih =>
      obtain ⟨hu, hentries⟩ := hv
      simp only [entriesAreUsed_iff, List.forall_mem_append, List.forall_mem_cons] at hentries
      obtain ⟨hbefore, hv, hbehind⟩ := hentries
      exact ⟨hu, entriesAreUsed_iff.2
        (List.forall_mem_append.2 ⟨hbefore, List.forall_mem_cons.2 ⟨ih hv, hbehind⟩⟩)⟩

theorem holds {onText onKey : String → Prop} (h : DiffersAt m n keys v w)
    (hv : v.Holds onText onKey) : w.Holds onText onKey := by
  induction h with
  | here => trivial
  | under before behind _ ih =>
      simp only [Holds, entriesHold_iff, List.forall_mem_append, List.forall_mem_cons] at hv ⊢
      obtain ⟨hbefore, ⟨hk, hv⟩, hbehind⟩ := hv
      exact ⟨hbefore, ⟨hk, ih hv⟩, hbehind⟩

theorem depth_le {bound : Nat} (h : DiffersAt m n keys v w) (hv : v.depth ≤ bound) :
    w.depth ≤ bound := by
  induction h generalizing bound with
  | here => exact hv
  | under before behind _ ih =>
      cases bound with
      | zero => cases hv
      | succ bound =>
          have hentries := entriesDepth_le_iff.1 (Nat.le_of_succ_le_succ hv)
          simp only [List.forall_mem_append, List.forall_mem_cons] at hentries
          obtain ⟨hbefore, hv, hbehind⟩ := hentries
          exact Nat.succ_le_succ (entriesDepth_le_iff.2
            (List.forall_mem_append.2 ⟨hbefore, List.forall_mem_cons.2 ⟨ih hv, hbehind⟩⟩))

theorem exists_entries (h : DiffersAt m n keys v w) (hkeys : keys ≠ []) :
    ∃ entries entries', v = .object entries ∧ w = .object entries' := by
  cases h with
  | here => exact absurd rfl hkeys
  | under before behind _ => exact ⟨_, _, rfl, rfl⟩

/-- **The trees of the two values have the same frames**, each belonging to its key, whatever is made
of scalars. -/
theorem exists_frames {σ : Type} [Scalar σ] (tree : Json → Tree σ) {key : String → σ}
    (htree : ∀ entries : List (String × Json), tree (.object entries) =
      .map .none (entries.map fun e => (.scalar (key e.1), tree e.2)) true)
    (hkey : ∀ s, Scalar.text? (key s) = some s) {path : List (List String × String)}
    {names : List String} {name : String}
    (h : DiffersAt m n (path.map Prod.snd ++ [name]) v w) :
    ∃ (outer : List (Frame σ)) (f : Frame σ), Frame.AreAlong path outer ∧ f.IsOf names name ∧
      tree v = Frame.fillAll outer (f.fill (tree (.number m))) ∧
      tree w = Frame.fillAll outer (f.fill (tree (.number n))) := by
  have hframe (before behind : List (String × Json)) (k : String) : ∃ f : Frame σ,
      (∀ names, f.IsOf names k) ∧
        ∀ v, tree (.object (before ++ (k, v) :: behind)) = f.fill (tree v) := by
    refine ⟨.entry .none (before.map fun e => (.scalar (key e.1), tree e.2)) (.scalar (key k))
      (behind.map fun e => (.scalar (key e.1), tree e.2)) true,
      fun _ => Layout.read_identifier hkey k, fun v => ?_⟩
    rw [htree, List.map_append, List.map_cons]
    simp [Frame.fill, Frame.put]
  induction path generalizing v w with
  | nil =>
      cases h with
      | under before behind more =>
          cases more
          obtain ⟨f, hf, hfill⟩ := hframe before behind name
          exact ⟨[], f, trivial, hf names, hfill _, hfill _⟩
  | cons step path ih =>
      cases h with
      | under before behind more =>
          obtain ⟨outer, f, houter, hf, hv, hw⟩ := ih more
          obtain ⟨g, hg, hfill⟩ := hframe before behind step.2
          refine ⟨g :: outer, f, ⟨hg step.1, houter⟩, hf, ?_, ?_⟩
          · rw [hfill, hv]
            rfl
          · rw [hfill, hw]
            rfl

end DiffersAt

end Json

end CaptureConfig

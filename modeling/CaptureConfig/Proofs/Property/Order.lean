/-
**Entries in order.**

The keys that nobody knows are kept in ascending order.  Entries are put among the others one after
another; if their keys are distinct, none gives way, so that the result holds the same entries.  Only
one arrangement of them is ascending, and so the order in which they came does not matter.

Main definitions:

* `IsAscending` — entries whose keys are ascending;
* `Layout.Yields`, `Reader.Yields` — all that is made has a property.

Main results:

* `isAscending_sortByKey`, `perm_sortByKey` — sorted entries are ascending, and none is lost;
* `sortByKey_eq_of_perm` — **entries are sorted whatever their order**;
* `PropertyFile.isAscending_of_ofText` — the keys that nobody knows of a property file that was read
  are ascending, in every notation.
-/

import CaptureConfig.Proofs.Resolution
import CaptureConfig.Property.Parse

set_option relaxedAutoImplicit false
set_option autoImplicit false

namespace CaptureConfig

/-- Entries whose keys are ascending, each of them greater than the one before. -/
def IsAscending (entries : List (String × Value)) : Prop := entries.Pairwise fun e f => e.1 < f.1

theorem IsAscending.nodup {entries : List (String × Value)} (h : IsAscending entries) :
    (entries.map Prod.fst).Nodup := by
  rw [List.nodup_iff_pairwise_ne, List.pairwise_map]
  refine h.imp fun {e f} hlt heq => ?_
  rw [heq] at hlt
  exact String.lt_irrefl _ hlt

/-! ### One more entry -/

section

variable {key : String} {value : Value} {entries : List (String × Value)}

theorem mem_of_mem_insertByKey {e : String × Value} (h : e ∈ insertByKey key value entries) :
    e = (key, value) ∨ e ∈ entries := by
  induction entries with
  | nil => exact Or.inl (List.mem_singleton.1 h)
  | cons f rest ih =>
      rw [insertByKey] at h
      split at h
      next => exact List.mem_cons.1 h
      next =>
        split at h
        next => exact (List.mem_cons.1 h).imp_right (List.mem_cons_of_mem f)
        next =>
          obtain rfl | h := List.mem_cons.1 h
          · exact Or.inr List.mem_cons_self
          · exact (ih h).imp_right (List.mem_cons_of_mem _)

/-- An entry with a new key is put among the others. -/
theorem perm_insertByKey (value : Value) (h : key ∉ entries.map Prod.fst) :
    (insertByKey key value entries).Perm ((key, value) :: entries) := by
  induction entries with
  | nil => exact .refl _
  | cons e rest ih =>
      obtain ⟨hne, hrest⟩ := List.ne_and_not_mem_of_not_mem_cons h
      rw [insertByKey]
      split
      next => exact .refl _
      next => exact ((ih hrest).cons e).trans (.swap _ _ _)

theorem isAscending_insertByKey (h : IsAscending entries) :
    IsAscending (insertByKey key value entries) := by
  induction entries with
  | nil => exact List.pairwise_singleton _ _
  | cons e rest ih =>
      obtain ⟨he, hrest⟩ := List.pairwise_cons.1 h
      rw [insertByKey]
      split
      next hlt =>
        refine List.pairwise_cons.2 ⟨List.forall_mem_cons.2 ⟨hlt, fun f hf => ?_⟩, h⟩
        exact String.lt_trans hlt (he f hf)
      next hnot =>
        split
        next heq => exact List.pairwise_cons.2 ⟨fun f hf => heq ▸ he f hf, hrest⟩
        next hne =>
          have hlt : e.1 < key := Std.lt_of_le_of_ne (String.not_lt.1 hnot) (Ne.symm hne)
          refine List.pairwise_cons.2 ⟨fun f hf => ?_, ih hrest⟩
          obtain rfl | hf := mem_of_mem_insertByKey hf
          · exact hlt
          · exact he f hf

end

/-! ### Sorting -/

theorem sortByKey_eq_foldl (entries : List (String × Value)) :
    sortByKey entries = entries.foldl (fun sorted e => insertByKey e.1 e.2 sorted) [] := rfl

/-- Sorted entries are ascending. -/
theorem isAscending_sortByKey (entries : List (String × Value)) :
    IsAscending (sortByKey entries) := by
  rw [sortByKey_eq_foldl]
  have hfold : ∀ sorted : List (String × Value), IsAscending sorted →
      IsAscending (entries.foldl (fun sorted e => insertByKey e.1 e.2 sorted) sorted) := by
    induction entries with
    | nil => exact fun _ hsorted => hsorted
    | cons e rest ih => exact fun _ hsorted => ih _ (isAscending_insertByKey hsorted)
  exact hfold [] .nil

/-- No entry is lost if the keys are distinct. -/
theorem perm_sortByKey {entries : List (String × Value)}
    (hnodup : (entries.map Prod.fst).Nodup) : (sortByKey entries).Perm entries := by
  rw [sortByKey_eq_foldl]
  have hfold : ∀ sorted : List (String × Value), ((sorted ++ entries).map Prod.fst).Nodup →
      (entries.foldl (fun sorted e => insertByKey e.1 e.2 sorted) sorted).Perm
        (sorted ++ entries) := by
    clear hnodup
    induction entries with
    | nil =>
        intro sorted _
        rw [List.append_nil]
        exact .refl _
    | cons e rest ih =>
        obtain ⟨k, v⟩ := e
        intro sorted hnodup
        have hk : k ∉ sorted.map Prod.fst := by
          rw [List.map_append, List.nodup_append] at hnodup
          exact fun h => hnodup.2.2 k h k List.mem_cons_self rfl
        have hinsert := (perm_insertByKey v hk).append_right rest
        have hperm := hinsert.trans List.perm_middle.symm
        exact (ih _ ((hperm.map Prod.fst).nodup_iff.2 hnodup)).trans hperm
  exact hfold [] hnodup

/-- **Entries are sorted whatever their order**: only one arrangement of them is ascending. -/
theorem sortByKey_eq_of_perm {entries sorted : List (String × Value)} (hperm : entries.Perm sorted)
    (hsorted : IsAscending sorted) : sortByKey entries = sorted := by
  have hnodup : (entries.map Prod.fst).Nodup :=
    (hperm.map Prod.fst).nodup_iff.2 hsorted.nodup
  have hlt : ∀ e f, e ∈ sortByKey entries → f ∈ sorted → e.1 < f.1 → f.1 < e.1 → e = f :=
    fun e f _ _ hef hfe => absurd hfe (String.lt_asymm hef)
  exact List.Perm.eq_of_pairwise hlt (isAscending_sortByKey entries) hsorted
    ((perm_sortByKey hnodup).trans hperm)

/-! ### What is read -/

section

variable {σ α β : Type}

/-- **All that the fields make has a property.** -/
def Layout.Yields (l : Layout σ α) (P : α → Prop) : Prop :=
  ∀ seen a, l.build seen = .ok a → P a

/-- All that a reader makes has a property. -/
def Reader.Yields (r : Reader σ α) (P : α → Prop) : Prop := ∀ t a, r.read t = .ok a → P a

theorem Reader.Yields.document {P : α → Prop} {r : Reader σ α} (hr : r.Yields P) {d : Document σ}
    {a : α} (h : r.document d = .ok a) : P a := by
  obtain ⟨a', ha', h⟩ := bind_eq_ok_iff.1 h
  split at h
  next => exact Except.ok.inj h ▸ hr _ a' ha'
  next => cases h

namespace Layout

theorem yields_any (l : Layout σ α) : l.Yields fun _ => True := fun _ _ _ => trivial

theorem Yields.seq {P : β → Prop} {f : Layout σ (α → β)} {x : Layout σ α}
    (hf : f.Yields fun g => ∀ a, P (g a)) : (f <*> x).Yields P := by
  intro seen b h
  obtain ⟨g, hg, h⟩ := bind_eq_ok_iff.1 h
  obtain ⟨a, -, h⟩ := bind_eq_ok_iff.1 h
  exact Except.ok.inj h ▸ hf seen g hg a

theorem Yields.map {P : β → Prop} {Q : α → Prop} {x : Layout σ α} (hx : x.Yields Q) {f : α → β}
    (hf : ∀ a, Q a → P (f a)) : (f <$> x).Yields P := by
  intro seen b h
  obtain ⟨g, hg, h⟩ := bind_eq_ok_iff.1 h
  obtain ⟨a, ha, h⟩ := bind_eq_ok_iff.1 h
  obtain rfl := Except.ok.inj hg
  exact Except.ok.inj h ▸ hf a (hx seen a ha)

theorem Yields.fieldOr {P : α → Prop} {r : Reader σ α} (hr : r.Yields P) (default : α)
    (hdefault : P default) (name : String) : (Layout.fieldOr default name r).Yields P := by
  intro seen a h
  simp only [Layout.fieldOr, buildField] at h
  split at h
  next t _ => exact hr t a h
  next => exact Except.ok.inj h ▸ hdefault

theorem Yields.record [Scalar σ] {P : α → Prop} {l : Layout σ α} (hl : l.Yields P) (name : String) :
    (Reader.record name l).Yields P := by
  intro t a h
  simp only [Reader.record] at h
  split at h
  next =>
    obtain ⟨seen, -, h⟩ := bind_eq_ok_iff.1 h
    obtain ⟨_, -, h⟩ := bind_eq_ok_iff.1 h
    exact hl seen a h
  next =>
    split at h
    next =>
      obtain ⟨known, -, h⟩ := bind_eq_ok_iff.1 h
      exact hl _ a h
    next => cases h
  next =>
    split at h
    next => exact hl _ a h
    next => cases h
  next => cases h

end Layout

open Layout

variable [Scalar σ]

theorem Properties.Reading.yields_properties :
    (Reading.properties : Reader σ Properties).Yields fun p => IsAscending p.extra := by
  refine Yields.record ?_ _
  refine .seq (.seq (.seq (.seq (.seq (.seq (.seq (.seq (.map (yields_any _) ?_))))))))
  exact fun _ _ _ _ _ _ _ _ _ extra => isAscending_sortByKey extra

theorem Properties.Reading.yields_file :
    (Reading.file : Reader σ PropertyFile).Yields fun f => IsAscending f.properties.extra := by
  refine Yields.record ?_ _
  refine .seq (.map (.fieldOr yields_properties Properties.empty .nil _) ?_)
  exact fun _ ascending _ => ascending

end

/-- **The keys that nobody knows of a property file that was read are ascending.** -/
theorem PropertyFile.isAscending_of_ofText {format : Format} {s : String} {f : PropertyFile}
    (h : ofText format s = .ok f) : IsAscending f.properties.extra := by
  cases format <;> exact Properties.Reading.yields_file.document h

end CaptureConfig

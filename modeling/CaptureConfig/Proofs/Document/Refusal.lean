/-
**What a record refuses.**

A record looks at its entries one after another, and at the items of a sequence in the same way.  It
makes something of them only if each field takes its datum and no field comes twice.  So a record is
refused as a whole for one field that refuses its datum and for one key that is repeated, wherever
they stand.

Main definitions:

* `Reader.Refuses` — a reader makes nothing of a tree.

Main results:

* `Reader.Refuses.optional` — neither does it where the tree may be missing;
* `Reader.refuses_repeated` — **a record refuses a repeated key**;
* `Reader.refuses_entry`, `Reader.refuses_item` — **a record refuses what a field refuses**.
-/

import CaptureConfig.Proofs.Document.Frame

set_option relaxedAutoImplicit false
set_option autoImplicit false

namespace CaptureConfig

variable {σ : Type} [Scalar σ] {α : Type}

namespace Layout

variable {l : Layout σ α} {seen seen' : Seen σ} {before behind : List (Tree σ × Tree σ)}

/-- Among entries that have been looked at, each is taken behind those before it. -/
theorem exists_takeEntry_of_lookAt {e : Tree σ × Tree σ}
    (h : l.lookAt seen (before ++ e :: behind) = .ok seen') :
    ∃ s s' : Seen σ, l.lookAt seen before = .ok s ∧ l.takeEntry s e = .ok s' ∧
      l.lookAt s' behind = .ok seen' := by
  rw [lookAt_append] at h
  obtain ⟨s, hbefore, h⟩ := bind_eq_ok_iff.1 h
  rw [lookAt_eq_foldlM, List.foldlM_cons] at h
  obtain ⟨s', he, h⟩ := bind_eq_ok_iff.1 h
  rw [← lookAt_eq_foldlM] at h
  exact ⟨s, s', hbefore, he, h⟩

/-- A field takes the datum of an entry that has been looked at. -/
theorem check_of_lookAt {key t : Tree σ} {name : String} {f : Field σ}
    (hkey : (Reader.textAs "field identifier").read key = .ok name)
    (hfield : l.field? name = some f)
    (h : l.lookAt seen (before ++ (key, t) :: behind) = .ok seen') : f.check t = .ok () := by
  obtain ⟨s, s', -, he, -⟩ := exists_takeEntry_of_lookAt h
  obtain ⟨name', hkey', ⟨g, hg, -, hcheck, -⟩ | ⟨hnone, -⟩⟩ := takeEntry_eq_ok_iff.1 he
  · obtain rfl := Except.ok.inj (hkey.symm.trans hkey')
    obtain rfl := Option.some.inj (hfield.symm.trans hg)
    exact hcheck
  · obtain rfl := Except.ok.inj (hkey.symm.trans hkey')
    cases hfield.symm.trans hnone

/-- **No field comes twice** among entries that have been looked at. -/
theorem lookAt_repeated {between : List (Tree σ × Tree σ)} {key key' t t' : Tree σ} {name : String}
    {f : Field σ} (hkey : (Reader.textAs "field identifier").read key = .ok name)
    (hkey' : (Reader.textAs "field identifier").read key' = .ok name)
    (hfield : l.field? name = some f) :
    l.lookAt seen (before ++ (key, t) :: (between ++ (key', t') :: behind)) ≠ .ok seen' := by
  intro h
  obtain ⟨s, s₁, -, hfirst, h⟩ := exists_takeEntry_of_lookAt h
  obtain ⟨s₂, s₃, hbetween, hsecond, -⟩ := exists_takeEntry_of_lookAt h
  obtain ⟨more, rfl, -, -⟩ := lookAt_grows hbetween
  have hseen : s₁.known.lookup name ≠ none := by
    obtain ⟨name', hname', ⟨g, -, hfresh, -, rfl⟩ | ⟨hnone, -⟩⟩ := takeEntry_eq_ok_iff.1 hfirst
    · obtain rfl := Except.ok.inj (hkey.symm.trans hname')
      rw [Seen.append, List.lookup_append, hfresh, List.lookup_cons, beq_self_eq_true]
      exact Option.some_ne_none _
    · obtain rfl := Except.ok.inj (hkey.symm.trans hname')
      cases hfield.symm.trans hnone
  obtain ⟨name', hname', ⟨-, -, hfresh, -⟩ | ⟨hnone, -⟩⟩ := takeEntry_eq_ok_iff.1 hsecond
  · obtain rfl := Except.ok.inj (hkey'.symm.trans hname')
    exact Seen.lookup_append_ne_none hseen hfresh
  · obtain rfl := Except.ok.inj (hkey'.symm.trans hname')
    cases hfield.symm.trans hnone

/-- A field takes the item in its position. -/
theorem check_of_lookAtItems {record : String} {total : Nat} {closed : Bool} {index i : Nat}
    {fields : List (Field σ)} {items : List (Tree σ)} {known : List (String × Tree σ)} {f : Field σ}
    {t : Tree σ} (h : lookAtItems record total closed index fields items = .ok known)
    (hfield : fields[i]? = some f) (ht : items[i]? = some t) : f.check t = .ok () := by
  induction i generalizing index fields items known with
  | zero =>
      cases fields with
      | nil => cases hfield
      | cons g fields =>
          cases items with
          | nil => cases ht
          | cons u items =>
              obtain rfl := Option.some.inj hfield
              obtain rfl := Option.some.inj ht
              obtain ⟨_, hcheck, -⟩ := bind_eq_ok_iff.1 h
              exact hcheck
  | succ i ih =>
      cases fields with
      | nil => cases hfield
      | cons g fields =>
          cases items with
          | nil => cases ht
          | cons u items =>
              obtain ⟨_, -, h⟩ := bind_eq_ok_iff.1 h
              obtain ⟨_, hrest, -⟩ := bind_eq_ok_iff.1 h
              exact ih hrest hfield ht

end Layout

/-- **A reader makes nothing of a tree.** -/
def Reader.Refuses (r : Reader σ α) (t : Tree σ) : Prop := ∀ a, r.read t ≠ .ok a

namespace Reader

/-- What is refused and is not nothing is refused where it may be missing. -/
theorem Refuses.optional {r : Reader σ α} {t : Tree σ} (h : r.Refuses t)
    (hnull : isNull t = .ok false) : (optional r).Refuses t := by
  intro a ha
  obtain ⟨nothing, hnothing, ha⟩ := bind_eq_ok_iff.1 ha
  obtain rfl := Except.ok.inj (hnull.symm.trans hnothing)
  obtain ⟨b, hb, -⟩ := map_eq_ok_iff.1 ha
  exact h b hb

omit [Scalar σ] in
theorem Refuses.check_ne {r : Reader σ α} {t : Tree σ} (h : r.Refuses t) :
    Layout.checkBy r t ≠ .ok () := by
  intro hcheck
  obtain ⟨a, ha, -⟩ := map_eq_ok_iff.1 hcheck
  exact h a ha

variable {l : Layout σ α} {record : String} {name : String} {f : Field σ} {mark : Mark}
  {before between behind : List (Tree σ × Tree σ)} {key key' t t' : Tree σ} {closed : Bool}

/-- **A record refuses a repeated key.** -/
theorem refuses_repeated (hkey : (textAs "field identifier").read key = .ok name)
    (hkey' : (textAs "field identifier").read key' = .ok name) (hfield : l.field? name = some f) :
    (Reader.record record l).Refuses
      (.map mark (before ++ (key, t) :: (between ++ (key', t') :: behind)) closed) := by
  intro a ha
  obtain ⟨seen, hlook, -⟩ := bind_eq_ok_iff.1 ha
  exact Layout.lookAt_repeated hkey hkey' hfield hlook

/-- **A record refuses what a field refuses** under its key. -/
theorem refuses_entry (hkey : (textAs "field identifier").read key = .ok name)
    (hfield : l.field? name = some f) (hcheck : f.check t ≠ .ok ()) :
    (Reader.record record l).Refuses (.map mark (before ++ (key, t) :: behind) closed) := by
  intro a ha
  obtain ⟨seen, hlook, -⟩ := bind_eq_ok_iff.1 ha
  exact hcheck (Layout.check_of_lookAt hkey hfield hlook)

/-- **A record refuses what a field refuses** in its position. -/
theorem refuses_item {items : List (Tree σ)} {i : Nat} (hfield : l.fields[i]? = some f)
    (ht : items[i]? = some t) (hcheck : f.check t ≠ .ok ()) :
    (Reader.record record l).Refuses (.seq mark items closed) := by
  intro a ha
  have hread : (Reader.record record l).read (.seq mark items closed) =
      if Scalar.recordsAsSequences σ && ! l.keepsOthers then l.readItems record items closed
      else .error (Tree.refuse record (.seq mark items closed)) := rfl
  rw [hread] at ha
  split at ha
  next =>
    obtain ⟨known, hlook, -⟩ := bind_eq_ok_iff.1 ha
    exact hcheck (Layout.check_of_lookAtItems hlook hfield ht)
  next => cases ha

end Reader

end CaptureConfig

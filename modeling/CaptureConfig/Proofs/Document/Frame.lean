/-
**What stands around a field.**

A record is read entry by entry, and what is made of it depends on an entry with a field only through
what the reader of that field makes of it.  So where a record is read with one datum under a key, it
is known what becomes of it with any other datum under that key, and without the key: the reader of the
field decides, and everything else stays.

Main definitions:

* `Frame` — what stands around a tree in a collection;
* `Layout.Opens`, `Reader.Opens` — what is made depends on a field only through its reader;
* `Frame.fillAll`, `Reader.Reaches` — the same for a field of a field, however deep.

Main results:

* `Layout.lookAt_gap` — entries are looked at whatever datum stands among them;
* `Layout.Opens.record` — **a record depends on the datum in a field only through its reader**;
* `Reader.Opens.reaches` — so does what the record is a field of.
-/

import CaptureConfig.Proofs.Document.Record
import CaptureConfig.Proofs.Property.Order

set_option relaxedAutoImplicit false
set_option autoImplicit false

namespace CaptureConfig

/-! ### Frames -/

/-- **What stands around a tree in a collection**: the other entries and its key, or the other
items. -/
inductive Frame (σ : Type) where
  | entry (mark : Mark) (before : List (Tree σ × Tree σ)) (key : Tree σ)
      (behind : List (Tree σ × Tree σ)) (closed : Bool)
  | item (mark : Mark) (before behind : List (Tree σ)) (closed : Bool)

namespace Frame

variable {σ : Type}

/-- The collection with a datum, or without one: then the key is missing too. -/
def put : Frame σ → Option (Tree σ) → Tree σ
  | entry mark before key behind closed, t? =>
      .map mark (before ++ (t?.map fun t => (key, t)).toList ++ behind) closed
  | item mark before behind closed, t? => .seq mark (before ++ t?.toList ++ behind) closed

/-- The collection with a datum. -/
def fill (f : Frame σ) (t : Tree σ) : Tree σ := f.put (some t)

/-- The collection without the datum and its key. -/
def bare (f : Frame σ) : Tree σ := f.put none

/-- The datum has a key. -/
def isKeyed : Frame σ → Bool
  | entry .. => true
  | item .. => false

/-- **The datum is that of a field**, for a record with given fields: it stands under the name of
the field, or in its position. -/
def IsOf [Scalar σ] (names : List String) (name : String) : Frame σ → Prop
  | entry _ _ key _ _ => (Reader.textAs "field identifier").read key = .ok name
  | item _ before _ _ => names[before.length]? = some name

end Frame

/-! ### Entries behind others -/

namespace Seen

variable {σ : Type}

/-- More entries. -/
def append (s more : Seen σ) : Seen σ := ⟨s.known ++ more.known, s.others ++ more.others⟩

theorem append_empty (s : Seen σ) : s.append ⟨[], []⟩ = s := by
  rw [append, List.append_nil, List.append_nil]

theorem append_assoc (s s' s'' : Seen σ) :
    (s.append s').append s'' = s.append (s'.append s'') := by
  simp only [append, List.append_assoc]

theorem lookup_append_eq_none {s s' : Seen σ} {k : String} :
    (s.append s').known.lookup k = none ↔ s.known.lookup k = none ∧ s'.known.lookup k = none := by
  rw [append, List.lookup_append, Option.or_eq_none_iff]

theorem lookup_append_ne_none {s s' : Seen σ} {k : String} (h : s.known.lookup k ≠ none) :
    (s.append s').known.lookup k ≠ none := fun h' => h (lookup_append_eq_none.1 h').1

/-- The entry with a given name, or none, between others. -/
def gap (s more : Seen σ) (name : String) (t? : Option (Tree σ)) : Seen σ :=
  (Seen.mk (s.known ++ (t?.map fun t => (name, t)).toList) s.others).append more

theorem append_gap (s more : Seen σ) (name : String) (t : Tree σ) :
    (s.append ⟨[(name, t)], []⟩).append more = s.gap more name (some t) := by
  simp only [gap, append, List.append_nil, Option.map_some, Option.toList_some]

theorem gap_none (s more : Seen σ) (name : String) : s.gap more name none = s.append more := by
  simp only [gap, append, Option.map_none, Option.toList_none, List.append_nil]

/-- Two records whose entries differ in one name at most. -/
structure AgreeBut (name : String) (s s' : Seen σ) : Prop where
  others : s.others = s'.others
  known : ∀ k, k ≠ name → s.known.lookup k = s'.known.lookup k

theorem lookup_gap {s more : Seen σ} {name : String} (hs : s.known.lookup name = none)
    (hmore : more.known.lookup name = none) (t? : Option (Tree σ)) :
    (s.gap more name t?).known.lookup name = t? := by
  rw [gap, append, List.lookup_append, List.lookup_append, hs, hmore]
  cases t? with
  | none => rfl
  | some t =>
      rw [Option.map_some, Option.toList_some, List.lookup_cons, beq_self_eq_true]
      rfl

theorem agreeBut_gap (s more : Seen σ) (name : String) (t? t?' : Option (Tree σ)) :
    AgreeBut name (s.gap more name t?) (s.gap more name t?') where
  others := rfl
  known k hk := by
    have hgap : ∀ u? : Option (Tree σ), (u?.map fun u => (name, u)).toList.lookup k = none := by
      intro u?
      cases u? with
      | none => rfl
      | some u =>
          rw [Option.map_some, Option.toList_some, List.lookup_cons, beq_eq_false_iff_ne.2 hk]
          rfl
    simp only [gap, append, List.lookup_append, hgap]

end Seen

namespace Layout

variable {σ : Type} [Scalar σ] {α : Type} {l : Layout σ α}

/-! ### Entry by entry -/

/-- One more entry is looked at. -/
def takeEntry (l : Layout σ α) (seen : Seen σ) (e : Tree σ × Tree σ) : Except Fault (Seen σ) := do
  let name ← (Reader.textAs "field identifier").read e.1
  match l.field? name with
  | some f =>
      if (seen.known.lookup name).isSome then throw (.complaint (.duplicateField name))
      f.check e.2
      pure { seen with known := seen.known ++ [(name, e.2)] }
  | none =>
      l.lookAtOther e.2
      pure { seen with others := seen.others ++ [(name, e.2)] }

/-- **Entries are looked at one after another.** -/
theorem lookAt_eq_foldlM (seen : Seen σ) (entries : List (Tree σ × Tree σ)) :
    l.lookAt seen entries = entries.foldlM l.takeEntry seen := by
  induction entries generalizing seen with
  | nil => rfl
  | cons e rest ih =>
      rw [List.foldlM_cons, lookAt, takeEntry]
      cases (Reader.textAs "field identifier").read e.1 with
      | error fault => rfl
      | ok name =>
          simp only [bind, Except.bind]
          cases l.field? name with
          | some f =>
              cases seen.known.lookup name with
              | some t => rfl
              | none =>
                  simp only [Option.isSome_none, Bool.false_eq_true, if_false]
                  cases f.check e.2 with
                  | error fault => rfl
                  | ok _ => exact ih _
          | none =>
              cases l.lookAtOther e.2 with
              | error fault => rfl
              | ok _ => exact ih _

theorem lookAt_append (seen : Seen σ) (before behind : List (Tree σ × Tree σ)) :
    l.lookAt seen (before ++ behind) =
      (l.lookAt seen before).bind fun seen => l.lookAt seen behind := by
  simp only [lookAt_eq_foldlM, List.foldlM_append]
  rfl

/-- **What becomes of an entry**: a field takes it, unless one with its name has been looked at, or
it is among the others. -/
theorem takeEntry_eq_ok_iff {seen seen' : Seen σ} {k t : Tree σ} :
    l.takeEntry seen (k, t) = .ok seen' ↔
      ∃ name, (Reader.textAs "field identifier").read k = .ok name ∧
        ((∃ f, l.field? name = some f ∧ seen.known.lookup name = none ∧ f.check t = .ok () ∧
            seen' = seen.append ⟨[(name, t)], []⟩) ∨
          (l.field? name = none ∧ l.lookAtOther t = .ok () ∧
            seen' = seen.append ⟨[], [(name, t)]⟩)) := by
  rw [takeEntry]
  constructor
  · intro h
    obtain ⟨name, hname, h⟩ := bind_eq_ok_iff.1 h
    refine ⟨name, hname, ?_⟩
    split at h
    next f hfield =>
      split at h
      next => cases h
      next hfresh =>
        obtain ⟨_, hcheck, h⟩ := bind_eq_ok_iff.1 h
        obtain rfl := Except.ok.inj h
        refine .inl ⟨f, hfield, Option.not_isSome_iff_eq_none.1 hfresh, hcheck, ?_⟩
        rw [Seen.append, List.append_nil]
    next hfield =>
      obtain ⟨_, hother, h⟩ := bind_eq_ok_iff.1 h
      obtain rfl := Except.ok.inj h
      refine .inr ⟨hfield, hother, ?_⟩
      rw [Seen.append, List.append_nil]
  · rintro ⟨name, hname, ⟨f, hfield, hfresh, hcheck, rfl⟩ | ⟨hfield, hother, rfl⟩⟩
    · rw [hname]
      simp only [bind, Except.bind, hfield, hfresh, hcheck, Seen.append, List.append_nil]
      rfl
    · rw [hname]
      simp only [bind, Except.bind, hfield, hother, Seen.append, List.append_nil]
      rfl

theorem lookAt_singleton (seen : Seen σ) (e : Tree σ × Tree σ) :
    l.lookAt seen [e] = l.takeEntry seen e := by
  rw [lookAt_eq_foldlM, List.foldlM_cons]
  cases l.takeEntry seen e <;> rfl

/-- A field takes its entry if its check does. -/
theorem takeEntry_of_field {seen : Seen σ} {key t : Tree σ} {name : String} {f : Field σ}
    (hkey : (Reader.textAs "field identifier").read key = .ok name)
    (hfield : l.field? name = some f) (hfresh : seen.known.lookup name = none) :
    l.takeEntry seen (key, t) = (f.check t).map fun _ => seen.append ⟨[(name, t)], []⟩ := by
  rw [takeEntry, hkey]
  simp only [bind, Except.bind, hfield, hfresh, Seen.append, List.append_nil]
  cases f.check t <;> rfl

/-- What one more entry adds is new, and with fewer names before it the same is added. -/
theorem takeEntry_grows {e : Tree σ × Tree σ} {seen seen' : Seen σ}
    (h : l.takeEntry seen e = .ok seen') :
    ∃ more : Seen σ, seen' = seen.append more ∧
      (∀ k, seen.known.lookup k ≠ none → more.known.lookup k = none) ∧
      ∀ other : Seen σ, (∀ k, seen.known.lookup k = none → other.known.lookup k = none) →
        l.takeEntry other e = .ok (other.append more) := by
  obtain ⟨k, t⟩ := e
  obtain ⟨name, hname, ⟨f, hfield, hfresh, hcheck, rfl⟩ | ⟨hfield, hother, rfl⟩⟩ :=
    takeEntry_eq_ok_iff.1 h
  · refine ⟨⟨[(name, t)], []⟩, rfl, fun k' hk' => ?_, fun other hfewer => ?_⟩
    · have hne : k' ≠ name := by
        rintro rfl
        exact hk' hfresh
      rw [List.lookup_cons, beq_eq_false_iff_ne.2 hne]
      rfl
    · exact takeEntry_eq_ok_iff.2
        ⟨name, hname, .inl ⟨f, hfield, hfewer name hfresh, hcheck, rfl⟩⟩
  · refine ⟨⟨[], [(name, t)]⟩, rfl, fun _ _ => rfl, fun other _ => ?_⟩
    exact takeEntry_eq_ok_iff.2 ⟨name, hname, .inr ⟨hfield, hother, rfl⟩⟩

/-- What entries add is new, and with fewer names before them the same is added. -/
theorem lookAt_grows {entries : List (Tree σ × Tree σ)} {seen seen' : Seen σ}
    (h : l.lookAt seen entries = .ok seen') :
    ∃ more : Seen σ, seen' = seen.append more ∧
      (∀ k, seen.known.lookup k ≠ none → more.known.lookup k = none) ∧
      ∀ other : Seen σ, (∀ k, seen.known.lookup k = none → other.known.lookup k = none) →
        l.lookAt other entries = .ok (other.append more) := by
  simp only [lookAt_eq_foldlM] at h ⊢
  induction entries generalizing seen with
  | nil =>
      obtain rfl := Except.ok.inj h
      exact ⟨⟨[], []⟩, (Seen.append_empty seen).symm, fun _ _ => rfl,
        fun other _ => congrArg Except.ok (Seen.append_empty other).symm⟩
  | cons e rest ih =>
      obtain ⟨next, hnext, h⟩ := bind_eq_ok_iff.1 h
      obtain ⟨first, rfl, hnew, hfirst⟩ := takeEntry_grows hnext
      obtain ⟨more, rfl, hnew', hmore⟩ := ih h
      refine ⟨first.append more, Seen.append_assoc .., fun k hk => ?_, fun other hfewer => ?_⟩
      · exact Seen.lookup_append_eq_none.2 ⟨hnew k hk, hnew' k (Seen.lookup_append_ne_none hk)⟩
      · have hrest : (rest.foldlM l.takeEntry (other.append first)) =
            .ok ((other.append first).append more) := by
          refine hmore _ fun k hk => ?_
          obtain ⟨hk, hkfirst⟩ := Seen.lookup_append_eq_none.1 hk
          exact Seen.lookup_append_eq_none.2 ⟨hfewer k hk, hkfirst⟩
        rw [List.foldlM_cons, hfirst other hfewer, ← Seen.append_assoc]
        exact hrest

/-- **Entries are looked at whatever datum stands among them**, as long as its field takes it. -/
theorem lookAt_gap {before behind : List (Tree σ × Tree σ)} {key d : Tree σ} {name : String}
    {f : Field σ} (hkey : (Reader.textAs "field identifier").read key = .ok name)
    (hfield : l.field? name = some f) {all : Seen σ}
    (h : l.lookAt ⟨[], []⟩ (before ++ [(key, d)] ++ behind) = .ok all) :
    ∃ s more : Seen σ, s.known.lookup name = none ∧ more.known.lookup name = none ∧
      all = s.gap more name (some d) ∧
      ∀ t? : Option (Tree σ),
        l.lookAt ⟨[], []⟩ (before ++ (t?.map fun t => (key, t)).toList ++ behind) =
          (t?.elim (.ok ()) f.check).map fun _ => s.gap more name t? := by
  simp only [lookAt_append, List.append_assoc] at h ⊢
  obtain ⟨s, hbefore, h⟩ := bind_eq_ok_iff.1 h
  obtain ⟨next, hentry, hbehind⟩ := bind_eq_ok_iff.1 h
  rw [lookAt_singleton] at hentry
  have hfresh : s.known.lookup name = none := by
    obtain ⟨name', hkey', ⟨_, -, hfresh, -⟩ | ⟨hnone, -⟩⟩ := takeEntry_eq_ok_iff.1 hentry
    · obtain rfl := Except.ok.inj (hkey.symm.trans hkey')
      exact hfresh
    · obtain rfl := Except.ok.inj (hkey.symm.trans hkey')
      rw [hfield] at hnone
      cases hnone
  have hstep (t : Tree σ) := takeEntry_of_field (t := t) hkey hfield hfresh
  obtain ⟨_, -, rfl⟩ := map_eq_ok_iff.1 ((hstep d).symm.trans hentry)
  obtain ⟨more, rfl, hnew, hall⟩ := lookAt_grows hbehind
  refine ⟨s, more, hfresh, hnew name ?_, Seen.append_gap .., fun t? => ?_⟩
  · rw [Seen.append, List.lookup_append, hfresh, List.lookup_cons, beq_self_eq_true]
    exact fun h => nomatch h
  · rw [hbefore]
    cases t? with
    | none =>
        -- Without the entry there are fewer names, so that nothing behind it is in the way.
        show l.lookAt s behind = _
        rw [hall s fun k hk => (Seen.lookup_append_eq_none.1 hk).1, Seen.gap_none]
        rfl
    | some t =>
        show (l.lookAt s [(key, t)]).bind _ = _
        rw [lookAt_singleton, hstep t]
        cases hcheck : f.check t with
        | error fault =>
            rw [Option.elim_some, hcheck]
            rfl
        | ok _ =>
            have hsame := hall (s.append ⟨[(name, t)], []⟩) fun k hk => by
              obtain ⟨hk, hsingle⟩ := Seen.lookup_append_eq_none.1 hk
              refine Seen.lookup_append_eq_none.2 ⟨hk, ?_⟩
              rw [List.lookup_eq_none_iff] at hsingle ⊢
              simpa using hsingle
            rw [Option.elim_some, hcheck, ← Seen.append_gap]
            exact hsame

/-! ### Item by item -/

/-- The items of a sequence belong to the fields in their order; some may be missing at the end. -/
theorem map_fst_lookAtItems {record : String} {total : Nat} {closed : Bool} {index : Nat}
    {fields : List (Field σ)} {items : List (Tree σ)} {known : List (String × Tree σ)}
    (h : lookAtItems record total closed index fields items = .ok known) :
    (known.map Prod.fst).Sublist (fields.map Field.name) := by
  induction fields generalizing index items known with
  | nil =>
      cases items with
      | nil =>
          obtain ⟨_, -, rfl⟩ := map_eq_ok_iff.1 h
          exact .slnil
      | cons t rest =>
          rw [lookAtItems] at h
          split at h
          next => exact Except.ok.inj h ▸ .slnil
          next => cases h
  | cons f fields ih =>
      cases items with
      | nil =>
          obtain ⟨_, -, h⟩ := bind_eq_ok_iff.1 h
          split at h
          next => exact (ih h).cons f.name
          next => cases h
      | cons t rest =>
          obtain ⟨_, -, h⟩ := bind_eq_ok_iff.1 h
          obtain ⟨seen, hseen, h⟩ := bind_eq_ok_iff.1 h
          exact Except.ok.inj h ▸ (ih hseen).cons_cons f.name

/-- **Items are looked at whatever datum stands among them**, as long as its field takes it. -/
theorem lookAtItems_gap {record : String} {total : Nat} {closed : Bool} {index : Nat}
    {fields : List (Field σ)} (hnodup : (fields.map Field.name).Nodup)
    {before behind : List (Tree σ)} {d : Tree σ} {f : Field σ}
    (hfield : fields[before.length]? = some f) {all : List (String × Tree σ)}
    (h : lookAtItems record total closed index fields (before ++ [d] ++ behind) = .ok all) :
    ∃ s more : List (String × Tree σ), s.lookup f.name = none ∧ more.lookup f.name = none ∧
      all = s ++ [(f.name, d)] ++ more ∧
      ∀ t : Tree σ, lookAtItems record total closed index fields (before ++ [t] ++ behind) =
        (f.check t).map fun _ => s ++ [(f.name, t)] ++ more := by
  induction before generalizing index fields all with
  | nil =>
      cases fields with
      | nil => cases hfield
      | cons g fields =>
          obtain rfl := Option.some.inj hfield
          obtain ⟨hname, -⟩ := List.nodup_cons.1 hnodup
          obtain ⟨_, -, h⟩ := bind_eq_ok_iff.1 h
          obtain ⟨more, hmore, h⟩ := bind_eq_ok_iff.1 h
          obtain rfl := Except.ok.inj h
          have hbehind : lookAtItems record total closed (index + 1) fields behind = .ok more :=
            hmore
          refine ⟨[], more, rfl, lookup_eq_none_of_not_mem fun hk => ?_, rfl, fun t => ?_⟩
          · exact hname ((map_fst_lookAtItems hbehind).subset hk)
          · show lookAtItems record total closed index (g :: fields) (t :: behind) = _
            rw [lookAtItems, hbehind]
            cases g.check t <;> rfl
  | cons u before ih =>
      cases fields with
      | nil => cases hfield
      | cons g fields =>
          obtain ⟨hname, hnodup⟩ := List.nodup_cons.1 hnodup
          obtain ⟨_, hcheck, h⟩ := bind_eq_ok_iff.1 h
          obtain ⟨rest, hrest, h⟩ := bind_eq_ok_iff.1 h
          obtain rfl := Except.ok.inj h
          obtain ⟨s, more, hs, hmore, rfl, hall⟩ := ih hnodup hfield hrest
          have hne : f.name ≠ g.name := by
            intro heq
            have hmem : f ∈ fields := List.mem_of_getElem? hfield
            exact hname (heq ▸ List.mem_map.2 ⟨f, hmem, rfl⟩)
          refine ⟨(g.name, u) :: s, more, ?_, hmore, rfl, fun t => ?_⟩
          · rw [List.lookup_cons, beq_eq_false_iff_ne.2 hne]
            exact hs
          · show lookAtItems record total closed index (g :: fields)
              (u :: (before ++ [t] ++ behind)) = _
            rw [lookAtItems, hcheck, hall t]
            cases f.check t <;> rfl

end Layout

/-! ### Fields -/

namespace Layout

variable {σ α β γ : Type} {l : Layout σ α} {name name' : String} {r : Reader σ β}

/-- What a field makes of the datum of its entry, or of a missing entry. -/
def readField (name : String) (r : Reader σ α) : Option (Tree σ) → Except Fault α
  | some t => r.read t
  | none => r.absent.elim (.error (.complaint (.missingField name))) .ok

theorem buildField_eq (name : String) (r : Reader σ α) (seen : Seen σ) :
    buildField name r seen = readField name r (seen.known.lookup name) := by
  rw [buildField]
  cases seen.known.lookup name <;> rfl

/-- What is made of entries does not depend on those with a given name. -/
def Ignores (l : Layout σ α) (name : String) : Prop :=
  ∀ seen seen' : Seen σ, seen.AgreeBut name seen' → l.build seen = l.build seen'

/-- **What is made of entries depends on those with a given name only through a reader**: with
different data under that name, what is made differs as what the reader makes of them.  The function
that makes the whole of that part has a property. -/
def Opens (l : Layout σ α) (name : String) (r : Reader σ β) (Q : (β → α) → Prop) : Prop :=
  ∀ seen : Option (Tree σ) → Seen σ, (∀ t?, (seen t?).known.lookup name = t?) →
    (∀ t? t?', (seen t?).AgreeBut name (seen t?')) → ∀ d a, l.build (seen (some d)) = .ok a →
    ∃ g, Q g ∧ ∀ t?, l.build (seen t?) = (readField name r t?).map g

theorem ignores_pure (a : α) : (Pure.pure a : Layout σ α).Ignores name := fun _ _ _ => rfl

theorem ignores_field (r : Reader σ β) (h : name' ≠ name) : (field name' r).Ignores name := by
  intro seen seen' hsame
  show buildField name' r seen = buildField name' r seen'
  rw [buildField_eq, buildField_eq, hsame.known name' h]

theorem ignores_fieldOr (default : β) (r : Reader σ β) (h : name' ≠ name) :
    (fieldOr default name' r).Ignores name := ignores_field _ h

theorem ignores_others [Scalar σ] : (others : Layout σ _).Ignores name := by
  intro seen seen' hsame
  show seen.others.mapM keepOther = seen'.others.mapM keepOther
  rw [hsame.others]

theorem Ignores.seq {f : Layout σ (α → β)} {x : Layout σ α} (hf : f.Ignores name)
    (hx : x.Ignores name) : (f <*> x).Ignores name := by
  intro seen seen' hsame
  show (do let g ← f.build seen; let a ← x.build seen; Pure.pure (g a)) =
    (do let g ← f.build seen'; let a ← x.build seen'; Pure.pure (g a))
  rw [hf seen seen' hsame, hx seen seen' hsame]

theorem Ignores.map {x : Layout σ α} (g : α → β) (hx : x.Ignores name) :
    (g <$> x).Ignores name := (ignores_pure g).seq hx

/-- The field itself, behind others. -/
theorem Opens.field {Q : (β → α) → Prop} {f : Layout σ (β → α)} (hf : f.Ignores name)
    (hyields : f.Yields Q) : (f <*> Layout.field name r).Opens name r Q := by
  intro seen hlookup hsame d a h
  obtain ⟨g, hg, -⟩ := bind_eq_ok_iff.1 h
  refine ⟨g, hyields _ g hg, fun t? => ?_⟩
  show (do let g ← f.build (seen t?); let a ← buildField name r (seen t?); Pure.pure (g a)) = _
  rw [hf _ _ (hsame t? (some d)), hg, buildField_eq, hlookup]
  cases readField name r t? <;> rfl

/-- The field itself, behind others, if it takes a default when it is missing. -/
theorem Opens.fieldOr {Q : (β → α) → Prop} {f : Layout σ (β → α)} (default : β)
    (hf : f.Ignores name) (hyields : f.Yields Q) :
    (f <*> Layout.fieldOr default name r).Opens name { r with absent := some default } Q :=
  Opens.field (r := { r with absent := some default }) hf hyields

theorem yields_pure {P : α → Prop} {a : α} (h : P a) : (Pure.pure a : Layout σ α).Yields P :=
  fun _ _ ha => Except.ok.inj ha ▸ h

/-- The first field. -/
theorem Opens.first {Q : (β → α) → Prop} {g : β → α} (hg : Q g) :
    (g <$> Layout.field name r).Opens name r Q := .field (ignores_pure g) (yields_pure hg)

/-- The first field, if it takes a default when it is missing. -/
theorem Opens.firstOr {Q : (β → α) → Prop} {g : β → α} (default : β) (hg : Q g) :
    (g <$> Layout.fieldOr default name r).Opens name { r with absent := some default } Q :=
  .fieldOr default (ignores_pure g) (yields_pure hg)

/-- More fields behind it. -/
theorem Opens.seq {Q : (β → γ) → Prop} {f : Layout σ (α → γ)} {x : Layout σ α}
    (hf : f.Opens name r fun g => ∀ a, Q fun b => g b a) (hx : x.Ignores name) :
    (f <*> x).Opens name r Q := by
  intro seen hlookup hsame d c h
  obtain ⟨h', hh', h⟩ := bind_eq_ok_iff.1 h
  obtain ⟨a, ha, -⟩ := bind_eq_ok_iff.1 h
  obtain ⟨g, hg, hall⟩ := hf seen hlookup hsame d h' hh'
  refine ⟨fun b => g b a, hg a, fun t? => ?_⟩
  show (do let g ← f.build (seen t?); let a ← x.build (seen t?); Pure.pure (g a)) = _
  rw [hall t?, hx _ _ (hsame t? (some d)), ha]
  cases readField name r t? <;> rfl

end Layout

/-! ### Records -/

section

variable {σ : Type} [Scalar σ] {α β γ : Type}

open Layout

/-- **What a reader makes of a collection depends on the datum of a field only through the reader of
that field**, as soon as it makes something of it with one datum; if the datum has a key, the key may
be missing. -/
def Reader.Opens (R : Reader σ α) (names : List String) (name : String) (r : Reader σ β)
    (Q : (β → α) → Prop) : Prop :=
  ∀ f : Frame σ, f.IsOf names name → ∀ d a, R.read (f.fill d) = .ok a →
    ∃ g, Q g ∧ (∀ t, R.read (f.fill t) = (r.read t).map g) ∧
      (f.isKeyed = true → R.read f.bare = (readField name r none).map g)

namespace Layout

variable {l : Layout σ α} {name : String} {r : Reader σ β} {Q : (β → α) → Prop}

omit [Scalar σ] in
/-- A check that comes before is made again. -/
theorem check_bind_readField (name : String) {check : Tree σ → Except Fault Unit}
    (hcheck : check = checkBy r) (g : β → α) (t? : Option (Tree σ)) :
    ((t?.elim (.ok ()) check).bind fun _ => (readField name r t?).map g) =
      (readField name r t?).map g := by
  cases t? with
  | none => rfl
  | some t =>
      rw [Option.elim_some, hcheck, checkBy, readField]
      cases r.read t <;> rfl

omit [Scalar σ] in
/-- Under distinct names, the field in a position is the one with its name. -/
theorem field?_of_getElem? {i : Nat} {f : Field σ} (hnodup : (l.fields.map Field.name).Nodup)
    (h : l.fields[i]? = some f) : l.field? f.name = some f := by
  rw [Layout.field?]
  generalize l.fields = fields at hnodup h ⊢
  induction fields generalizing i with
  | nil => cases h
  | cons g rest ih =>
      obtain ⟨hname, hnodup⟩ := List.nodup_cons.1 hnodup
      cases i with
      | zero =>
          obtain rfl := Option.some.inj h
          rw [List.find?_cons, beq_self_eq_true]
      | succ i =>
          have hmem : f ∈ rest := List.mem_of_getElem? h
          have hne : g.name ≠ f.name := fun heq => hname (heq ▸ List.mem_map.2 ⟨f, hmem, rfl⟩)
          rw [List.find?_cons, beq_eq_false_iff_ne.2 hne]
          exact ih hnodup h

variable (hl : l.Opens name r Q) {field : Field σ} (hfield : l.field? name = some field)
  (hcheck : field.check = checkBy r)

include hl hfield hcheck

/-- The datum of an entry. -/
theorem Opens.readEntries {before behind : List (Tree σ × Tree σ)} {key d : Tree σ} {closed : Bool}
    {a : α} (hkey : (Reader.textAs "field identifier").read key = .ok name)
    (h : l.readEntries (before ++ [(key, d)] ++ behind) closed = .ok a) :
    ∃ g, Q g ∧ ∀ t? : Option (Tree σ),
      l.readEntries (before ++ (t?.map fun t => (key, t)).toList ++ behind) closed =
        (readField name r t?).map g := by
  obtain ⟨all, hall, h⟩ := bind_eq_ok_iff.1 h
  obtain ⟨_, hended, h⟩ := bind_eq_ok_iff.1 h
  obtain ⟨s, more, hs, hmore, rfl, hgap⟩ := lookAt_gap hkey hfield hall
  obtain ⟨g, hg, hbuild⟩ := hl (s.gap more name) (Seen.lookup_gap hs hmore)
    (Seen.agreeBut_gap s more name) d a h
  refine ⟨g, hg, fun t? => ?_⟩
  rw [Layout.readEntries, hgap t?, hended, ← check_bind_readField _ hcheck g t?, ← hbuild t?]
  cases t?.elim (.ok ()) field.check <;> rfl

/-- The datum of an item. -/
theorem Opens.readItems {record : String} {before behind : List (Tree σ)} {d : Tree σ}
    {closed : Bool} {a : α} (hnodup : (l.fields.map Field.name).Nodup)
    (hposition : (l.fields.map Field.name)[before.length]? = some name)
    (h : l.readItems record (before ++ [d] ++ behind) closed = .ok a) :
    ∃ g, Q g ∧ ∀ t : Tree σ, l.readItems record (before ++ [t] ++ behind) closed =
      (r.read t).map g := by
  rw [List.getElem?_map, Option.map_eq_some_iff] at hposition
  obtain ⟨other, hposition, rfl⟩ := hposition
  obtain rfl := Option.some.inj (hfield.symm.trans (field?_of_getElem? hnodup hposition))
  obtain ⟨all, hall, h⟩ := bind_eq_ok_iff.1 h
  obtain ⟨s, more, hs, hmore, rfl, hgap⟩ := lookAtItems_gap hnodup hposition hall
  have hseen (t : Tree σ) : (Seen.mk s []).gap ⟨more, []⟩ field.name (some t) =
      ⟨s ++ [(field.name, t)] ++ more, []⟩ := rfl
  obtain ⟨g, hg, hbuild⟩ := hl ((Seen.mk s []).gap ⟨more, []⟩ field.name)
    (Seen.lookup_gap hs hmore) (Seen.agreeBut_gap _ _ _) d a h
  refine ⟨g, hg, fun t => ?_⟩
  have htwice := check_bind_readField field.name hcheck g (some t)
  rw [← hbuild (some t), hseen t] at htwice
  rw [Layout.readItems, hgap t]
  refine Eq.trans ?_ (htwice.trans (hseen t ▸ hbuild (some t)))
  rw [Option.elim_some]
  cases field.check t <;> rfl

/-- **A record depends on the datum of a field only through the reader of the field.** -/
theorem Opens.record (record : String) {names : List String}
    (hnames : l.fields.map Field.name = names) (hnodup : names.Nodup) :
    (Reader.record record l).Opens names name r Q := by
  obtain rfl := hnames
  rintro (⟨mark, before, key, behind, closed⟩ | ⟨mark, before, behind, closed⟩) hf d a h
  · obtain ⟨g, hg, hall⟩ := hl.readEntries hfield hcheck hf h
    exact ⟨g, hg, fun t => hall (some t), fun _ => hall none⟩
  · have hread (t : Tree σ) : (Reader.record record l).read
        ((Frame.item mark before behind closed).fill t) =
        if Scalar.recordsAsSequences σ && ! l.keepsOthers then
          l.readItems record (before ++ [t] ++ behind) closed
        else .error (.complaint (.invalidType .sequence record)) := rfl
    rw [hread] at h
    split at h
    next hplain =>
      obtain ⟨g, hg, hall⟩ := hl.readItems hfield hcheck hnodup hf h
      refine ⟨g, hg, fun t => ?_, fun hkeyed => nomatch hkeyed⟩
      rw [hread, if_pos hplain, hall t]
    next => cases h

end Layout

/-! ### Fields of fields -/

/-- Collections around one another, the outermost first, with a datum in the innermost. -/
def Frame.fillAll (frames : List (Frame σ)) (t : Tree σ) : Tree σ := frames.foldr Frame.fill t

/-- **Collections around one another belong to the fields of a path**; each step of a path is a field
with all the fields of its record. -/
def Frame.AreAlong : List (List String × String) → List (Frame σ) → Prop
  | [], [] => True
  | (names, name) :: path, f :: frames => f.IsOf names name ∧ AreAlong path frames
  | _, _ => False

namespace Reader

/-- **What a reader makes depends on the datum at the end of a path only through another reader.** -/
def Reaches (R : Reader σ α) (path : List (List String × String)) (r : Reader σ β)
    (Q : (β → α) → Prop) : Prop :=
  ∀ frames : List (Frame σ), Frame.AreAlong path frames → ∀ d a,
    R.read (Frame.fillAll frames d) = .ok a →
    ∃ g, Q g ∧ ∀ t, R.read (Frame.fillAll frames t) = (r.read t).map g

variable {R : Reader σ α} {r : Reader σ β} {r' : Reader σ γ} {Q : (β → α) → Prop}
  {Q' : (γ → β) → Prop} {names : List String} {name : String}
  {path : List (List String × String)}

theorem Reaches.mono {P : (β → α) → Prop} (h : R.Reaches path r Q) (hQ : ∀ g, Q g → P g) :
    R.Reaches path r P := by
  intro frames hframes d a hd
  obtain ⟨g, hg, hall⟩ := h frames hframes d a hd
  exact ⟨g, hQ g hg, hall⟩

theorem reaches_self (R : Reader σ α) : R.Reaches [] R fun g => g = id := by
  intro frames hframes d a _
  cases frames with
  | nil =>
      refine ⟨id, rfl, fun t => ?_⟩
      show R.read t = _
      cases R.read t <;> rfl
  | cons f frames => exact hframes.elim

/-- One more step in front of a path. -/
theorem Opens.reaches (h : R.Opens names name r Q) (h' : r.Reaches path r' Q') :
    R.Reaches ((names, name) :: path) r' fun g => ∃ f f', Q f ∧ Q' f' ∧ g = f ∘ f' := by
  intro frames hframes d a hd
  cases frames with
  | nil => exact hframes.elim
  | cons f frames =>
      obtain ⟨hf, hframes⟩ := hframes
      obtain ⟨g, hg, hall, -⟩ := h f hf (Frame.fillAll frames d) a hd
      obtain ⟨b, hb, -⟩ := map_eq_ok_iff.1 ((hall _).symm.trans hd)
      obtain ⟨g', hg', hall'⟩ := h' frames hframes d b hb
      refine ⟨g ∘ g', ⟨g, g', hg, hg', rfl⟩, fun t => ?_⟩
      show R.read (f.fill (Frame.fillAll frames t)) = _
      rw [hall, hall']
      cases r'.read t <;> rfl

theorem isNull_put (f : Frame σ) (t? : Option (Tree σ)) : isNull (f.put t?) = .ok false := by
  cases f <;> rfl

/-- A collection that may be missing is there. -/
theorem Opens.optional (h : r.Opens names name r' Q') :
    (optional r).Opens names name r' fun g => ∃ f, Q' f ∧ g = some ∘ f := by
  intro f hf d a hd
  have hput (t? : Option (Tree σ)) :
      (Reader.optional r).read (f.put t?) = (r.read (f.put t?)).map some := by
    show (isNull (f.put t?)).bind _ = _
    rw [isNull_put]
    rfl
  obtain ⟨b, hb, -⟩ := map_eq_ok_iff.1 ((hput _).symm.trans hd)
  obtain ⟨g, hg, hall, hbare⟩ := h f hf d b hb
  refine ⟨some ∘ g, ⟨g, hg, rfl⟩, fun t => ?_, fun hkeyed => ?_⟩
  · rw [Frame.fill, hput, ← Frame.fill, hall t]
    cases r'.read t <;> rfl
  · rw [Frame.bare, hput, ← Frame.bare, hbare hkeyed]
    cases Layout.readField name r' none <;> rfl

end Reader

end

end CaptureConfig

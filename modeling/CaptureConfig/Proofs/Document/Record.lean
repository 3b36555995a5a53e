/-
**Records as documents.**

A record is written as a block of those of its fields that there are, under distinct names.  A
reader of records takes the entries one after another, whatever their order; so what it makes of
them is known once it is known what each field makes of the entry under its name, if there is one.

Main definitions:

* `Doc.record` — a block of those fields that there are;
* `Reader.Reads` — a reader makes a value of a document and uses all of it;
* `Layout.Reads` — the fields of a record make a value of entries;
* `Layout.Accepts` — an entry is looked at without complaint.

Main results:

* `Layout.lookAt_eq_ok` — **entries under distinct names are looked at whatever their order**;
* `Layout.Reads.field`, `Layout.Reads.fieldOr`, `Layout.Reads.seq` — field by field;
* `Layout.Reads.record` — **a reader of records reads a record**.
-/

import CaptureConfig.Proofs.Document.Tree

set_option relaxedAutoImplicit false
set_option autoImplicit false

namespace CaptureConfig

/-! ### Those fields that there are -/

/-- The fields that there are, in their order. -/
def present {α β : Type} (fields : List (α × Option β)) : List (α × β) :=
  fields.filterMap fun f => f.2.map fun b => (f.1, b)

section

variable {α β : Type}

theorem present_cons_some (k : α) (b : β) (rest : List (α × Option β)) :
    present ((k, some b) :: rest) = (k, b) :: present rest := rfl

theorem mem_present {k : α} {b : β} {fields : List (α × Option β)} :
    (k, b) ∈ present fields ↔ (k, some b) ∈ fields := by
  rw [present, List.mem_filterMap]
  constructor
  · rintro ⟨⟨l, b?⟩, hf, h⟩
    obtain ⟨_, rfl, h⟩ := Option.map_eq_some_iff.1 h
    cases h
    exact hf
  · exact fun h => ⟨(k, some b), h, rfl⟩

/-- What is certainly there is there. -/
theorem present_append_map_some (fields : List (α × Option β)) (entries : List (α × β)) :
    present (fields ++ entries.map fun e => (e.1, some e.2)) = present fields ++ entries := by
  rw [present, List.filterMap_append, List.filterMap_map]
  exact congrArg (present fields ++ ·) List.filterMap_some

theorem map_fst_present_sublist (fields : List (α × Option β)) :
    ((present fields).map Prod.fst).Sublist (fields.map Prod.fst) := by
  induction fields with
  | nil => exact .slnil
  | cons f rest ih =>
      obtain ⟨k, b?⟩ := f
      cases b? with
      | none => exact ih.cons k
      | some b => exact ih.cons_cons k

theorem lookup_eq_none_of_not_mem [BEq α] [LawfulBEq α] {k : α} {entries : List (α × β)}
    (h : k ∉ entries.map Prod.fst) : entries.lookup k = none := by
  rw [List.lookup_eq_none_iff]
  intro e he
  rw [bne_iff_ne]
  rintro rfl
  exact h (List.mem_map.2 ⟨e, he, rfl⟩)

/-- Under distinct names, an entry is found under the name of its field. -/
theorem lookup_present [BEq α] [LawfulBEq α] (k : α) {fields : List (α × Option β)}
    (h : (fields.map Prod.fst).Nodup) : (present fields).lookup k = (fields.lookup k).join := by
  induction fields with
  | nil => rfl
  | cons f rest ih =>
      obtain ⟨l, b?⟩ := f
      obtain ⟨hl, hrest⟩ := List.nodup_cons.1 h
      rw [List.lookup_cons]
      cases hkl : k == l with
      | false =>
          cases b? with
          | none => exact ih hrest
          | some b => rw [present_cons_some, List.lookup_cons, hkl]; exact ih hrest
      | true =>
          obtain rfl := beq_iff_eq.1 hkl
          cases b? with
          | none =>
              exact lookup_eq_none_of_not_mem fun hk =>
                hl ((map_fst_present_sublist rest).subset hk)
          | some b => rw [present_cons_some, List.lookup_cons, hkl]; rfl

theorem lookup_of_mem [BEq α] [LawfulBEq α] {k : α} {b : β} {entries : List (α × β)}
    (hnodup : (entries.map Prod.fst).Nodup) (h : (k, b) ∈ entries) :
    entries.lookup k = some b := by
  induction entries with
  | nil => cases h
  | cons e rest ih =>
      obtain ⟨he, hrest⟩ := List.nodup_cons.1 hnodup
      rw [List.lookup_cons]
      obtain rfl | h := List.mem_cons.1 h
      · rw [beq_self_eq_true]
      · have hne : (k == e.1) = false := by
          rw [beq_eq_false_iff_ne]
          rintro rfl
          exact he (List.mem_map.2 ⟨_, h, rfl⟩)
        rw [hne]
        exact ih hrest h

theorem lookup_map_snd {γ : Type} [BEq α] (f : β → γ) (k : α) (entries : List (α × β)) :
    (entries.map fun e => (e.1, f e.2)).lookup k = (entries.lookup k).map f := by
  induction entries with
  | nil => rfl
  | cons e rest ih =>
      rw [List.map_cons, List.lookup_cons, List.lookup_cons, ih]
      cases k == e.1 <;> rfl

end

/-- **A block of those fields that there are.** -/
def Doc.record (fields : List (String × Option Doc)) : Doc := .block (present fields)

/-! ### Whole documents -/

namespace Reader

variable {σ α : Type} {r : Reader σ α}

/-- **Something is made of a document if it is made of its tree** and the text behind it is in
order. -/
theorem document_eq_ok_iff {d : Document σ} {a : α} :
    r.document d = .ok a ↔ r.read d.root = .ok a ∧ d.sound = true := by
  obtain ⟨t, sound⟩ := d
  rw [Reader.document]
  cases r.read t with
  | error e => exact ⟨(nomatch ·), fun h => nomatch h.1⟩
  | ok a' =>
      cases sound with
      | true => exact ⟨fun h => ⟨h, rfl⟩, And.left⟩
      | false => exact ⟨(nomatch ·), fun h => nomatch h.2⟩

/-- Behind a sound document there is nothing to complain about. -/
theorem document_sound {t : Tree σ} : r.document ⟨t, true⟩ = r.read t := by
  rw [Reader.document]
  cases r.read t <;> rfl

end Reader

/-! ### Readers of single things -/

/-- **A reader makes a value of a document**, and uses all of it. -/
structure Reader.Reads {σ α : Type} (sp : Doc.Spelling σ) (r : Reader σ α) (d : Doc) (a : α) :
    Prop where
  used : d.IsUsed r.uses
  read : r.read (d.tree sp) = .ok a

section

variable {σ : Type} {sp : Doc.Spelling σ}

theorem Doc.isNull_tree [Scalar σ] (hsp : sp.Lawful) (d : Doc) :
    Reader.isNull (d.tree sp) = .ok false := by
  cases d with
  | text s => exact congrArg Tree.complaining (hsp.isNull_text s)
  | number n => exact congrArg Tree.complaining (hsp.isNull_number n)
  | flag b => exact congrArg Tree.complaining (hsp.isNull_flag b)
  | block entries => rfl

namespace Reader

variable {α β : Type} {r : Reader σ α} {d : Doc} {a : α}

theorem Reads.map (f : α → β) (h : r.Reads sp d a) : (r.map f).Reads sp d (f a) :=
  ⟨h.used, congrArg (Except.map f) h.read⟩

variable [Scalar σ]

/-- What is there is not nothing. -/
theorem Reads.optional (hsp : sp.Lawful) (h : r.Reads sp d a) :
    (Reader.optional r).Reads sp d (some a) := by
  refine ⟨h.used, ?_⟩
  show (isNull (d.tree sp)).bind _ = _
  rw [d.isNull_tree hsp]
  exact congrArg (Except.map some) h.read

theorem reads_textAs (hsp : sp.Lawful) (expected s : String) :
    (textAs expected : Reader σ String).Reads sp (.text s) s := by
  refine ⟨rfl, ?_⟩
  show (Scalar.text? (sp.text s)).elim _ _ = _
  rw [hsp.text? s]
  rfl

theorem reads_truth (hsp : sp.Lawful) (b : Bool) :
    (truth : Reader σ Bool).Reads sp (.flag b) b := by
  refine ⟨rfl, ?_⟩
  show (Scalar.truth? (sp.flag b)).elim _ _ = _
  rw [hsp.truth? b]
  rfl

theorem reads_number (hsp : sp.Lawful) {bound n : Nat} (expected : String) (hn : n < bound)
    (hbound : bound ≤ Nat.pow 2 64) :
    (number bound expected : Reader σ Nat).Reads sp (.number n) n := by
  refine ⟨rfl, ?_⟩
  rw [Doc.tree, number, scalar]
  simp only [hsp.integer? n (Nat.lt_of_lt_of_le hn hbound)]
  rw [if_pos ⟨Int.natCast_nonneg n, Int.ofNat_lt.2 hn⟩]
  rfl

theorem reads_u16 (hsp : sp.Lawful) (n : UInt16) :
    (u16 : Reader σ UInt16).Reads sp (.number n.toNat) n := by
  have h := (reads_number hsp "u16" n.toNat_lt (by decide)).map UInt16.ofNat
  rwa [UInt16.ofNat_toNat] at h

theorem reads_u32 (hsp : sp.Lawful) (n : UInt32) :
    (u32 : Reader σ UInt32).Reads sp (.number n.toNat) n := by
  have h := (reads_number hsp "u32" n.toNat_lt (by decide)).map UInt32.ofNat
  rwa [UInt32.ofNat_toNat] at h

theorem reads_u64 (hsp : sp.Lawful) (n : UInt64) :
    (u64 : Reader σ UInt64).Reads sp (.number n.toNat) n := by
  have h := (reads_number hsp "u64" n.toNat_lt (by decide)).map UInt64.ofNat
  rwa [UInt64.ofNat_toNat] at h

end Reader

/-! ### Fields -/

/-- **The fields of a record make a value of entries**: each accepts what stands under its name, and
from what stands under their names the value is made. -/
structure Layout.Reads {α : Type} (sp : Doc.Spelling σ) (l : Layout σ α)
    (fields : List (String × Option Doc)) (a : α) : Prop where
  used : ∀ f ∈ l.fields, ∀ d, fields.lookup f.name = some (some d) → d.IsUsed f.uses
  check : ∀ f ∈ l.fields, ∀ d, fields.lookup f.name = some (some d) → f.check (d.tree sp) = .ok ()
  build : ∀ seen : Seen σ, (∀ f ∈ l.fields,
    seen.known.lookup f.name = (fields.lookup f.name).join.map (Doc.tree sp)) → l.build seen = .ok a

namespace Layout

variable {α β : Type} {fields : List (String × Option Doc)} {name : String}

theorem checkBy_eq_ok {r : Reader σ α} {d : Doc} {a : α} (h : r.Reads sp d a) :
    checkBy r (d.tree sp) = .ok () := congrArg (Except.map fun _ => ()) h.read

/-- A field that is there. -/
theorem Reads.field {r : Reader σ α} {d : Doc} {a : α}
    (hlookup : fields.lookup name = some (some d)) (h : r.Reads sp d a) :
    (field name r).Reads sp fields a where
  used f hf e he := by
    obtain rfl := List.mem_singleton.1 hf
    cases hlookup.symm.trans he
    exact h.used
  check f hf e he := by
    obtain rfl := List.mem_singleton.1 hf
    cases hlookup.symm.trans he
    exact checkBy_eq_ok h
  build seen hseen := by
    have hknown := hseen _ (List.mem_singleton.2 rfl)
    simp only [hlookup] at hknown
    show buildField name r seen = _
    rw [buildField, hknown]
    exact h.read

/-- A field that may be missing. -/
theorem Reads.fieldOr [Scalar σ] (hsp : sp.Lawful) {r : Reader σ α} {write : α → Doc}
    {a? : Option α}
    (hlookup : fields.lookup name = some (a?.map write))
    (h : ∀ a ∈ a?, r.Reads sp (write a) a) :
    (fieldOr none name (Reader.optional r)).Reads sp fields a? where
  used f hf e he := by
    obtain rfl := List.mem_singleton.1 hf
    obtain ⟨a, ha, rfl⟩ := Option.map_eq_some_iff.1 (Option.some.inj (hlookup.symm.trans he))
    exact (h a ha).used
  check f hf e he := by
    obtain rfl := List.mem_singleton.1 hf
    obtain ⟨a, ha, rfl⟩ := Option.map_eq_some_iff.1 (Option.some.inj (hlookup.symm.trans he))
    exact checkBy_eq_ok ((h a ha).optional hsp)
  build seen hseen := by
    have hknown := hseen _ (List.mem_singleton.2 rfl)
    simp only [hlookup] at hknown
    show buildField name _ seen = _
    rw [buildField, hknown]
    cases a? with
    | none => rfl
    | some a => exact ((h a rfl).optional hsp).read

theorem Reads.pure (a : α) : (Pure.pure a : Layout σ α).Reads sp fields a where
  used _ hf := absurd hf List.not_mem_nil
  check _ hf := absurd hf List.not_mem_nil
  build _ _ := rfl

/-- One more part of a record. -/
theorem Reads.seq {l : Layout σ (α → β)} {l' : Layout σ α} {g : α → β} {a : α}
    (h : l.Reads sp fields g) (h' : l'.Reads sp fields a) : (l <*> l').Reads sp fields (g a) where
  used f hf := by
    obtain hf | hf := List.mem_append.1 hf
    · exact h.used f hf
    · exact h'.used f hf
  check f hf := by
    obtain hf | hf := List.mem_append.1 hf
    · exact h.check f hf
    · exact h'.check f hf
  build seen hseen := by
    have hg := h.build seen fun f hf => hseen f (List.mem_append_left _ hf)
    have ha := h'.build seen fun f hf => hseen f (List.mem_append_right _ hf)
    show (l.build seen).bind (fun g => (l'.build seen).bind fun a => Pure.pure (g a)) = _
    rw [hg, Except.bind, ha]
    rfl

theorem Reads.map {l : Layout σ α} {a : α} (g : α → β) (h : l.Reads sp fields a) :
    (g <$> l).Reads sp fields (g a) := (Reads.pure g).seq h

/-! ### Records -/

theorem field?_of_mem {l : Layout σ α} {k : String} (h : k ∈ l.fields.map Field.name) :
    ∃ f ∈ l.fields, f.name = k ∧ l.field? k = some f := by
  obtain ⟨g, hg, rfl⟩ := List.mem_map.1 h
  obtain ⟨f, hf⟩ := Option.isSome_iff_exists.1
    (List.find?_isSome (p := fun f => f.name == g.name).2 ⟨g, hg, beq_self_eq_true _⟩)
  have hname := List.find?_some hf
  exact ⟨f, List.mem_of_find?_eq_some hf, beq_iff_eq.1 hname, hf⟩

/-- What is used of an entry is what its field uses. -/
theorem ofKey_uses_of_mem {l : Layout σ α} {k : String} (h : k ∈ l.fields.map Field.name) :
    ∃ f ∈ l.fields, f.name = k ∧ l.uses.ofKey (some k) = f.uses := by
  rw [Layout.uses, Uses.ofKey]
  generalize l.fields = fields at h ⊢
  induction fields with
  | nil => exact absurd h List.not_mem_nil
  | cons g rest ih =>
      rw [List.map_cons, List.lookup_cons]
      cases hk : k == g.name with
      | true => exact ⟨g, List.mem_cons_self, (beq_iff_eq.1 hk).symm, rfl⟩
      | false =>
          have hne : k ≠ g.name := beq_eq_false_iff_ne.1 hk
          obtain ⟨f, hf, hname, huses⟩ := ih ((List.mem_cons.1 h).resolve_left hne)
          exact ⟨f, List.mem_cons_of_mem _ hf, hname, huses⟩

/-- The name is that of a field. -/
def knows (l : Layout σ α) (name : String) : Bool := (l.field? name).isSome

theorem knows_iff {l : Layout σ α} {name : String} :
    l.knows name = true ↔ name ∈ l.fields.map Field.name := by
  constructor
  · intro h
    obtain ⟨f, hf⟩ := Option.isSome_iff_exists.1 h
    have hname := List.find?_some hf
    exact List.mem_map.2 ⟨f, List.mem_of_find?_eq_some hf, beq_iff_eq.1 hname⟩
  · intro h
    obtain ⟨f, -, -, hf⟩ := field?_of_mem h
    exact Option.isSome_iff_exists.2 ⟨f, hf⟩

section

variable [Scalar σ] {l : Layout σ α}

/-- **An entry is looked at without complaint**: by the field of its name, or as one without a
field. -/
def Accepts (l : Layout σ α) (name : String) (t : Tree σ) : Prop :=
  match l.field? name with
  | some f => f.check t = .ok ()
  | none => l.lookAtOther t = .ok ()

section

variable {key : String → σ} (hkey : ∀ s, Scalar.text? (key s) = some s) {seen : Seen σ}
  {k : String} {t : Tree σ} (rest : List (Tree σ × Tree σ))

include hkey

theorem read_identifier (k : String) :
    (Reader.textAs "field identifier").read (.scalar (key k)) = .ok k := by
  show (Scalar.text? (key k)).elim _ _ = _
  rw [hkey k]
  rfl

/-- An entry with a field. -/
theorem lookAt_cons_of_some {f : Field σ} (hfield : l.field? k = some f)
    (hnew : seen.known.lookup k = none) (hcheck : f.check t = .ok ()) :
    l.lookAt seen ((.scalar (key k), t) :: rest) =
      l.lookAt { seen with known := seen.known ++ [(k, t)] } rest := by
  rw [lookAt, read_identifier hkey k]
  simp only [bind, Except.bind, hfield, hnew, hcheck]
  rfl

/-- An entry without a field. -/
theorem lookAt_cons_of_none (hfield : l.field? k = none) (hother : l.lookAtOther t = .ok ()) :
    l.lookAt seen ((.scalar (key k), t) :: rest) =
      l.lookAt { seen with others := seen.others ++ [(k, t)] } rest := by
  rw [lookAt, read_identifier hkey k]
  simp only [bind, Except.bind, hfield, hother]

end

/-- **Entries under distinct names are looked at whatever their order.** -/
theorem lookAt_eq_ok {key : String → σ} (hkey : ∀ s, Scalar.text? (key s) = some s)
    (entries : List (String × Tree σ)) (seen : Seen σ) (hnodup : (entries.map Prod.fst).Nodup)
    (hnew : ∀ e ∈ entries, seen.known.lookup e.1 = none)
    (haccepts : ∀ e ∈ entries, l.Accepts e.1 e.2) :
    l.lookAt seen (entries.map fun e => (.scalar (key e.1), e.2)) =
      .ok ⟨seen.known ++ entries.filter fun e => l.knows e.1,
        seen.others ++ entries.filter fun e => ! l.knows e.1⟩ := by
  induction entries generalizing seen with
  | nil =>
      rw [List.filter_nil, List.filter_nil, List.append_nil, List.append_nil]
      rfl
  | cons e rest ih =>
      obtain ⟨k, t⟩ := e
      obtain ⟨hk, hnodup⟩ := List.nodup_cons.1 hnodup
      obtain ⟨hknew, hnew⟩ := List.forall_mem_cons.1 hnew
      obtain ⟨haccept, haccepts⟩ := List.forall_mem_cons.1 haccepts
      rw [List.map_cons]
      cases hfield : l.field? k with
      | some f =>
          have hknows : l.knows k = true := by rw [knows, hfield]; rfl
          have hcheck : f.check t = .ok () := by simpa only [Accepts, hfield] using haccept
          have hnew' : ∀ e ∈ rest, (seen.known ++ [(k, t)]).lookup e.1 = none := by
            intro e he
            have hne : (e.1 == k) = false := by
              rw [beq_eq_false_iff_ne]
              rintro rfl
              exact hk (List.mem_map.2 ⟨e, he, rfl⟩)
            rw [List.lookup_append, hnew e he, List.lookup_cons, hne]
            rfl
          have hrest := ih { seen with known := seen.known ++ [(k, t)] } hnodup hnew' haccepts
          rw [lookAt_cons_of_some hkey _ hfield hknew hcheck, hrest]
          simp [hknows]
      | none =>
          have hknows : l.knows k = false := by rw [knows, hfield]; rfl
          have hother : l.lookAtOther t = .ok () := by simpa only [Accepts, hfield] using haccept
          have hrest := ih { seen with others := seen.others ++ [(k, t)] } hnodup hnew haccepts
          rw [lookAt_cons_of_none hkey _ hfield hother, hrest]
          simp [hknows]

end

end Layout

theorem Doc.areUsed_of_forall {u : Uses} {entries : List (String × Doc)}
    (h : ∀ e ∈ entries, IsUsed (u.ofKey (some e.1)) e.2) : AreUsed u entries := by
  induction entries with
  | nil => trivial
  | cons e rest ih =>
      exact ⟨h e List.mem_cons_self, ih fun e he => h e (List.mem_cons_of_mem _ he)⟩

namespace Layout

variable [Scalar σ] {α : Type} {l : Layout σ α} {fields : List (String × Option Doc)} {a : α}

/-- The entries of a block are looked at, each by its field. -/
theorem Reads.lookAt (hsp : sp.Lawful) (h : l.Reads sp fields a)
    (hnames : fields.map Prod.fst = l.fields.map Field.name)
    (hnodup : (fields.map Prod.fst).Nodup) :
    l.lookAt ⟨[], []⟩ (Doc.entryTrees sp (present fields)) =
      .ok ⟨(present fields).map fun e => (e.1, e.2.tree sp), []⟩ := by
  have hknows : ∀ e ∈ (present fields).map fun e => (e.1, e.2.tree sp), l.knows e.1 = true := by
    refine List.forall_mem_map.2 fun e he => knows_iff.2 ?_
    rw [← hnames]
    exact List.mem_map.2 ⟨_, mem_present.1 he, rfl⟩
  have haccepts : ∀ e ∈ (present fields).map fun e => (e.1, e.2.tree sp), l.Accepts e.1 e.2 := by
    refine List.forall_mem_map.2 fun e he => ?_
    have hmem : e.1 ∈ l.fields.map Field.name :=
      hnames ▸ List.mem_map.2 ⟨_, mem_present.1 he, rfl⟩
    obtain ⟨f, hf, hname, hfield⟩ := field?_of_mem hmem
    rw [Accepts, hfield]
    exact h.check f hf e.2 (by rw [hname]; exact lookup_of_mem hnodup (mem_present.1 he))
  have hkeys : (((present fields).map fun e => (e.1, e.2.tree sp)).map Prod.fst).Nodup := by
    rw [List.map_map]
    exact (map_fst_present_sublist fields).nodup hnodup
  rw [Doc.entryTrees_eq_map, lookAt_eq_ok hsp.text? _ _ hkeys (fun _ _ => rfl) haccepts,
    List.filter_eq_self.2 hknows, List.filter_eq_nil_iff.2 fun e he => by simp [hknows e he]]
  rfl

/-- **A reader of records reads a record.** -/
theorem Reads.record (hsp : sp.Lawful) (name : String) (h : l.Reads sp fields a)
    (hnames : fields.map Prod.fst = l.fields.map Field.name)
    (hnodup : (fields.map Prod.fst).Nodup) :
    (Reader.record name l).Reads sp (Doc.record fields) a where
  used := by
    refine ⟨rfl, Doc.areUsed_of_forall fun e he => ?_⟩
    obtain ⟨k, d⟩ := e
    have hmem := mem_present.1 he
    obtain ⟨f, hf, rfl, huses⟩ :=
      ofKey_uses_of_mem (l := l) (k := k) (hnames ▸ List.mem_map.2 ⟨_, hmem, rfl⟩)
    show Doc.IsUsed (l.uses.ofKey (some f.name)) d
    rw [huses]
    exact h.used f hf d (lookup_of_mem hnodup hmem)
  read := by
    show ((l.lookAt ⟨[], []⟩ (Doc.entryTrees sp (present fields))).bind fun seen =>
      (Tree.ended true).bind fun _ => l.build seen) = _
    rw [h.lookAt hsp hnames hnodup]
    refine h.build _ fun f _ => ?_
    rw [lookup_map_snd, lookup_present f.name hnodup]

end Layout

end

end CaptureConfig

/-
**Objects in any order.**

An object is written for a record if it has an entry for each field that is there, whatever the
order of its entries.  What may be missing is left out or written as null, and a switch may be
written as a text.  A reader of records makes the same value of all of these, in every notation;
entries without a field reach the record in the order of the text.

Main definitions:

* `Json.IsObject` — **an object with an entry for each field that is there**, in any order;
* `Json.Optionally`, `Json.IsFlag` — the ways to write what may be missing, and a switch;
* `Reader.Takes` — a reader takes every way to write a value for that value;
* `Reader.Makes`, `Layout.Makes` — what is made of an entry that may be missing, and of fields.

Main results:

* `Reader.Takes.optional`, `Reader.makes_flag` — what may be missing;
* `Layout.Makes.record`, `Layout.Makes.record_of_others`, `Layout.Makes.record_of_names` — **a reader
  of records reads an object in any order**, with and without other entries;
* `Json.IsObject.isSound`, `Json.IsObject.isUsed` — what is written is nested one deeper than its
  parts, and is used if they are.
-/

import CaptureConfig.Proofs.Document.Record
import CaptureConfig.Proofs.Json.Value

set_option relaxedAutoImplicit false
set_option autoImplicit false

namespace CaptureConfig

section

variable {α β : Type} [BEq α] [LawfulBEq α]

/-- Under distinct names, the order of entries does not matter to what is found. -/
theorem lookup_eq_of_perm {entries entries' : List (α × β)} (h : entries.Perm entries')
    (hnodup : (entries.map Prod.fst).Nodup) (k : α) : entries.lookup k = entries'.lookup k := by
  have hnodup' : (entries'.map Prod.fst).Nodup := (h.map Prod.fst).nodup_iff.1 hnodup
  by_cases hk : k ∈ entries.map Prod.fst
  · obtain ⟨e, he, rfl⟩ := List.mem_map.1 hk
    rw [lookup_of_mem hnodup he, lookup_of_mem hnodup' (h.mem_iff.1 he)]
  · rw [lookup_eq_none_of_not_mem hk,
      lookup_eq_none_of_not_mem fun hk' => hk ((h.map Prod.fst).mem_iff.2 hk')]

theorem lookup_filter_of_pos {p : α → Bool} {k : α} (h : p k = true) (entries : List (α × β)) :
    (entries.filter fun e => p e.1).lookup k = entries.lookup k := by
  induction entries with
  | nil => rfl
  | cons e rest ih =>
      rw [List.filter_cons, List.lookup_cons]
      cases hke : k == e.1 with
      | true =>
          obtain rfl := beq_iff_eq.1 hke
          rw [if_pos h, List.lookup_cons, hke]
      | false =>
          cases hp : p e.1 with
          | true => rw [if_pos rfl, List.lookup_cons, hke, ih]
          | false => rw [if_neg (by decide), ih]

end

namespace Json

/-! ### Ways to write -/

/-- **An object with an entry for each field that is there**, in any order. -/
def IsObject (fields : List (String × Option Json)) (v : Json) : Prop :=
  ∃ entries, v = .object entries ∧ entries.Perm (present fields)

/-- **The ways to write what may be missing.** -/
inductive Optionally {α : Type} (W : α → Json → Prop) : Option α → Option Json → Prop
  /-- What is missing may be left out. -/
  | omitted : Optionally W none none
  /-- It may be written as null. -/
  | null : Optionally W none (some .null)
  /-- What is there is written. -/
  | written {a : α} {v : Json} (h : W a v) : Optionally W (some a) (some v)

/-- A text. -/
def IsText (s : String) (v : Json) : Prop := v = .text s

/-- A number that is not negative. -/
def IsNumber (n : Nat) (v : Json) : Prop := v = .number n

/-- A list of texts. -/
def IsTexts (texts : List String) (v : Json) : Prop := v = .array (texts.map .text)

/-- **The ways to write a switch.** -/
inductive IsFlag (b : Bool) : Json → Prop
  | bool : IsFlag b (.bool b)
  /-- Case and blanks around do not matter in a text. -/
  | text {s : String} (h : Text.lowerAscii (Text.trim s) = if b then "true" else "false") :
      IsFlag b (.text s)

/-! ### How deep it is nested -/

/-- The numbers of a value fit 64 bits, and it is not nested deeper than a bound. -/
structure IsSound (bound : Nat) (v : Json) : Prop where
  fits : v.Fits
  depth_le : v.depth ≤ bound

theorem entriesFit_iff {entries : List (String × Json)} :
    EntriesFit entries ↔ ∀ e ∈ entries, e.2.Fits := by
  induction entries with
  | nil => simp [EntriesFit]
  | cons e rest ih => rw [EntriesFit, ih, List.forall_mem_cons]

theorem entriesDepth_le_iff {entries : List (String × Json)} {bound : Nat} :
    entriesDepth entries ≤ bound ↔ ∀ e ∈ entries, e.2.depth ≤ bound := by
  induction entries with
  | nil => simp [entriesDepth]
  | cons e rest ih => rw [entriesDepth, Nat.max_le, ih, List.forall_mem_cons]

section

variable {bound : Nat} {v : Json}

theorem isSound_null : IsSound bound .null := ⟨trivial, Nat.zero_le bound⟩

theorem isSound_text (s : String) : IsSound bound (.text s) := ⟨trivial, Nat.zero_le bound⟩

theorem isSound_number {n : Nat} (h : n < Nat.pow 2 64) : IsSound bound (.number n) :=
  ⟨fitsWord_natCast h, Nat.zero_le bound⟩

theorem isSound_u64 (n : UInt64) : IsSound bound (.number n.toNat) := isSound_number n.toNat_lt

theorem isSound_u32 (n : UInt32) : IsSound bound (.number n.toNat) :=
  isSound_number (Nat.lt_trans n.toNat_lt (by decide))

theorem isSound_u16 (n : UInt16) : IsSound bound (.number n.toNat) :=
  isSound_number (Nat.lt_trans n.toNat_lt (by decide))

theorem IsText.isSound {s : String} (h : IsText s v) : IsSound bound v := h ▸ isSound_text s

theorem itemsFit_texts (texts : List String) :
    ItemsFit (texts.map .text) ∧ itemsDepth (texts.map .text) = 0 := by
  induction texts with
  | nil => exact ⟨trivial, rfl⟩
  | cons s rest ih => exact ⟨⟨trivial, ih.1⟩, (Nat.zero_max _).trans ih.2⟩

theorem IsTexts.isSound (bound : Nat) {texts : List String} (h : IsTexts texts v) :
    IsSound (bound + 1) v := by
  obtain ⟨hfits, hdepth⟩ := itemsFit_texts texts
  rw [IsTexts] at h
  rw [h]
  refine ⟨hfits, ?_⟩
  rw [depth, hdepth]
  exact Nat.succ_le_succ (Nat.zero_le bound)

theorem IsFlag.isSound {b : Bool} (h : IsFlag b v) : IsSound bound v := by
  cases h with
  | bool => exact ⟨trivial, Nat.zero_le bound⟩
  | text => exact isSound_text _

theorem Optionally.isSound {α : Type} {W : α → Json → Prop} {a? : Option α} {v? : Option Json}
    (h : Optionally W a? v?) (hw : ∀ {a v}, W a v → IsSound bound v) :
    ∀ v ∈ v?, IsSound bound v := by
  rintro v ⟨⟩
  cases h with
  | null => exact isSound_null
  | written h => exact hw h

/-- What is there of fields is sound. -/
def AreSound (bound : Nat) (fields : List (String × Option Json)) : Prop :=
  ∀ f ∈ fields, ∀ v ∈ f.2, IsSound bound v

section

variable {k : String} {fields : List (String × Option Json)}

theorem areSound_nil : AreSound bound [] := fun _ h => absurd h List.not_mem_nil

theorem AreSound.cons {v? : Option Json} (h : AreSound bound fields)
    (hv : ∀ v ∈ v?, IsSound bound v) : AreSound bound ((k, v?) :: fields) :=
  List.forall_mem_cons.2 ⟨hv, h⟩

theorem AreSound.cons_some (h : AreSound bound fields) (hv : IsSound bound v) :
    AreSound bound ((k, some v) :: fields) := h.cons fun _ hw => Option.some.inj hw ▸ hv

theorem AreSound.append {fields' : List (String × Option Json)} (h : AreSound bound fields)
    (h' : AreSound bound fields') : AreSound bound (fields ++ fields') :=
  List.forall_mem_append.2 ⟨h, h'⟩

/-- **What is written is nested one deeper than its parts.** -/
theorem IsObject.isSound (hv : IsObject fields v) (h : AreSound bound fields) :
    IsSound (bound + 1) v := by
  obtain ⟨entries, rfl, hperm⟩ := hv
  have hentries : ∀ e ∈ entries, IsSound bound e.2 :=
    fun e he => h _ (mem_present.1 (hperm.mem_iff.1 he)) e.2 rfl
  exact ⟨entriesFit_iff.2 fun e he => (hentries e he).fits,
    Nat.succ_le_succ (entriesDepth_le_iff.2 fun e he => (hentries e he).depth_le)⟩

theorem IsObject.ne_null (hv : IsObject fields v) : v ≠ .null := by
  obtain ⟨entries, rfl, -⟩ := hv
  nofun

end

end

/-! ### What is used of it -/

section

variable {u : Uses} {k : String} {v : Json} {fields : List (String × Option Json)}

theorem entriesAreUsed_iff {entries : List (String × Json)} :
    EntriesAreUsed u entries ↔ ∀ e ∈ entries, e.2.IsUsed (u.ofKey (some e.1)) := by
  induction entries with
  | nil => simp [EntriesAreUsed]
  | cons e rest ih => rw [EntriesAreUsed, ih, List.forall_mem_cons]

/-- What may be missing is used if what is there is. -/
theorem Optionally.isUsed {α : Type} {W : α → Json → Prop} {a? : Option α} {v? : Option Json}
    (h : Optionally W a? v?) (hu : u.isNothing = false) (hw : ∀ {a v}, W a v → v.IsUsed u) :
    ∀ v ∈ v?, v.IsUsed u := by
  rintro v ⟨⟩
  cases h with
  | null => exact hu
  | written h => exact hw h

/-- What is there of fields is used. -/
def AreUsed (u : Uses) (fields : List (String × Option Json)) : Prop :=
  ∀ f ∈ fields, ∀ v ∈ f.2, v.IsUsed (u.ofKey (some f.1))

theorem areUsed_nil : AreUsed u [] := fun _ h => absurd h List.not_mem_nil

theorem AreUsed.cons {v? : Option Json} (h : AreUsed u fields)
    (hv : ∀ v ∈ v?, v.IsUsed (u.ofKey (some k))) : AreUsed u ((k, v?) :: fields) :=
  List.forall_mem_cons.2 ⟨hv, h⟩

/-- A field of which everything is used. -/
theorem AreUsed.cons_whole {v? : Option Json} (h : AreUsed u fields)
    (hk : u.ofKey (some k) = .everything) : AreUsed u ((k, v?) :: fields) :=
  h.cons fun v _ => hk ▸ isUsed_everything v

theorem AreUsed.append {fields' : List (String × Option Json)} (h : AreUsed u fields)
    (h' : AreUsed u fields') : AreUsed u (fields ++ fields') := List.forall_mem_append.2 ⟨h, h'⟩

/-- **What is written is used if its parts are.** -/
theorem IsObject.isUsed (hv : IsObject fields v) (hu : u.isNothing = false)
    (h : AreUsed u fields) : v.IsUsed u := by
  obtain ⟨entries, rfl, hperm⟩ := hv
  exact ⟨hu, entriesAreUsed_iff.2 fun e he =>
    h _ (mem_present.1 (hperm.mem_iff.1 he)) e.2 rfl⟩

end

end Json

open Json

variable {σ : Type} {sp : Spelling σ}

/-! ### Readers of single things -/

section

variable {α : Type}

/-- **A reader takes every way to write a value for that value**, and none of them is null. -/
structure Reader.Takes (sp : Spelling σ) (r : Reader σ α) (W : α → Json → Prop) : Prop where
  ne_null : ∀ {a v}, W a v → v ≠ .null
  read : ∀ {a v}, W a v → r.read (treeIn sp v) = .ok a

/-- **What a reader makes of an entry that may be missing.** -/
def Reader.Makes (sp : Spelling σ) (r : Reader σ α) (v? : Option Json) (a : α) : Prop :=
  match v? with
  | none => r.absent = some a
  | some v => r.read (treeIn sp v) = .ok a

theorem Reader.Takes.makes {r : Reader σ α} {W : α → Json → Prop} (h : r.Takes sp W) {a : α}
    {v : Json} (hv : W a v) : r.Makes sp (some v) a := h.read hv

variable [Scalar σ]

theorem Json.isNull_treeIn (hsp : sp.Lawful) {v : Json} (h : v ≠ .null) :
    Reader.isNull (treeIn sp v) = .ok false := by
  cases v with
  | null => exact absurd rfl h
  | bool b => exact congrArg Tree.complaining (hsp.isNull_bool b)
  | number i => exact congrArg Tree.complaining (hsp.isNull_number i)
  | text s => exact congrArg Tree.complaining (hsp.isNull_text s)
  | array items => rfl
  | object entries => rfl

theorem Json.isNull_treeIn_null (hsp : sp.Lawful) :
    Reader.isNull (treeIn sp .null) = .ok true := congrArg Tree.complaining hsp.isNull_null

namespace Reader

variable {r : Reader σ α} {W : α → Json → Prop}

/-- What may be missing is taken for missing whether it is left out or null. -/
theorem Takes.optional (hsp : sp.Lawful) (h : r.Takes sp W) {a? : Option α} {v? : Option Json}
    (hv : Optionally W a? v?) : (Reader.optional r).Makes sp v? a? := by
  cases hv with
  | omitted => rfl
  | null =>
      show (isNull (treeIn sp .null)).bind _ = _
      rw [isNull_treeIn_null hsp]
      rfl
  | @written a v hv =>
      show (isNull (treeIn sp v)).bind _ = _
      rw [isNull_treeIn hsp (h.ne_null hv)]
      exact congrArg (Except.map some) (h.read hv)

theorem truthOfValue_of_isFlag {b : Bool} {v : Json} (h : IsFlag b v) :
    truthOfValue v.toValue = .ok b := by
  cases h with
  | bool => rfl
  | @text s h =>
      show truthOfText s = _
      rw [truthOfText, h]
      cases b <;> rfl

/-- A switch may be missing, and may be written as a text. -/
theorem makes_flag (hsp : sp.Lawful) {b? : Option Bool} {v? : Option Json}
    (h : Optionally IsFlag b? v?) : (flag : Reader σ (Option Bool)).Makes sp v? b? := by
  cases h with
  | omitted => rfl
  | null =>
      show (isNull (treeIn sp .null)).bind _ = _
      rw [isNull_treeIn_null hsp]
      rfl
  | @written b v h =>
      have hne : v ≠ .null := by cases h <;> nofun
      have hfits : v.Fits := by cases h <;> trivial
      show (isNull (treeIn sp v)).bind _ = _
      rw [isNull_treeIn hsp hne]
      show (treeIn sp v).keep.bind _ = _
      rw [keep_treeIn hsp v hfits]
      exact congrArg (Except.map some) (truthOfValue_of_isFlag h)

theorem takes_text (hsp : sp.Lawful) : (text : Reader σ String).Takes sp IsText where
  ne_null h := by rw [h]; nofun
  read h := by rw [h]; exact (reads_textAs hsp.toDoc _ _).read

theorem takes_u16 (hsp : sp.Lawful) :
    (u16 : Reader σ UInt16).Takes sp fun n => IsNumber n.toNat where
  ne_null h := by rw [h]; nofun
  read h := by rw [h]; exact (reads_u16 hsp.toDoc _).read

theorem takes_u32 (hsp : sp.Lawful) :
    (u32 : Reader σ UInt32).Takes sp fun n => IsNumber n.toNat where
  ne_null h := by rw [h]; nofun
  read h := by rw [h]; exact (reads_u32 hsp.toDoc _).read

theorem takes_u64 (hsp : sp.Lawful) :
    (u64 : Reader σ UInt64).Takes sp fun n => IsNumber n.toNat where
  ne_null h := by rw [h]; nofun
  read h := by rw [h]; exact (reads_u64 hsp.toDoc _).read

theorem items_text (hsp : sp.Lawful) (texts : List String) :
    items (text : Reader σ String) (itemTreesIn sp (texts.map .text)) = .ok texts := by
  induction texts with
  | nil => rfl
  | cons s rest ih =>
      rw [List.map_cons, itemTreesIn, items, (takes_text hsp).read rfl, ih]
      rfl

theorem takes_texts (hsp : sp.Lawful) :
    (list text : Reader σ (List String)).Takes sp IsTexts where
  ne_null h := by rw [h]; nofun
  read {texts v} h := by
    rw [h]
    show (items text (itemTreesIn sp (texts.map .text))).bind _ = _
    rw [items_text hsp]
    rfl

end Reader

end

/-! ### Fields -/

/-- **What the fields of a record make of entries**: each accepts what stands under its name, and
from what stands under their names, and from the entries without a field, the value is made. -/
structure Layout.Makes {α : Type} (sp : Spelling σ) (l : Layout σ α)
    (fields : List (String × Option Json)) (others : List (String × Json)) (a : α) : Prop where
  check : ∀ f ∈ l.fields, ∀ v, fields.lookup f.name = some (some v) →
    f.check (treeIn sp v) = .ok ()
  build : ∀ known : List (String × Tree σ), (∀ f ∈ l.fields,
    known.lookup f.name = (fields.lookup f.name).join.map (treeIn sp)) →
    l.build ⟨known, others.map fun e => (e.1, treeIn sp e.2)⟩ = .ok a

namespace Layout

variable {α β : Type} {fields : List (String × Option Json)} {others : List (String × Json)}
  {name : String}

/-- A single field, whether or not it may be left out of a sequence. -/
theorem makes_single {r : Reader σ α} {v? : Option Json} {a : α} (hasDefault : Bool)
    (hlookup : fields.lookup name = some v?) (h : r.Makes sp v? a) :
    Layout.Makes sp ⟨[⟨name, r.uses, checkBy r, hasDefault⟩], false, buildField name r⟩ fields
      others a where
  check f hf v hv := by
    obtain rfl := List.mem_singleton.1 hf
    obtain rfl := Option.some.inj (hlookup.symm.trans hv)
    exact congrArg (Except.map fun _ => ()) (show r.read (treeIn sp v) = .ok a from h)
  build known hknown := by
    have hknown := hknown _ (List.mem_singleton.2 rfl)
    simp only [hlookup] at hknown
    show buildField name r _ = _
    rw [buildField, hknown]
    cases v? with
    | none => exact congrArg (fun a? => Option.elim a? _ Except.ok) (show r.absent = some a from h)
    | some v => exact h

/-- A field. -/
theorem Makes.field {r : Reader σ α} {v? : Option Json} {a : α}
    (hlookup : fields.lookup name = some v?) (h : r.Makes sp v? a) :
    (field name r).Makes sp fields others a := makes_single false hlookup h

/-- A field that takes a default if it is missing. -/
theorem Makes.fieldOr {r : Reader σ α} {v? : Option Json} {a : α} (default : α)
    (hlookup : fields.lookup name = some v?)
    (h : Reader.Makes sp { r with absent := some default } v? a) :
    (fieldOr default name r).Makes sp fields others a := makes_single true hlookup h

theorem Makes.pure (a : α) : (Pure.pure a : Layout σ α).Makes sp fields others a where
  check _ hf := absurd hf List.not_mem_nil
  build _ _ := rfl

/-- One more part of a record. -/
theorem Makes.seq {l : Layout σ (α → β)} {l' : Layout σ α} {g : α → β} {a : α}
    (h : l.Makes sp fields others g) (h' : l'.Makes sp fields others a) :
    (l <*> l').Makes sp fields others (g a) where
  check f hf := by
    obtain hf | hf := List.mem_append.1 hf
    · exact h.check f hf
    · exact h'.check f hf
  build known hknown := by
    have hg := h.build known fun f hf => hknown f (List.mem_append_left _ hf)
    have ha := h'.build known fun f hf => hknown f (List.mem_append_right _ hf)
    show (l.build _).bind (fun g => (l'.build _).bind fun a => Pure.pure (g a)) = _
    rw [hg, Except.bind, ha]
    rfl

theorem Makes.of_eq {l : Layout σ α} {a b : α} (h : l.Makes sp fields others a) (hab : a = b) :
    l.Makes sp fields others b := hab ▸ h

theorem Makes.map {l : Layout σ α} {a : α} (g : α → β) (h : l.Makes sp fields others a) :
    (g <$> l).Makes sp fields others (g a) := (Makes.pure g).seq h

variable [Scalar σ]

theorem mapM_keepOther (hsp : sp.Lawful) (hothers : ∀ e ∈ others, e.2.Fits ∧ e.2.IsDistinct) :
    (others.map fun e => (e.1, treeIn sp e.2)).mapM keepOther =
      .ok (others.map fun e => (e.1, e.2.toValue)) := by
  induction others with
  | nil => rfl
  | cons e rest ih =>
      obtain ⟨⟨hfits, hdistinct⟩, hrest⟩ := List.forall_mem_cons.1 hothers
      have hkeep : keepOther (e.1, treeIn sp e.2) = .ok (e.1, e.2.toValue) := by
        rw [keepOther, keep_treeIn hsp e.2 hfits]
        simp only [bind, Except.bind, distinct_toValue hdistinct]
        rfl
      rw [List.map_cons, List.mapM_cons, hkeep, ih hrest]
      rfl

/-- The entries without a field are kept in their order. -/
theorem makes_others (hsp : sp.Lawful) (hothers : ∀ e ∈ others, e.2.Fits ∧ e.2.IsDistinct) :
    (Layout.others : Layout σ _).Makes sp fields others
      (others.map fun e => (e.1, e.2.toValue)) where
  check _ hf := absurd hf List.not_mem_nil
  build _ _ := mapM_keepOther hsp hothers

/-! ### Records -/

variable {l : Layout σ α} {v : Json} {a : α}

/-- Each entry is accepted where it stands, by its field or as one of the others. -/
theorem Makes.accepts (h : l.Makes sp fields others a) (hnodup : (fields.map Prod.fst).Nodup)
    (hothers : ∀ e ∈ present fields, l.knows e.1 = false →
      l.lookAtOther (treeIn sp e.2) = .ok ()) {e : String × Json} (he : e ∈ present fields) :
    l.Accepts e.1 (treeIn sp e.2) := by
  rw [Accepts]
  cases hfield : l.field? e.1 with
  | none => exact hothers e he (by rw [knows, hfield]; rfl)
  | some f =>
      have hname := List.find?_some hfield
      have hlookup : fields.lookup f.name = some (some e.2) := by
        rw [beq_iff_eq.1 hname]
        exact lookup_of_mem hnodup (mem_present.1 he)
      exact h.check f (List.mem_of_find?_eq_some hfield) e.2 hlookup

/-- The entries of an object are looked at: those of the fields, and the others. -/
theorem lookAt_entryTreesIn (hsp : sp.Lawful) {entries : List (String × Json)}
    (hnodup : (entries.map Prod.fst).Nodup)
    (haccepts : ∀ e ∈ entries, l.Accepts e.1 (treeIn sp e.2)) :
    l.lookAt ⟨[], []⟩ (entryTreesIn sp entries) =
      .ok ⟨(entries.filter fun e => l.knows e.1).map fun e => (e.1, treeIn sp e.2),
        (entries.filter fun e => ! l.knows e.1).map fun e => (e.1, treeIn sp e.2)⟩ := by
  have hkeys : ((entries.map fun e => (e.1, treeIn sp e.2)).map Prod.fst).Nodup := by
    rw [List.map_map]
    exact hnodup
  rw [entryTreesIn_eq_map, lookAt_eq_ok hsp.text? _ _ hkeys (fun _ _ => rfl)
    (List.forall_mem_map.2 haccepts), List.filter_map, List.filter_map]
  rfl

/-- **A reader of records reads an object in any order.** -/
theorem Makes.record (hsp : sp.Lawful) (name : String) (hv : IsObject fields v)
    (hnodup : (fields.map Prod.fst).Nodup)
    (hothers : ∀ e ∈ present fields, l.knows e.1 = false →
      l.lookAtOther (treeIn sp e.2) = .ok ())
    (h : ∀ others, others.Perm ((present fields).filter fun e => ! l.knows e.1) →
      l.Makes sp fields others a) : (Reader.record name l).read (treeIn sp v) = .ok a := by
  obtain ⟨entries, rfl, hperm⟩ := hv
  have hmakes := h _ (hperm.filter _)
  have hentries : (entries.map Prod.fst).Nodup :=
    (hperm.map Prod.fst).nodup_iff.2 ((map_fst_present_sublist fields).nodup hnodup)
  have hlook := lookAt_entryTreesIn hsp hentries fun e he =>
    hmakes.accepts hnodup hothers (hperm.mem_iff.1 he)
  show ((l.lookAt ⟨[], []⟩ (entryTreesIn sp entries)).bind fun seen =>
    (Tree.ended true).bind fun _ => l.build seen) = _
  rw [hlook]
  -- What the fields find under their names does not depend on the order of the entries.
  refine hmakes.build _ fun f hf => ?_
  have hknows : l.knows f.name = true := knows_iff.2 (List.mem_map.2 ⟨f, hf, rfl⟩)
  rw [lookup_map_snd, lookup_filter_of_pos hknows, lookup_eq_of_perm hperm hentries,
    lookup_present f.name hnodup]

/-- **A reader of records reads an object with other entries among its fields.** -/
theorem Makes.record_of_others (hsp : sp.Lawful) (name : String)
    (hv : IsObject (fields ++ others.map fun e => (e.1, some e.2)) v)
    (hnames : fields.map Prod.fst = l.fields.map Field.name)
    (hnodup : (fields.map Prod.fst ++ others.map Prod.fst).Nodup)
    (haccepts : ∀ e ∈ others, l.lookAtOther (treeIn sp e.2) = .ok ())
    (h : ∀ others', others'.Perm others →
      l.Makes sp (fields ++ others.map fun e => (e.1, some e.2)) others' a) :
    (Reader.record name l).read (treeIn sp v) = .ok a := by
  have hknows : ∀ e ∈ present fields, l.knows e.1 = true := by
    intro e he
    rw [knows_iff, ← hnames]
    exact List.mem_map.2 ⟨_, mem_present.1 he, rfl⟩
  have hnew : ∀ e ∈ others, l.knows e.1 = false := by
    intro e he
    rw [Bool.eq_false_iff, Ne, knows_iff, ← hnames]
    exact fun hmem => (List.nodup_append.1 hnodup).2.2 e.1 hmem e.1
      (List.mem_map.2 ⟨e, he, rfl⟩) rfl
  refine Makes.record hsp name hv ?_ ?_ ?_
  · rwa [List.map_append, List.map_map]
  · intro e he hnot
    rw [present_append_map_some] at he
    obtain he | he := List.mem_append.1 he
    · rw [hknows e he] at hnot
      cases hnot
    · exact haccepts e he
  · intro others' hothers'
    rw [present_append_map_some, List.filter_append,
      List.filter_eq_nil_iff.2 fun e he => by simp [hknows e he],
      List.filter_eq_self.2 fun e he => by simp [hnew e he], List.nil_append] at hothers'
    exact h others' hothers'

/-- A reader of records reads an object with its fields and no other entries. -/
theorem Makes.record_of_names (hsp : sp.Lawful) (name : String) (hv : IsObject fields v)
    (hnames : fields.map Prod.fst = l.fields.map Field.name)
    (hnodup : (fields.map Prod.fst).Nodup) (h : l.Makes sp fields [] a) :
    (Reader.record name l).read (treeIn sp v) = .ok a := by
  have hfields : fields ++ ([] : List (String × Json)).map (fun e => (e.1, some e.2)) = fields :=
    List.append_nil fields
  have hv' := hfields.symm ▸ hv
  refine Makes.record_of_others hsp name hv' hnames ?_ ?_ ?_
  · rwa [List.map_nil, List.append_nil]
  · exact fun _ he => absurd he List.not_mem_nil
  · intro others' hothers'
    rw [List.perm_nil.1 hothers', hfields]
    exact h

end Layout

end CaptureConfig

/-
**The records of a property file.**

A property file holds seven more records, one in another.  Each of them refuses a key of its own that
comes twice, and what one of its records refuses it refuses too; so a repeated key anywhere in them is
refused with the whole property file, and likewise a part that cannot be read at all.

Main definitions:

* `Block` — the records of a property file, their keys and their readers;
* `Block.Holds` — a record holds another one under a key;
* `Block.Spoilt` — a tree with a repeated key, or a part that cannot be read, in one of the records.

Main results:

* `Block.refuses_of_spoilt` — **a spoilt tree is refused**.
-/

import CaptureConfig.Proofs.Document.Refusal
import CaptureConfig.Proofs.Property.Place

set_option relaxedAutoImplicit false
set_option autoImplicit false

namespace CaptureConfig

open Properties

/-- **The records of a property file.** -/
inductive Block where
  | file
  | instanceData
  | properties
  | buffer
  | listen
  | tls
  | bosh
  | mtls
  deriving DecidableEq, Repr

namespace Block

/-- The keys of a record. -/
def names : Block → List String
  | file => PropertyFile.names
  | instanceData => Instance.names
  | properties => Properties.names
  | buffer => Buffer.names
  | listen => Listen.names
  | tls => Tls.names
  | bosh => Bosh.names
  | mtls => Mtls.names

/-- **A record holds another one under a key.** -/
inductive Holds : Block → String → Block → Prop
  | properties : Holds file "pcap-api" properties
  | instanceData : Holds file "spec" instanceData
  | buffer : Holds properties "buffer" buffer
  | listen : Holds properties "listen" listen
  | bosh : Holds properties "bosh" bosh
  | tls : Holds listen "tls" tls
  | mtls : Holds bosh "mtls" mtls

/-- What is made of a record. -/
def Content : Block → Type
  | file => PropertyFile
  | instanceData => Instance
  | properties => Properties
  | buffer => Buffer
  | listen => Properties.Listen
  | tls => Properties.Tls
  | bosh => Properties.Bosh
  | mtls => Properties.Mtls

section

variable {σ : Type} [Scalar σ]

/-- The reader of a record. -/
def reader : (b : Block) → Reader σ b.Content
  | file => Reading.file
  | instanceData => Reading.instanceData
  | properties => Reading.properties
  | buffer => Reading.buffer
  | listen => Reading.listen
  | tls => Reading.tls
  | bosh => Reading.bosh
  | mtls => Reading.mtls

/-- **How a record is read**: each of its keys is the name of a field in the same position, and a field
that holds a record refuses what that record refuses. -/
theorem exists_layout (b : Block) : ∃ (record : String) (l : Layout σ b.Content),
    b.reader = Reader.record record l ∧ l.fields.map Field.name = b.names ∧
      ∀ name c, b.Holds name c → ∃ f, l.field? name = some f ∧
        ∀ t, Reader.isNull t = .ok false → (c.reader (σ := σ)).Refuses t → f.check t ≠ .ok () := by
  cases b with
  | file =>
      refine ⟨_, _, rfl, rfl, ?_⟩
      rintro _ _ (_ | _)
      · exact ⟨_, rfl, fun t _ h => h.check_ne⟩
      · exact ⟨_, rfl, fun t _ h => h.check_ne⟩
  | properties =>
      refine ⟨_, _, rfl, rfl, ?_⟩
      rintro _ _ (_ | _)
      · exact ⟨_, rfl, fun t hnull h => (h.optional hnull).check_ne⟩
      · exact ⟨_, rfl, fun t hnull h => (h.optional hnull).check_ne⟩
      · exact ⟨_, rfl, fun t hnull h => (h.optional hnull).check_ne⟩
  | listen =>
      refine ⟨_, _, rfl, rfl, ?_⟩
      rintro _ _ (_ | _)
      exact ⟨_, rfl, fun t hnull h => (h.optional hnull).check_ne⟩
  | bosh =>
      refine ⟨_, _, rfl, rfl, ?_⟩
      rintro _ _ (_ | _)
      exact ⟨_, rfl, fun t hnull h => (h.optional hnull).check_ne⟩
  | instanceData => exact ⟨_, _, rfl, rfl, fun _ _ h => nomatch h⟩
  | buffer => exact ⟨_, _, rfl, rfl, fun _ _ h => nomatch h⟩
  | tls => exact ⟨_, _, rfl, rfl, fun _ _ h => nomatch h⟩
  | mtls => exact ⟨_, _, rfl, rfl, fun _ _ h => nomatch h⟩

/-- **A tree of a record with a repeated key**, in it or in a record that it holds under a key or in the
position of that key, or with a part in the place of such a record that cannot be read. -/
inductive Spoilt : Block → Tree σ → Prop
  | repeated {b : Block} {name : String} {mark : Mark} {before between behind : List (Tree σ × Tree σ)}
      {key key' t t' : Tree σ} {closed : Bool} (known : name ∈ b.names)
      (first : (Reader.textAs "field identifier").read key = .ok name)
      (second : (Reader.textAs "field identifier").read key' = .ok name) :
      Spoilt b (.map mark (before ++ (key, t) :: (between ++ (key', t') :: behind)) closed)
  | entry {b c : Block} {name : String} {mark : Mark} {before behind : List (Tree σ × Tree σ)}
      {key t : Tree σ} {closed : Bool} (holds : b.Holds name c)
      (identifier : (Reader.textAs "field identifier").read key = .ok name) (inner : Spoilt c t) :
      Spoilt b (.map mark (before ++ (key, t) :: behind) closed)
  | item {b c : Block} {name : String} {mark : Mark} {items : List (Tree σ)} {i : Nat} {t : Tree σ}
      {closed : Bool} (holds : b.Holds name c) (position : b.names[i]? = some name)
      (at_i : items[i]? = some t) (inner : Spoilt c t) : Spoilt b (.seq mark items closed)
  | unreadable {b : Block} : Spoilt b .unreadable

/-- A spoilt tree is no scalar. -/
theorem Spoilt.isNull {b : Block} {t : Tree σ} (h : b.Spoilt t) : Reader.isNull t = .ok false := by
  cases h <;> rfl

omit [Scalar σ] in
/-- Each name is the name of a field. -/
theorem exists_field? {α : Type} {l : Layout σ α} {name : String}
    (h : name ∈ l.fields.map Field.name) : ∃ f, l.field? name = some f := by
  obtain ⟨f, hf, rfl⟩ := List.mem_map.1 h
  cases hfield : l.field? f.name with
  | some g => exact ⟨g, rfl⟩
  | none => exact absurd (beq_self_eq_true f.name) (List.find?_eq_none.1 hfield f hf)

/-- The names of a record are distinct. -/
theorem nodup_names (b : Block) : b.names.Nodup := by
  cases b <;> decide

/-- **A spoilt tree is refused.** -/
theorem refuses_of_spoilt {b : Block} {t : Tree σ} (h : b.Spoilt t) : b.reader.Refuses t := by
  induction h with
  | @repeated b name mark before between behind key key' t t' closed known first second =>
      obtain ⟨record, l, hreader, hnames, -⟩ := b.exists_layout (σ := σ)
      obtain ⟨f, hfield⟩ := exists_field? (hnames ▸ known)
      rw [hreader]
      exact Reader.refuses_repeated first second hfield
  | @entry b c name mark before behind key t closed holds identifier inner ih =>
      obtain ⟨record, l, hreader, -, hholds⟩ := b.exists_layout (σ := σ)
      obtain ⟨f, hfield, hcheck⟩ := hholds name c holds
      rw [hreader]
      exact Reader.refuses_entry identifier hfield (hcheck t inner.isNull ih)
  | @item b c name mark items i t closed holds position at_i inner ih =>
      obtain ⟨record, l, hreader, hnames, hholds⟩ := b.exists_layout (σ := σ)
      obtain ⟨f, hfield, hcheck⟩ := hholds name c holds
      rw [← hnames, List.getElem?_map, Option.map_eq_some_iff] at position
      obtain ⟨g, hg, rfl⟩ := position
      have hnodup : (l.fields.map Field.name).Nodup := hnames ▸ b.nodup_names
      obtain rfl := Option.some.inj (hfield.symm.trans (Layout.field?_of_getElem? hnodup hg))
      rw [hreader]
      exact Reader.refuses_item hg at_i (hcheck t inner.isNull ih)
  | @unreadable b =>
      obtain ⟨record, l, hreader, -⟩ := b.exists_layout (σ := σ)
      rw [hreader]
      exact fun a ha => nomatch ha

end

end Block

end CaptureConfig

/-
**Readers.**

A reader makes a value of a tree or finds a fault.  Readers of records are put together from
readers of fields: the entries are looked at in the order of the text, each against the field of
its key, and what is missing is found at the end.  A record whose notation allows it may also be
written as the sequence of its fields.

Main definitions:

* `Reader` — a reader, what it uses, and what it makes of nothing at all;
* `Reader.text`, `Reader.number`, `Reader.truth`, `Reader.flag`, `Reader.list`, `Reader.optional`
  — readers of simple things;
* `Layout`, `Layout.field`, `Layout.others` — the fields of a record;
* `Reader.record` — the reader of a record.
-/

import CaptureConfig.Data.Keys
import CaptureConfig.Schema.Scalar
import CaptureConfig.Schema.Uses
import CaptureConfig.Text.Blank

set_option relaxedAutoImplicit false
set_option autoImplicit false

namespace CaptureConfig

/-- A reader of trees. -/
structure Reader (σ α : Type) where
  /-- What it uses of a tree. -/
  uses : Uses
  read : Tree σ → Except Fault α
  /-- What a missing field is, if it may be missing. -/
  absent : Option α

namespace Reader

variable {σ : Type} [Scalar σ] {α β : Type}

/-! ### Simple things -/

/-- A reader of scalars with a given expectation. -/
def scalar (expected : String) (accept : σ → Except Fault α) : Reader σ α where
  uses := .everything
  read
    | .scalar s => accept s
    | t => .error (t.refuse expected)
  absent := none

/-- A reader of scalars that either are what is expected or not. -/
def scalarIf (expected : String) (accept? : σ → Option α) : Reader σ α :=
  scalar expected fun s => (accept? s).elim (.error (Scalar.refuse expected s)) .ok

/-- A text; in some notations a collection counts as one. -/
def textAs (expected : String) : Reader σ String where
  uses := .everything
  read t :=
    match t.spelling? with
    | some s => .ok s
    | none => (scalarIf expected Scalar.text?).read t
  absent := none

/-- A text. -/
def text : Reader σ String := textAs "a string"

/-- A truth value. -/
def truth : Reader σ Bool := scalarIf "a boolean" Scalar.truth?

/-- A number below a bound. -/
def number (bound : Nat) (expected : String) : Reader σ Nat :=
  scalar expected fun s =>
    match Scalar.integer? s with
    | none => .error (Scalar.refuse expected s)
    | some i =>
        if 0 ≤ i ∧ i < bound then .ok i.toNat
        else .error (.complaint (.invalidValue (.int i) expected))

/-- A reader whose result is changed. -/
def map (f : α → β) (r : Reader σ α) : Reader σ β where
  uses := r.uses
  read t := (r.read t).map f
  absent := r.absent.map f

/-- A number of 16 bits. -/
def u16 : Reader σ UInt16 := (number UInt16.size "u16").map UInt16.ofNat

/-- A number of 32 bits. -/
def u32 : Reader σ UInt32 := (number UInt32.size "u32").map UInt32.ofNat

/-- A number of 64 bits. -/
def u64 : Reader σ UInt64 := (number UInt64.size "u64").map UInt64.ofNat

/-- A tree that is nothing. -/
def isNull : Tree σ → Except Fault Bool
  | .scalar s => Tree.complaining (Scalar.isNull s)
  | _ => .ok false

/-- Something that may be missing, or be nothing. -/
def optional (r : Reader σ α) : Reader σ (Option α) where
  uses := r.uses
  read t := do
    if ← isNull t then pure none else (r.read t).map some
  absent := some none

/-- The items of a list, one after another. -/
def items (r : Reader σ α) : List (Tree σ) → Except Fault (List α)
  | [] => .ok []
  | t :: rest => do
      let a ← r.read t
      let as ← items r rest
      pure (a :: as)

/-- A list. -/
def list (r : Reader σ α) : Reader σ (List α) where
  uses := .everything
  read
    | .seq _ ts closed => do
        let as ← items r ts
        Tree.ended closed
        pure as
    | .scalar s =>
        if Scalar.isEmpty s then .ok [] else .error (Scalar.refuse "a sequence" s)
    | t => .error (t.refuse "a sequence")
  absent := none

/-- The truth value that a text spells, whatever its letters' case and the blanks around it. -/
def truthOfText (s : String) : Except Fault Bool :=
  let word := Text.lowerAscii (Text.trim s)
  if word = "true" then .ok true
  else if word = "false" then .ok false
  else .error (.complaint (.notTruth word))

/-- The truth value that a value is or spells. -/
def truthOfValue : Value → Except Fault Bool
  | .bool b => .ok b
  | .text s => truthOfText s
  | _ => .error (.complaint (.noVariant "Flag"))

/-- A truth value that may be missing, and may be written as a text. -/
def flag : Reader σ (Option Bool) where
  uses := .everything
  read t := do
    if ← isNull t then pure none
    else do
      let v ← t.keep
      (truthOfValue v).map some
  absent := some none

end Reader

/-! ### Records -/

/-- A field of a record. -/
structure Field (σ : Type) where
  name : String
  uses : Uses
  check : Tree σ → Except Fault Unit
  /-- It may be left out of a sequence of fields. -/
  hasDefault : Bool

/-- The entries of a record that have been looked at: those of its fields, and the others. -/
structure Seen (σ : Type) where
  known : List (String × Tree σ)
  others : List (String × Tree σ)

/-- The fields of a record, and what is made of them. -/
structure Layout (σ α : Type) where
  fields : List (Field σ)
  /-- The entries without a field are kept. -/
  keepsOthers : Bool
  build : Seen σ → Except Fault α

namespace Layout

variable {σ : Type} [Scalar σ] {α β : Type}

/-- The checking part of a reader. -/
def checkBy (r : Reader σ α) (t : Tree σ) : Except Fault Unit := (r.read t).map fun _ => ()

/-- What a field makes of the entries that have been looked at. -/
def buildField (name : String) (r : Reader σ α) (seen : Seen σ) : Except Fault α :=
  match seen.known.lookup name with
  | some t => r.read t
  | none => r.absent.elim (.error (.complaint (.missingField name))) .ok

/-- A field. -/
def field (name : String) (r : Reader σ α) : Layout σ α where
  fields := [⟨name, r.uses, checkBy r, false⟩]
  keepsOthers := false
  build := buildField name r

/-- A field that takes a default if it is missing. -/
def fieldOr (default : α) (name : String) (r : Reader σ α) : Layout σ α where
  fields := [⟨name, r.uses, checkBy r, true⟩]
  keepsOthers := false
  build := buildField name { r with absent := some default }

/-- The value of an entry without a field; each of its mappings holds each key once. -/
def keepOther : String × Tree σ → Except Fault (String × Value)
  | (k, t) => do
      let v ← t.keep
      pure (k, ← v.distinct)

/-- The entries without a field. -/
def others : Layout σ (List (String × Value)) where
  fields := []
  keepsOthers := true
  build seen := seen.others.mapM keepOther

instance : Applicative (Layout σ) where
  pure a := ⟨[], false, fun _ => .ok a⟩
  seq f x :=
    { fields := f.fields ++ (x ()).fields
      keepsOthers := f.keepsOthers || (x ()).keepsOthers
      build := fun seen => do
        let g ← f.build seen
        let a ← (x ()).build seen
        pure (g a) }

/-- The field with a given name. -/
def field? (l : Layout σ α) (name : String) : Option (Field σ) :=
  l.fields.find? fun f => f.name == name

/-- What the reader of the record uses. -/
def uses (l : Layout σ α) : Uses := .record (l.fields.map fun f => (f.name, f.uses)) l.keepsOthers

/-! ### Entries -/

/-- An entry without a field: passed over, or looked at whole. -/
def lookAtOther (l : Layout σ α) (t : Tree σ) : Except Fault Unit :=
  if l.keepsOthers then t.keep.map fun _ => () else t.pass

/-- Entries behind those that have been looked at. -/
def lookAt (l : Layout σ α) (seen : Seen σ) : List (Tree σ × Tree σ) → Except Fault (Seen σ)
  | [] => .ok seen
  | (k, t) :: rest => do
      let name ← (Reader.textAs "field identifier").read k
      match l.field? name with
      | some f =>
          if (seen.known.lookup name).isSome then throw (.complaint (.duplicateField name))
          f.check t
          lookAt l { seen with known := seen.known ++ [(name, t)] } rest
      | none =>
          l.lookAtOther t
          lookAt l { seen with others := seen.others ++ [(name, t)] } rest

/-- The entries of a record, and what is made of them. -/
def readEntries (l : Layout σ α) (entries : List (Tree σ × Tree σ)) (closed : Bool) :
    Except Fault α := do
  let seen ← l.lookAt ⟨[], []⟩ entries
  Tree.ended closed
  l.build seen

/-! ### Sequences of fields -/

/-- The fields of a sequence in order: those that have an item are checked, the others must have
a default.  `index` counts the fields before. -/
def lookAtItems (record : String) (total : Nat) (closed : Bool) :
    (index : Nat) → List (Field σ) → List (Tree σ) → Except Fault (List (String × Tree σ))
  | _, [], [] => (Tree.ended closed).map fun _ => []
  | _, [], _ :: _ => if Scalar.surplusAllowed σ then .ok [] else .error .malformed
  | index, f :: fields, [] => do
      Tree.ended closed
      if f.hasDefault then lookAtItems record total closed (index + 1) fields []
      else throw (.complaint (.invalidLength index record total))
  | index, f :: fields, t :: rest => do
      f.check t
      let seen ← lookAtItems record total closed (index + 1) fields rest
      pure ((f.name, t) :: seen)

/-- The items of a record, and what is made of them. -/
def readItems (l : Layout σ α) (record : String) (items : List (Tree σ)) (closed : Bool) :
    Except Fault α := do
  let known ← lookAtItems record l.fields.length closed 0 l.fields items
  l.build ⟨known, []⟩

end Layout

namespace Reader

variable {σ : Type} [Scalar σ] {α : Type}

/-- **The reader of a record.**  A record that keeps its other entries has no fixed sequence of
fields. -/
def record (name : String) (l : Layout σ α) : Reader σ α where
  uses := l.uses
  read
    | .map _ entries closed => l.readEntries entries closed
    | .seq mark items closed =>
        if Scalar.recordsAsSequences σ && ! l.keepsOthers then l.readItems name items closed
        else .error (Tree.refuse name (.seq mark items closed))
    | .scalar s =>
        if Scalar.isEmpty s then l.build ⟨[], []⟩ else .error (Scalar.refuse name s)
    | t => .error (t.refuse name)
  absent := none

/-- **A document.**  A text that goes on behind it in a way that it should not is malformed, but
complaints about the data come first. -/
def document (r : Reader σ α) (d : Document σ) : Except Fault α := do
  let a ← r.read d.root
  if d.sound then pure a else throw .malformed

end Reader

end CaptureConfig

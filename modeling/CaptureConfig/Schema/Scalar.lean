/-
**What a notation says about its scalars.**

A reader that expects a text, a number or a truth value asks the notation whether a scalar is one.
The answers differ: one notation has separate texts and numbers, in another the spelling decides,
and what is expected decides too.

Main definitions:

* `Scalar` — the answers of a notation;
* `Scalar.refuse` — the complaint that a scalar is not what is expected;
* `Tree.keep` — a tree as a value without a schema.
-/

import CaptureConfig.Data.Tree
import CaptureConfig.Data.Value

set_option relaxedAutoImplicit false
set_option autoImplicit false

namespace CaptureConfig

/-- What a notation says about its scalars. -/
class Scalar (σ : Type) where
  /-- What a scalar is when it is not what is expected; in a text with a type of its own the
  content may not fit the type. -/
  found : σ → Except Complaint Found
  /-- Nothing, where something optional is asked for. -/
  isNull : σ → Except Complaint Bool
  /-- A scalar that stands for an empty collection. -/
  isEmpty : σ → Bool
  /-- The text of a scalar, where a text is asked for. -/
  text? : σ → Option String
  /-- The whole number of a scalar, where one that is not negative is asked for. -/
  integer? : σ → Option Int
  /-- The truth value of a scalar, where one is asked for. -/
  truth? : σ → Option Bool
  /-- The value of a scalar, where anything is asked for. -/
  value : σ → Except Complaint Value
  /-- Whether a record may be written as the sequence of its fields. -/
  recordsAsSequences : Bool
  /-- Whether a sequence of fields may be longer than the record. -/
  surplusAllowed : Bool

namespace Scalar

variable {σ : Type} [Scalar σ]

/-- **The complaint that a scalar is not what is expected.** -/
def refuse (expected : String) (s : σ) : Fault :=
  match found s with
  | .ok f => .complaint (.invalidType f expected)
  | .error c => .complaint c

end Scalar

namespace Tree

variable {σ : Type} [Scalar σ]

/-- What is complained about becomes a fault. -/
def complaining {α : Type} : Except Complaint α → Except Fault α
  | .ok a => .ok a
  | .error c => .error (.complaint c)

/-- The fault of a collection that lacks its end. -/
def ended (closed : Bool) : Except Fault Unit := if closed then .ok () else .error .malformed

mutual

/-- **A tree as a value without a schema.**  Collections of an application's own type have none. -/
def keep : Tree σ → Except Fault Value
  | .scalar s => complaining (Scalar.value s)
  | .seq mark items closed => do
      if mark == .ownType then throw (.complaint .enumInput)
      let vs ← keepItems items
      ended closed
      pure (.seq vs)
  | .map mark entries closed => do
      if mark == .ownType then throw (.complaint .enumInput)
      let kvs ← keepEntries entries
      ended closed
      pure (.map kvs)
  | .unreadable => .error .malformed
  | .broken => .error .malformed

/-- The values of items. -/
def keepItems : List (Tree σ) → Except Fault (List Value)
  | [] => .ok []
  | t :: rest => do
      let v ← keep t
      let vs ← keepItems rest
      pure (v :: vs)

/-- The values of entries. -/
def keepEntries : List (Tree σ × Tree σ) → Except Fault (List (Value × Value))
  | [] => .ok []
  | (k, t) :: rest => do
      let key ← keep k
      let v ← keep t
      let vs ← keepEntries rest
      pure ((key, v) :: vs)

end

/-- The complaint that a tree is not what is expected. -/
def refuse (expected : String) : Tree σ → Fault
  | .scalar s => Scalar.refuse expected s
  | .seq _ _ _ => .complaint (.invalidType .sequence expected)
  | .map _ _ _ => .complaint (.invalidType .mapping expected)
  | .unreadable => .malformed
  | .broken => .malformed

end Tree

end CaptureConfig

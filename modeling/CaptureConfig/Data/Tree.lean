/-
**Documents as trees.**

Each notation has scalars of its own; sequences and mappings are the same in all of them.  A tree
may be damaged: a part that cannot be read stands in it as such a part, and a sequence or a mapping
may lack its end.  What is before the damage can still be read, and complaints about it come first.

Main definitions:

* `Tree` — sequences and mappings of scalars, possibly damaged;
* `Tree.isWhole` — a tree that can be passed over;
* `Document` — a tree, and whether the text behind it is in order.
-/

import CaptureConfig.Schema.Fault

set_option relaxedAutoImplicit false
set_option autoImplicit false

namespace CaptureConfig

/-- What is known about a collection besides its content: nothing, that it is of an application's
own type, or what it counts as where a text is expected. -/
inductive Mark where
  | none
  | ownType
  | spelled (text : String)
  deriving DecidableEq, Repr, Inhabited

/-- Sequences and mappings of scalars.  The flag of a collection says whether it has its end. -/
inductive Tree (σ : Type) where
  | scalar (s : σ)
  | seq (mark : Mark) (items : List (Tree σ)) (closed : Bool)
  | map (mark : Mark) (entries : List (Tree σ × Tree σ)) (closed : Bool)
  /-- A part that can be passed over but not be read. -/
  | unreadable
  /-- A part behind which nothing can be known. -/
  | broken
  deriving Repr, Inhabited

namespace Tree

variable {σ : Type}

mutual

/-- **A tree that can be passed over**: all its collections have their ends, and nothing in it is
broken. -/
def isWhole : Tree σ → Bool
  | .scalar _ => true
  | .seq _ items closed => itemsAreWhole items && closed
  | .map _ entries closed => entriesAreWhole entries && closed
  | .unreadable => true
  | .broken => false

/-- Items that can be passed over. -/
def itemsAreWhole : List (Tree σ) → Bool
  | [] => true
  | t :: rest => isWhole t && itemsAreWhole rest

/-- Entries that can be passed over. -/
def entriesAreWhole : List (Tree σ × Tree σ) → Bool
  | [] => true
  | (k, v) :: rest => isWhole k && isWhole v && entriesAreWhole rest

end

/-- What a collection counts as where a text is expected, if it counts as one. -/
def spelling? : Tree σ → Option String
  | .seq (.spelled s) _ _ => some s
  | .map (.spelled s) _ _ => some s
  | _ => none

/-- Passing over a tree. -/
def pass (t : Tree σ) : Except Fault Unit := if t.isWhole then .ok () else .error .malformed

end Tree

/-- A tree, and whether the text behind it is in order. -/
structure Document (σ : Type) where
  root : Tree σ
  sound : Bool
  deriving Repr

end CaptureConfig

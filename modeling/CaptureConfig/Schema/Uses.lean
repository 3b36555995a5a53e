/-
**Which parts of a tree are used.**

A reader passes over what it has no use for.  That matters where reading is bounded: parts that
are passed over may be nested as deep as they like.

Main definitions:

* `Uses` — what a reader uses of a tree;
* `Uses.ofKey`, `Uses.ofIndex` — what it uses of an entry and of an item.
-/

set_option relaxedAutoImplicit false
set_option autoImplicit false

namespace CaptureConfig

/-- What a reader uses of a tree: nothing, everything, or of a record its fields by name, and of
its other entries all or nothing. -/
inductive Uses where
  | nothing
  | everything
  | record (fields : List (String × Uses)) (others : Bool)
  deriving Repr, Inhabited

namespace Uses

/-- All or nothing. -/
def whole (used : Bool) : Uses := if used then .everything else .nothing

/-- What is used of an entry with a given key; a key that is no text has no field. -/
def ofKey : Uses → Option String → Uses
  | .nothing, _ => .nothing
  | .everything, _ => .everything
  | .record _ others, none => whole others
  | .record fields others, some key => (fields.lookup key).getD (whole others)

/-- What is used of the item with a given index. -/
def ofIndex : Uses → Nat → Uses
  | .nothing, _ => .nothing
  | .everything, _ => .everything
  | .record fields _, i => (fields[i]?.map Prod.snd).getD .nothing

/-- Whether anything is used. -/
def isNothing : Uses → Bool
  | .nothing => true
  | _ => false

end Uses

end CaptureConfig

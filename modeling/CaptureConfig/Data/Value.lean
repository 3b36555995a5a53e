/-
**Values without a schema.**

What a property file holds under a key that nobody knows is kept as it is: nothing, a truth value,
a number, a text, a sequence or a mapping.  Entries of a mapping keep their order, and their keys
may be any values.

Main definitions:

* `Value` — the values;
* `Value.same` — equality as keys see it: the order of a mapping's entries does not matter.
-/

import CaptureConfig.Number.Binary64

set_option relaxedAutoImplicit false
set_option autoImplicit false

namespace CaptureConfig

/-- A value without a schema. -/
inductive Value where
  | null
  | bool (b : Bool)
  | int (i : Int)
  | float (f : Binary64)
  | text (s : String)
  | seq (items : List Value)
  | map (entries : List (Value × Value))
  deriving Repr, Inhabited

namespace Value

mutual

/-- Equality as keys see it: entries of mappings are compared whatever their order. -/
def same : Value → Value → Bool
  | .null, .null => true
  | .bool a, .bool b => a == b
  | .int a, .int b => a == b
  | .float a, .float b => a.sameValue b
  | .text a, .text b => a == b
  | .seq a, .seq b => sameItems a b
  | .map a, .map b => a.length == b.length && entriesAmong a b
  | _, _ => false

/-- Equality of sequences, item by item. -/
def sameItems : List Value → List Value → Bool
  | [], [] => true
  | a :: as, b :: bs => same a b && sameItems as bs
  | _, _ => false

/-- Whether every entry of the first list has an equal one in the second. -/
def entriesAmong : List (Value × Value) → List (Value × Value) → Bool
  | [], _ => true
  | (k, v) :: rest, other =>
      (other.any fun (k', v') => same k k' && same v v') && entriesAmong rest other

end

end Value

end CaptureConfig

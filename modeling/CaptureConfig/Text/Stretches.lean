/-
**Classes of characters as stretches.**

A class of characters is written as the lengths of stretches of the code space that lie outside of
it and inside of it in turn, the first outside.

Main definitions:

* `Stretches.liesIn` — membership.
-/

set_option relaxedAutoImplicit false
set_option autoImplicit false

namespace CaptureConfig

namespace Stretches

/-- Whether a code point lies inside, for stretches the first of which is inside or not; behind the
last stretch nothing is inside. -/
def liesFrom (inside : Bool) : List Nat → Nat → Bool
  | [], _ => false
  | length :: rest, n => if n < length then inside else liesFrom (! inside) rest (n - length)

/-- A character of a class. -/
def liesIn (stretches : List Nat) (c : Char) : Bool := liesFrom false stretches c.toNat

end Stretches

end CaptureConfig

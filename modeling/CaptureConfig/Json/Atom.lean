/-
**Scalars of the strict notation.**

A scalar is nothing, a truth value, a number or a text, and each is only what it is: a number is no
text, and a text that spells a number is no number.

Main definitions:

* `Json.Atom` — the scalars;
* `Json.floatStyle` — how a number with a point is shown in a complaint.
-/

import CaptureConfig.Schema.Scalar

set_option relaxedAutoImplicit false
set_option autoImplicit false

namespace CaptureConfig

namespace Json

/-- A scalar. -/
inductive Atom where
  | null
  | bool (b : Bool)
  | int (i : Int)
  | float (f : Binary64)
  | text (s : String)
  deriving DecidableEq, Repr, Inhabited

/-- In complaints a power of ten carries its sign. -/
def floatStyle : Shortest.Style := Shortest.signed

namespace Atom

/-- What a scalar is when it is not what is expected. -/
def found : Atom → Found
  | .null => .nothing "null"
  | .bool b => .bool b
  | .int i => .int i
  | .float f => .float (Shortest.text floatStyle f)
  | .text s => .text s

/-- The value of a scalar. -/
def value : Atom → Value
  | .null => .null
  | .bool b => .bool b
  | .int i => .int i
  | .float f => .float f
  | .text s => .text s

end Atom

instance : CaptureConfig.Scalar Atom where
  found a := .ok a.found
  isNull a := .ok (a == .null)
  isEmpty _ := false
  text?
    | .text s => some s
    | _ => none
  integer?
    | .int i => some i
    | _ => none
  truth?
    | .bool b => some b
    | _ => none
  value a := .ok a.value
  recordsAsSequences := true
  surplusAllowed := false

end Json

end CaptureConfig

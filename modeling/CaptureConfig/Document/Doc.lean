/-
**Nested blocks.**

What a configuration document is made of: texts, numbers, truth values and blocks with keys in a
fixed order.  Both notations of the document are printed from it.

Main definitions:

* `Doc` — a document;
* `Doc.toJson` — a document in strict notation.
-/

import CaptureConfig.Json.Printer

set_option relaxedAutoImplicit false
set_option autoImplicit false

namespace CaptureConfig

/-- A document, or a part of one. -/
inductive Doc where
  | text (s : String)
  | number (n : Nat)
  | flag (b : Bool)
  | block (entries : List (String × Doc))
  deriving Repr, Inhabited

namespace Doc

mutual

/-- **A document in strict notation.** -/
def toJson : Doc → Json
  | .text s => .text s
  | .number n => .number n
  | .flag b => .bool b
  | .block entries => .object (entriesToJson entries)

/-- The entries of a block in strict notation. -/
def entriesToJson : List (String × Doc) → List (String × Json)
  | [] => []
  | (k, d) :: rest => (k, d.toJson) :: entriesToJson rest

end

end Doc

end CaptureConfig

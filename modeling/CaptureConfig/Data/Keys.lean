/-
**Keys of mappings.**

A mapping without a schema may hold each key once.  Keys are looked at from the inside out, in the
order of the text: first what is inside a key, then the key itself, then what is inside its value.

Main definitions:

* `Value.shownKey` — a key in a complaint;
* `Value.repeatedKey?` — the first key that stands in a mapping a second time.
-/

import CaptureConfig.Data.Value
import CaptureConfig.Schema.Fault

set_option relaxedAutoImplicit false
set_option autoImplicit false

namespace CaptureConfig

namespace Value

/-- The style of a number with a point that is a key. -/
def keyStyle : Shortest.Style := ⟨some (-4, 16), false⟩

/-- The text of a number with a point that is a key. -/
def keyFloat : Binary64 → String
  | .nan => ".nan"
  | .infinite s => if s then "-.inf" else ".inf"
  | f => Shortest.text keyStyle f

/-- **A key in a complaint.** -/
def shownKey : Value → String
  | .null => "with null key"
  | .bool b => "with key `" ++ (if b then "true" else "false") ++ "`"
  | .int i => "with key " ++ Digits.intText i
  | .float f => "with key " ++ keyFloat f
  | .text s => "with key " ++ Quoted.text s
  | .seq _ => "in YAML map"
  | .map _ => "in YAML map"

mutual

/-- **The first key that stands in a mapping a second time.** -/
def repeatedKey? : Value → Option Value
  | .seq items => repeatedInItems? items
  | .map entries => repeatedInEntries? [] entries
  | _ => none

/-- The first repeated key inside items. -/
def repeatedInItems? : List Value → Option Value
  | [] => none
  | v :: rest => repeatedKey? v <|> repeatedInItems? rest

/-- The first repeated key among entries behind given keys, or inside of them. -/
def repeatedInEntries? (before : List Value) : List (Value × Value) → Option Value
  | [] => none
  | (k, v) :: rest =>
      repeatedKey? k <|>
      (if before.any (same k) then some k else none) <|>
      repeatedKey? v <|> repeatedInEntries? (k :: before) rest

end

/-- A value whose mappings hold each key once. -/
def distinct (v : Value) : Except Fault Value :=
  match v.repeatedKey? with
  | none => .ok v
  | some k => .error (.complaint (.duplicateEntry k.shownKey))

end Value

end CaptureConfig

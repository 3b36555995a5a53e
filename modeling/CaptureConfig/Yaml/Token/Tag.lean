/-
**Tags, names and directives.**

A tag is a handle and a suffix.  A handle stands for the front part of a tag and is declared by a
directive; two are known without one.

Main definitions:

* `Yaml.name` — the name of an anchor or an alias;
* `Yaml.TagToken`, `Yaml.tagToken` — a tag as it is written;
* `Yaml.Directive`, `Yaml.directive` — a directive.
-/

import CaptureConfig.Text.Utf8
import CaptureConfig.Yaml.Token.Lines

set_option relaxedAutoImplicit false
set_option autoImplicit false

namespace CaptureConfig

namespace Yaml

/-! ### Names -/

/-- The characters of a name. -/
def nameChars (c : Cursor) : List Char × Cursor :=
  let chars := c.run isNameChar
  (chars, c.skipMany chars.length)

/-- **The name of an anchor or an alias**, from its indicator on. -/
def name (c : Cursor) : Option (String × Cursor) :=
  let (chars, c) := nameChars c.skip
  if chars.isEmpty then none
  else if isGap c.peek || c.peek.any (isOneOf "?:,]\x7d%@`") then some (String.ofList chars, c)
  else none

/-! ### Tags -/

/-- A tag as it is written: its octets behind an empty handle are the whole tag. -/
structure TagToken where
  handle : List Char
  suffix : List UInt8
  deriving DecidableEq, Repr, Inhabited

/-- A character of a tag; flow indicators only between angle brackets. -/
def isTagChar (verbatim : Bool) (c : Char) : Bool :=
  isNameChar c || isOneOf ";/?:@&=+$.%!~*'()" c || (verbatim && isOneOf ",[]" c)

/-- The number of octets of a character that an octet begins, or zero. -/
def octetsFrom (n : Nat) : Nat :=
  if n < 0x80 then 1
  else if 0xC0 ≤ n ∧ n < 0xE0 then 2
  else if 0xE0 ≤ n ∧ n < 0xF0 then 3
  else if 0xF0 ≤ n ∧ n < 0xF8 then 4
  else 0

/-- The octets of a tag; `owed` octets of a character are still to come, each of them written by
its two digits. -/
def tagOctets (verbatim : Bool) : (owed : Nat) → List Char → Option (List UInt8 × Nat)
  | owed, '%' :: a :: b :: rest =>
      if ! [a, b].all (Digits.isDigit 16) then none
      else
        let n := Digits.toNat 16 [a, b]
        let owed := if owed = 0 then octetsFrom n
          else if 0x80 ≤ n ∧ n < 0xC0 then owed else 0
        if owed = 0 then none
        else (tagOctets verbatim (owed - 1) rest).map fun (bs, k) => (UInt8.ofNat n :: bs, k + 3)
  | owed, c :: rest =>
      if c == '%' then none
      else if ! isTagChar verbatim c then if owed = 0 then some ([], 0) else none
      else if owed ≠ 0 then none
      else (tagOctets verbatim 0 rest).map fun (bs, k) => (String.utf8EncodeChar c ++ bs, k + 1)
  | owed, [] => if owed = 0 then some ([], 0) else none

/-- The octets of a tag at a place. -/
def tagUri (verbatim : Bool) (c : Cursor) : Option (List UInt8 × Cursor) :=
  (tagOctets verbatim 0 c.rest).map fun (bs, k) => (bs, c.skipMany k)

/-- A handle: an exclamation mark, and possibly a name with another one behind it. -/
def handleChars (c : Cursor) : Option (List Char × Cursor) :=
  if ! c.holds '!' then none
  else
    let (chars, c) := nameChars c.skip
    if c.holds '!' then some ('!' :: chars ++ ['!'], c.skip) else some ('!' :: chars, c)

/-- A handle that ends with an exclamation mark of its own. -/
def isFullHandle (h : List Char) : Bool := 1 < h.length && h.getLast? == some '!'

/-- A tag between angle brackets. -/
def verbatimTag (c : Cursor) : Option (TagToken × Cursor) := do
  let (bs, c) ← tagUri true (c.skipMany 2)
  if bs.isEmpty || ! c.holds '>' then none else pure (⟨[], bs⟩, c.skip)

/-- A tag with a handle, full or not; a lone exclamation mark is a tag of its own. -/
def shortTag (c : Cursor) : Option (TagToken × Cursor) := do
  let (h, c) ← handleChars c
  let (bs, c) ← tagUri false c
  if isFullHandle h then
    if bs.isEmpty then none else pure (⟨h, bs⟩, c)
  else
    let suffix := Utf8.encodeChars (h.drop 1) ++ bs
    pure (if suffix.isEmpty then ⟨[], Utf8.encodeChars ['!']⟩ else ⟨['!'], suffix⟩, c)

/-- **A tag.**  What stands behind it is a gap, or inside brackets a comma. -/
def tagToken (inBrackets : Bool) (c : Cursor) : Option (TagToken × Cursor) := do
  let (t, c) ← if c.peekNext == some '<' then verbatimTag c else shortTag c
  if isGap c.peek || (inBrackets && c.holds ',') then pure (t, c) else none

/-! ### Directives -/

/-- A directive. -/
inductive Directive where
  | version (major minor : Nat)
  | tag (handle : List Char) (front : List UInt8)
  deriving DecidableEq, Repr

/-- A number of a version: up to nine digits. -/
def versionNumber (c : Cursor) : Option (Nat × Cursor) :=
  let digits := c.run (Digits.isDigit 10)
  if digits.isEmpty || 9 < digits.length then none
  else some (Digits.toNat 10 digits, c.skipMany digits.length)

/-- Two numbers with a dot between them. -/
def versionDirective (c : Cursor) : Option (Directive × Cursor) := do
  let (major, c) ← versionNumber (c.skipWhile isBlank)
  if ! c.holds '.' then none
  else do
    let (minor, c) ← versionNumber c.skip
    pure (.version major minor, c)

/-- A handle, and the front part of the tags that it stands for. -/
def tagDirective (c : Cursor) : Option (Directive × Cursor) := do
  let (h, c) ← handleChars (c.skipWhile isBlank)
  if ! (h == ['!'] || isFullHandle h) || ! c.peek.any isBlank then none
  else do
    let (bs, c) ← tagUri true (c.skipWhile isBlank)
    if bs.isEmpty || ! isGap c.peek then none else pure (.tag h bs, c)

/-- **A directive**, from its indicator on, and the rest of its line. -/
def directive (c : Cursor) : Option (Directive × Cursor) := do
  let (chars, c) := nameChars c.skip
  if chars.isEmpty || ! isGap c.peek then none
  else do
    let (d, c) ←
      if chars == "YAML".toList then versionDirective c
      else if chars == "TAG".toList then tagDirective c
      else none
    pure (d, ← skipLineEnd c)

end Yaml

end CaptureConfig

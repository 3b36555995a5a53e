/-
**Blank characters and trimming.**

A text counts as present only when something is left of it after its blanks are taken off both
ends.  The blanks are the characters with the Unicode property `White_Space`; they are more than
the ASCII ones, and more than those of `Char.isWhitespace`.

Main definitions:

* `Text.isBlank` — the characters that trimming removes;
* `Text.trim`, `Text.trimEnd` — a text without the blanks at its ends;
* `Text.IsBlank` — nothing is left after trimming.
-/

set_option relaxedAutoImplicit false
set_option autoImplicit false

namespace CaptureConfig

namespace Text

/-- The characters with the Unicode property `White_Space`. -/
def isBlank (c : Char) : Bool :=
  let n := c.toNat
  (0x09 ≤ n && n ≤ 0x0D) || n == 0x20 || n == 0x85 || n == 0xA0 || n == 0x1680 ||
    (0x2000 ≤ n && n ≤ 0x200A) || n == 0x2028 || n == 0x2029 || n == 0x202F || n == 0x205F ||
    n == 0x3000

/-- A list of characters without the blanks at its front. -/
def dropBlanks (cs : List Char) : List Char := cs.dropWhile isBlank

/-- A list of characters without the blanks at its end. -/
def dropBlanksEnd (cs : List Char) : List Char := (cs.reverse.dropWhile isBlank).reverse

/-- A list of characters without the blanks at either end. -/
def trimChars (cs : List Char) : List Char := dropBlanksEnd (dropBlanks cs)

/-- A text without the blanks at either end. -/
def trim (s : String) : String := String.ofList (trimChars s.toList)

/-- A text without the blanks at its end. -/
def trimEnd (s : String) : String := String.ofList (dropBlanksEnd s.toList)

/-- A text of blanks only. -/
def IsBlank (s : String) : Prop := s.toList.all isBlank = true

instance (s : String) : Decidable (IsBlank s) := inferInstanceAs (Decidable (_ = true))

/-- A text with its ASCII capitals made small. -/
def lowerAscii (s : String) : String := String.ofList (s.toList.map Char.toLower)

/-- The text itself if it is more than blanks. -/
def present (s : Option String) : Option String := s.filter fun t => ¬ IsBlank t

end Text

end CaptureConfig

/-
**Classes of characters in block notation.**

Main definitions:

* `Yaml.isBreak`, `Yaml.isGap` — what ends a line, and what may stand behind an indicator;
* `Yaml.isAllowed`, `Yaml.isPrintable` — what may occur in a text, and what is written as it is;
* `Yaml.isNameChar` — the characters of anchors and handles.
-/

set_option relaxedAutoImplicit false
set_option autoImplicit false

namespace CaptureConfig

namespace Yaml

/-- A character that ends a line. -/
def isBreak (c : Char) : Bool :=
  c == '\n' || c == '\r' || c == '\x85' || c == '\u2028' || c == '\u2029'

/-- A space or a tab. -/
def isBlank (c : Char) : Bool := c == ' ' || c == '\t'

/-- A space, a tab or a break. -/
def isBlankOrBreak (c : Char) : Bool := isBlank c || isBreak c

/-- What may be behind an indicator: a space, a tab, a break, or the end. -/
def isGap : Option Char → Bool
  | none => true
  | some c => isBlankOrBreak c

/-- A character that may occur in a text: no controls but tabs and breaks. -/
def isAllowed (c : Char) : Bool :=
  let n := c.toNat
  c == '\t' || c == '\n' || c == '\r' || c == '\x85' || (0x20 ≤ n && n ≤ 0x7E) ||
    (0xA0 ≤ n && n != 0xFFFE && n != 0xFFFF)

/-- A character that can be written as it is. -/
def isPrintable (c : Char) : Bool :=
  let n := c.toNat
  c == '\n' || (0x20 ≤ n && n ≤ 0x7E) || (0xA0 ≤ n && n != 0xFEFF && n != 0xFFFE && n != 0xFFFF)

/-- The mark of the order of octets, which may open a text. -/
def byteOrderMark : Char := '\uFEFF'

/-- A character of an anchor or a handle. -/
def isNameChar (c : Char) : Bool := c.isAlphanum || c == '_' || c == '-'

/-- One of the characters of a text. -/
def isOneOf (chars : String) (c : Char) : Bool := chars.toList.contains c

/-- A character that a plain scalar cannot begin with. -/
def isFrontIndicator (c : Char) : Bool := isOneOf "#,[]\x7b\x7d&*!|>'\"%@`" c

/-- A character that means something inside brackets. -/
def isFlowIndicator (c : Char) : Bool := isOneOf ",?[]\x7b\x7d" c

/-- The three characters of a mark between documents. -/
def startsWithMark (cs : List Char) : Bool :=
  cs.take 3 == ['-', '-', '-'] || cs.take 3 == ['.', '.', '.']

end Yaml

end CaptureConfig

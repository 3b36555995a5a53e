/-
**Texts in the strict notation.**

A text stands between double quotes.  The quote and the backslash are written behind a backslash,
control characters by a letter or by four digits; everything else stands for itself.

Main definitions:

* `Json.escape` — a character between quotes;
* `Json.quoted` — a text between quotes.
-/

import CaptureConfig.Number.Digits

set_option relaxedAutoImplicit false
set_option autoImplicit false

namespace CaptureConfig

namespace Json

/-- The letter of a character that is written by a letter behind a backslash. -/
def letterOf? (c : Char) : Option Char :=
  if c = '"' ∨ c = '\\' then some c
  else if c = '\x08' then some 'b'
  else if c = '\t' then some 't'
  else if c = '\n' then some 'n'
  else if c = '\x0C' then some 'f'
  else if c = '\r' then some 'r'
  else none

/-- A character as it stands between quotes. -/
def escape (c : Char) : List Char :=
  match letterOf? c with
  | some l => ['\\', l]
  | none => if c.toNat < 0x20 then '\\' :: 'u' :: Digits.padded Digits.char 4 c.toNat else [c]

/-- **A text between quotes.** -/
def quoted (s : String) : List Char := '"' :: s.toList.flatMap escape ++ ['"']

end Json

end CaptureConfig

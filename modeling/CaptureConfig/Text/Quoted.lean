/-
**Texts between quotes.**

Complaints and descriptions show a text between double quotes, so that its ends, its quotes and
what cannot be seen are plain to read.  Control characters with a name of their own are written by
that name, other characters that are not shown by their number.  A path is quoted the same way,
with two additions: the single quote is written with a backslash too, and octets that are no
characters are written one by one.

Main definitions:

* `Quoted.char` — a character between quotes;
* `Quoted.text` — a text between quotes;
* `Quoted.path` — a path between quotes.
-/

import CaptureConfig.Number.Digits
import CaptureConfig.Path
import CaptureConfig.Text.Shown

set_option relaxedAutoImplicit false
set_option autoImplicit false

namespace CaptureConfig

namespace Quoted

/-- The number of a character between braces. -/
def byNumber (c : Char) : List Char :=
  ['\\', 'u', '\x7b'] ++ Digits.inBase 16 c.toNat ++ ['\x7d']

/-- A character as it stands between quotes. -/
def char (c : Char) : List Char :=
  if c = '\x00' then ['\\', '0']
  else if c = '\t' then ['\\', 't']
  else if c = '\r' then ['\\', 'r']
  else if c = '\n' then ['\\', 'n']
  else if c = '"' ∨ c = '\\' then ['\\', c]
  else if Shown.isShown c then [c]
  else byNumber c

/-- **A text between quotes.** -/
def text (s : String) : String := String.ofList ('"' :: s.toList.flatMap char ++ ['"'])

/-- An octet that is no character. -/
def octet (b : UInt8) : List Char := '\\' :: 'x' :: Digits.padded Digits.capital 2 b.toNat

/-- A piece of a path as it stands between quotes. -/
def piece : Utf8.Piece → List Char
  | .char c => if c = '\'' then ['\\', c] else char c
  | .stray octets => octets.flatMap octet

/-- **A path between quotes.** -/
def path (p : Path) : String :=
  String.ofList ('"' :: (Utf8.pieces p.octets).flatMap piece ++ ['"'])

end Quoted

end CaptureConfig

/-
**Places in a text.**

A cursor is what is left of a text, and the place where that starts: how many characters are before
it, in which line it is and in which column.

Main definitions:

* `Yaml.Cursor` — a place in a text;
* `Yaml.Cursor.skip`, `Yaml.Cursor.skipMany`, `Yaml.Cursor.skipWhile` — going on;
* `Yaml.Cursor.breakChars` — what a break at a place counts as.
-/

import CaptureConfig.Yaml.Chars

set_option relaxedAutoImplicit false
set_option autoImplicit false

namespace CaptureConfig

namespace Yaml

/-- A place in a text. -/
structure Cursor where
  rest : List Char
  index : Nat
  line : Nat
  column : Nat
  deriving Repr, Inhabited

namespace Cursor

/-- The start of a text. -/
def start (cs : List Char) : Cursor := ⟨cs, 0, 0, 0⟩

/-- The character at a place. -/
def peek (c : Cursor) : Option Char := c.rest.head?

/-- The character behind the one at a place. -/
def peekNext (c : Cursor) : Option Char := c.rest[1]?

/-- The text is at its end. -/
def atEnd (c : Cursor) : Bool := c.rest.isEmpty

/-- The place holds a given character. -/
def holds (c : Cursor) (ch : Char) : Bool := c.peek == some ch

/-- The place behind the character at a place.  A break takes the line with it, and a carriage
return with a line feed behind it is one break. -/
def skip (c : Cursor) : Cursor :=
  match c.rest with
  | [] => c
  | '\r' :: '\n' :: rest => ⟨rest, c.index + 2, c.line + 1, 0⟩
  | ch :: rest =>
      if isBreak ch then ⟨rest, c.index + 1, c.line + 1, 0⟩
      else ⟨rest, c.index + 1, c.line, c.column + 1⟩

/-- The place behind a number of characters none of which is a break. -/
def skipMany (c : Cursor) (n : Nat) : Cursor :=
  ⟨c.rest.drop n, c.index + n, c.line, c.column + n⟩

/-- The characters from a place on that fulfil a condition, none of which is a break. -/
def run (c : Cursor) (p : Char → Bool) : List Char :=
  c.rest.takeWhile fun ch => p ch && ! isBreak ch

/-- The place behind the characters that fulfil a condition, none of which is a break. -/
def skipWhile (c : Cursor) (p : Char → Bool) : Cursor := c.skipMany (c.run p).length

/-- The place at the end of the line. -/
def skipLine (c : Cursor) : Cursor := c.skipWhile fun _ => true

/-- The place is at the end of a line, or of the text. -/
def atLineEnd (c : Cursor) : Bool :=
  match c.peek with
  | none => true
  | some ch => isBreak ch

/-- A mark between documents starts at the place. -/
def atMark (c : Cursor) : Bool := c.column == 0 && startsWithMark c.rest && isGap c.rest[3]?

/-- What a break at the place counts as in a scalar: most of them as a line feed. -/
def breakChars (c : Cursor) : List Char :=
  match c.peek with
  | none => []
  | some ch =>
      if ch == '\u2028' || ch == '\u2029' then [ch] else if isBreak ch then ['\n'] else []

end Cursor

end Yaml

end CaptureConfig

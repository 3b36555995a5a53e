/-
**Blanks and comments.**

Within a line there are spaces, tabs and comments between two marks; where lines may end there are
breaks too, and comments that reach to the end of the line.

Main definitions:

* `Hcl.skipBlanks` — a text without blanks and comments in front;
* `Hcl.lineEnd?` — the text behind the end of a line.
-/

set_option relaxedAutoImplicit false
set_option autoImplicit false

namespace CaptureConfig

namespace Hcl

/-- The text behind the closing mark of a comment. -/
def behindComment : List Char → Option (List Char)
  | [] => none
  | '*' :: '/' :: rest => some rest
  | _ :: rest => behindComment rest

/-- The text from the end of the line on. -/
def toLineEnd (cs : List Char) : List Char := cs.dropWhile (· != '\n')

/-- A text without blanks and comments in front, across lines or within one. -/
def skipFrom (acrossLines : Bool) : (fuel : Nat) → List Char → List Char
  | 0, cs => cs
  | fuel + 1, cs =>
      match cs with
      | '/' :: '*' :: rest =>
          match behindComment rest with
          | some rest => skipFrom acrossLines fuel rest
          | none => cs
      | '/' :: '/' :: rest =>
          if acrossLines then skipFrom acrossLines fuel (toLineEnd rest) else cs
      | c :: rest =>
          if c = ' ' ∨ c = '\t' then skipFrom acrossLines fuel rest
          else if acrossLines ∧ (c = '\n' ∨ c = '\r') then skipFrom acrossLines fuel rest
          else if acrossLines ∧ c = '#' then skipFrom acrossLines fuel (toLineEnd rest)
          else cs
      | [] => []

/-- **A text without blanks and comments in front.** -/
def skipBlanks (acrossLines : Bool) (cs : List Char) : List Char :=
  skipFrom acrossLines (cs.length + 1) cs

/-- A text without a comment that reaches to the end of the line. -/
def skipLineComment : List Char → List Char
  | '#' :: rest => toLineEnd rest
  | '/' :: '/' :: rest => toLineEnd rest
  | cs => cs

/-- The text behind a break. -/
def break? : List Char → Option (List Char)
  | '\n' :: rest => some rest
  | '\r' :: '\n' :: rest => some rest
  | _ => none

/-- The text behind the end of a line, which may have a comment; the end of the text ends a line
too. -/
def lineEnd? (cs : List Char) : Option (List Char) :=
  match skipLineComment (skipBlanks false cs) with
  | [] => some []
  | cs => break? cs

end Hcl

end CaptureConfig

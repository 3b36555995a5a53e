/-
**How a text is written as a scalar.**

A text of one line is written plainly when it reads back as that text; otherwise it is quoted.  A
text of several lines is written line by line below a bar.  What cannot be written in one of these
ways stands between double quotes, where every character has a spelling.

Main definitions:

* `Yaml.Style`, `Yaml.styleOf` — the ways of writing, and the choice among them;
* `Yaml.scalarChars` — a text as a scalar.
-/

import CaptureConfig.Yaml.Chars
import CaptureConfig.Yaml.Scalar

set_option relaxedAutoImplicit false
set_option autoImplicit false

namespace CaptureConfig

namespace Yaml

/-! ### The choice of a style -/

/-- The ways to write a scalar. -/
inductive Style where
  | plain
  | single
  | double
  | literal
  deriving DecidableEq, Repr

/-- Whether two neighbours somewhere in a text fulfil a condition. -/
def hasNeighbours (p : Char → Char → Bool) : List Char → Bool
  | [] => false
  | [_] => false
  | a :: b :: rest => p a b || hasNeighbours p (b :: rest)

/-- The first character reads as an indicator. -/
def startsWithIndicator : List Char → Bool
  | [] => false
  | c :: rest =>
      isFrontIndicator c || ((c == '?' || c == ':' || c == '-') && isGap rest.head?)

/-- A colon or a hash inside the text reads as an indicator. -/
def containsIndicator (cs : List Char) : Bool :=
  cs.getLast? == some ':' ||
    hasNeighbours (fun a b => (a == ':' && isGap (some b)) || (isGap (some a) && b == '#')) cs

/-- The text contains what can only stand between double quotes: a character that is not
printable, or a space before a break. -/
def needsDouble (cs : List Char) : Bool :=
  cs.any (! isPrintable ·) || hasNeighbours (fun a b => a == ' ' && isBreak b) cs

/-- A single quoted text may not have a space behind a break. -/
def allowsSingle (cs : List Char) : Bool :=
  ! needsDouble cs && ! hasNeighbours (fun a b => isBreak a && b == ' ') cs

/-- A text below a bar may not end with a space. -/
def allowsLiteral (cs : List Char) : Bool := ! needsDouble cs && cs.getLast? != some ' '

/-- A plain text has no breaks, no space at its ends, and nothing that reads as an indicator. -/
def allowsPlain (cs : List Char) : Bool :=
  allowsSingle cs && ! cs.any isBreak && cs.head? != some ' ' && cs.getLast? != some ' ' &&
    ! startsWithMark cs && ! startsWithIndicator cs && ! containsIndicator cs

/-- **The style of a text.** -/
def styleOf (cs : List Char) : Style :=
  if cs.contains '\n' then if allowsLiteral cs then .literal else .double
  else if allowsPlain cs && meaning cs == .text && ! isZeroLed cs then .plain
  else if allowsSingle cs then .single
  else .double

/-! ### Writing -/

/-- The column of a scalar's further lines. -/
def indentChars (indent : Nat) : List Char := List.replicate indent ' '

/-- The letter of a character that is written by a letter between double quotes. -/
def letterOf? (c : Char) : Option Char :=
  match c with
  | '\x00' => some '0'
  | '\x07' => some 'a'
  | '\x08' => some 'b'
  | '\t' => some 't'
  | '\n' => some 'n'
  | '\x0B' => some 'v'
  | '\x0C' => some 'f'
  | '\r' => some 'r'
  | '\x1B' => some 'e'
  | '"' => some '"'
  | '\\' => some '\\'
  | '\x85' => some 'N'
  | '\u2028' => some 'L'
  | '\u2029' => some 'P'
  | _ => none

/-- A character between double quotes. -/
def doubleChar (c : Char) : List Char :=
  match letterOf? c with
  | some l => ['\\', l]
  | none =>
      if isPrintable c then [c]
      else if c.toNat ≤ 0xFF then '\\' :: 'x' :: Digits.padded Digits.capital 2 c.toNat
      else if c.toNat ≤ 0xFFFF then '\\' :: 'u' :: Digits.padded Digits.capital 4 c.toNat
      else '\\' :: 'U' :: Digits.padded Digits.capital 8 c.toNat

/-- A text between double quotes. -/
def doubleChars (cs : List Char) : List Char := '"' :: cs.flatMap doubleChar ++ ['"']

/-- A text behind the opening single quote.  The flag says that a line has just begun. -/
def singleBody (indent : Nat) : (atBreak : Bool) → List Char → List Char
  | atBreak, [] => (if atBreak then indentChars indent else []) ++ ['\'']
  | atBreak, c :: rest =>
      if isBreak c then c :: singleBody indent true rest
      else
        (if atBreak then indentChars indent else []) ++
          (if c == '\'' then ['\'', '\''] else [c]) ++ singleBody indent false rest

/-- A text between single quotes. -/
def singleChars (indent : Nat) (cs : List Char) : List Char := '\'' :: singleBody indent false cs

/-- The lines below a bar.  The flag says that a line has just begun. -/
def literalBody (indent : Nat) : (atBreak : Bool) → List Char → List Char
  | _, [] => []
  | atBreak, c :: rest =>
      if isBreak c then c :: literalBody indent true rest
      else (if atBreak then indentChars indent else []) ++ c :: literalBody indent false rest

/-- The mark that says how many columns further in the lines stand, where they begin blank. -/
def indentMark : List Char → List Char
  | [] => []
  | c :: _ => if c == ' ' || isBreak c then ['2'] else []

/-- The mark that says which breaks at the end belong to the text: none, one, or all. -/
def endMark (cs : List Char) : List Char :=
  match cs.reverse with
  | [] => ['-']
  | c :: before =>
      if ! isBreak c then ['-']
      else if before.isEmpty || before.head?.any isBreak then ['+'] else []

/-- A text below a bar.  The break that ends its last line is left to what follows. -/
def literalChars (indent : Nat) (cs : List Char) : List Char :=
  '|' :: (indentMark cs ++ endMark cs ++ '\n' :: literalBody indent true cs)

/-- **A text as a scalar** whose further lines stand in a given column. -/
def scalarChars (indent : Nat) (s : String) : List Char :=
  let cs := s.toList
  match styleOf cs with
  | .plain => cs
  | .single => singleChars indent cs
  | .double => doubleChars cs
  | .literal => literalChars indent cs

/-- A scalar that ends its last line itself. -/
def endsLine (s : String) : Bool :=
  styleOf s.toList == .literal && s.toList.getLast?.any isBreak

end Yaml

end CaptureConfig

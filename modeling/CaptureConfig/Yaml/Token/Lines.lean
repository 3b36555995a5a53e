/-
**Scalars of whole lines.**

Below a bar each line is kept; below an angle bracket lines are joined unless one of them is
indented further.  Marks behind the sign say which breaks at the end belong to the scalar and how
far its lines are indented; without the latter the first line decides.

Main definitions:

* `Yaml.LinesHeader` — the sign and its marks;
* `Yaml.linesScalar` — a scalar of whole lines.
-/

import CaptureConfig.Number.Digits
import CaptureConfig.Yaml.Cursor

set_option relaxedAutoImplicit false
set_option autoImplicit false

namespace CaptureConfig

namespace Yaml

/-- Which breaks at the end of a scalar belong to it: none, the first, or all. -/
inductive Chomp where
  | strip
  | clip
  | keep
  deriving DecidableEq, Repr

/-- The sign of a scalar of whole lines and its marks; an increment of zero is none. -/
structure LinesHeader where
  joined : Bool
  chomp : Chomp
  increment : Nat
  deriving DecidableEq, Repr

/-- The mark for the breaks at the end, if there is one. -/
def chompMark? (c : Cursor) : Option (Chomp × Cursor) :=
  if c.holds '+' then some (.keep, c.skip)
  else if c.holds '-' then some (.strip, c.skip)
  else none

/-- The mark for the indentation, if there is one; zero is wrong. -/
def incrementMark (c : Cursor) : Option (Nat × Cursor) :=
  match c.peek.bind (Digits.value? 10) with
  | none => some (0, c)
  | some 0 => none
  | some n => some (n, c.skip)

/-- The sign and its marks, in either order. -/
def linesMarks (c : Cursor) : Option (LinesHeader × Cursor) := do
  let joined := c.holds '>'
  let c := c.skip
  match chompMark? c with
  | some (chomp, c) =>
      let (increment, c) ← incrementMark c
      pure (⟨joined, chomp, increment⟩, c)
  | none =>
      let (increment, c) ← incrementMark c
      match if increment = 0 then none else chompMark? c with
      | some (chomp, c) => pure (⟨joined, chomp, increment⟩, c)
      | none => pure (⟨joined, .clip, increment⟩, c)

/-- A place without blanks and a comment up to the end of the line, which has to be reached. -/
def skipLineEnd (c : Cursor) : Option Cursor :=
  let c := c.skipWhile isBlank
  let c := if c.holds '#' then c.skipLine else c
  if c.atLineEnd then some c.skip else none

/-- The sign, its marks, and the rest of their line. -/
def linesHeader (c : Cursor) : Option (LinesHeader × Cursor) := do
  let (h, c) ← linesMarks c
  pure (h, ← skipLineEnd c)

/-- Empty lines, and the spaces of the line behind them up to a given column, or all of them if
none is given: the breaks, the place reached, and the greatest column seen.  A tab among the spaces
is wrong. -/
def emptyLines (indent : Nat) :
    (fuel : Nat) → (breaks : List Char) → (widest : Nat) → Cursor →
    Option (List Char × Nat × Cursor)
  | 0, breaks, widest, c => some (breaks, widest, c)
  | fuel + 1, breaks, widest, c =>
      let spaces := (c.run (· == ' ')).length
      let c := c.skipMany (if indent = 0 then spaces else min spaces (indent - c.column))
      let widest := max widest c.column
      if c.holds '\t' && (indent = 0 || c.column < indent) then none
      else if c.peek.any isBreak then
        emptyLines indent fuel (breaks ++ c.breakChars) widest c.skip
      else some (breaks, widest, c)

/-- The lines of a scalar from a place on, and then the break of the last one, the breaks of empty
lines behind it, and the place reached.  `leading` is the break of the line before, `trailing` the
breaks of empty lines behind it, `indented` whether that line is indented further. -/
def contentLines (joined : Bool) (indent : Nat) :
    (fuel : Nat) → (leading trailing : List Char) → (indented : Bool) → Cursor →
    Option (List Char × List Char × List Char × Cursor)
  | 0, leading, trailing, _, c => some ([], leading, trailing, c)
  | fuel + 1, leading, trailing, indented, c =>
      if c.column = indent ∧ ! c.atEnd then do
        let blank := c.peek.any isBlank
        let joint :=
          if joined && leading == ['\n'] && ! indented && ! blank
          then if trailing.isEmpty then [' '] else []
          else leading
        let line := c.run fun _ => true
        let c := c.skipLine
        -- every line takes a character at least, so the fuel is enough for the empty ones
        let (breaks, _, behind) ← emptyLines indent fuel [] 0 c.skip
        let (text, last, rest, reached) ←
          contentLines joined indent fuel c.breakChars breaks blank behind
        pure (joint ++ trailing ++ line ++ text, last, rest, reached)
      else some ([], leading, trailing, c)

/-- **A scalar of whole lines**, from its sign on, inside a block that is indented to a column (or
inside none, at -1). -/
def linesScalar (block : Int) (c : Cursor) : Option (List Char × Cursor) := do
  let (h, c) ← linesHeader c
  let given := if h.increment = 0 then 0 else (max block 0).toNat + h.increment
  let (breaks, widest, c) ← emptyLines given c.rest.length [] 0 c
  let indent := if given = 0 then max widest (max (block + 1).toNat 1) else given
  let (text, leading, trailing, c) ←
    contentLines h.joined indent (c.rest.length + 1) [] breaks false c
  pure (match h.chomp with
    | .strip => (text, c)
    | .clip => (text ++ leading, c)
    | .keep => (text ++ leading ++ trailing, c))

end Yaml

end CaptureConfig

/-
**Scalars that flow over lines.**

Plain and quoted scalars may go on in further lines.  The gap between two stretches of such a
scalar, blanks and breaks, is kept as it is within a line and folded across lines: a single break
becomes a space, and of several breaks the first is dropped.

Main definitions:

* `Yaml.Gap`, `Yaml.readGap` — what stands between two stretches;
* `Yaml.quotedScalar` — a scalar between quotes;
* `Yaml.plainScalar` — a scalar without quotes.
-/

import CaptureConfig.Number.Digits
import CaptureConfig.Yaml.Cursor

set_option relaxedAutoImplicit false
set_option autoImplicit false

namespace CaptureConfig

namespace Yaml

/-! ### Gaps -/

/-- What stands between two stretches of a scalar: blanks in the first line, the first break unless
it is written to be ignored, and the other breaks. -/
structure Gap where
  blanks : List Char
  hasBreak : Bool
  first : List Char
  others : List Char
  deriving Repr, Inhabited

/-- No gap. -/
def Gap.none : Gap := ⟨[], false, [], []⟩

/-- The gap behind a break that is written to be ignored. -/
def Gap.ignored : Gap := ⟨[], true, [], []⟩

/-- **What a gap counts as.** -/
def Gap.text (g : Gap) : List Char :=
  if ! g.hasBreak then g.blanks
  else if g.first == ['\n'] then if g.others.isEmpty then [' '] else g.others
  else g.first ++ g.others

/-- A gap with one more break. -/
def Gap.addBreak (g : Gap) (chars : List Char) : Gap :=
  if g.hasBreak then { g with others := g.others ++ chars }
  else { g with hasBreak := true, first := chars }

/-- A gap, going on from a part of it.  A tab in one of its further lines is wrong before a given
column. -/
def readGap (tabColumn : Nat) : (fuel : Nat) → Gap → Cursor → Option (Gap × Cursor)
  | 0, g, c => some (g, c)
  | fuel + 1, g, c =>
      match c.peek with
      | none => some (g, c)
      | some ch =>
          if isBreak ch then readGap tabColumn fuel (g.addBreak c.breakChars) c.skip
          else if isBlank ch then
            if g.hasBreak then
              if ch == '\t' && c.column < tabColumn then .none
              else readGap tabColumn fuel g c.skip
            else readGap tabColumn fuel { g with blanks := g.blanks ++ [ch] } c.skip
          else some (g, c)

/-! ### Quoted scalars -/

/-- How a stretch of a quoted scalar ends. -/
inductive StretchEnd where
  | quote
  | gap
  | ignoredBreak
  | wrong
  deriving DecidableEq, Repr

/-- A stretch of a quoted scalar: its characters, how many characters of the text they take, and
how it ends. -/
structure Stretch where
  chars : List Char
  length : Nat
  ending : StretchEnd
  deriving Repr

/-- A stretch with a character in front that takes a number of characters. -/
def Stretch.cons (c : Char) (length : Nat) (s : Stretch) : Stretch :=
  ⟨c :: s.chars, length + s.length, s.ending⟩

/-- A stretch between single quotes; two quotes are one. -/
def singleStretch : List Char → Stretch
  | [] => ⟨[], 0, .gap⟩
  | '\'' :: '\'' :: rest => (singleStretch rest).cons '\'' 2
  | c :: rest =>
      if c == '\'' then ⟨[], 0, .quote⟩
      else if isBlankOrBreak c then ⟨[], 0, .gap⟩
      else (singleStretch rest).cons c 1

/-- The character of a letter behind a backslash. -/
def ofLetter? (c : Char) : Option Char :=
  match c with
  | '0' => some '\x00'
  | 'a' => some '\x07'
  | 'b' => some '\x08'
  | 't' => some '\t'
  | '\t' => some '\t'
  | 'n' => some '\n'
  | 'v' => some '\x0B'
  | 'f' => some '\x0C'
  | 'r' => some '\r'
  | 'e' => some '\x1B'
  | ' ' => some ' '
  | '"' => some '"'
  | '/' => some '/'
  | '\\' => some '\\'
  | 'N' => some '\x85'
  | '_' => some '\xA0'
  | 'L' => some '\u2028'
  | 'P' => some '\u2029'
  | _ => none

/-- The character that digits of base sixteen stand for. -/
def ofHex? (ds : List Char) : Option Char :=
  let n := Digits.toNat 16 ds
  if ! ds.all (Digits.isDigit 16) then none
  else if (0xD800 ≤ n ∧ n ≤ 0xDFFF) ∨ 0x10FFFF < n then none
  else some (Char.ofNat n)

/-- A stretch behind a character that is written in a number of characters, or a wrong one. -/
def behind (c : Option Char) (length : Nat) (s : Stretch) : Stretch :=
  c.elim ⟨[], 0, .wrong⟩ fun c => s.cons c length

/-- A stretch between double quotes. -/
def doubleStretch : List Char → Stretch
  | [] => ⟨[], 0, .gap⟩
  | '\\' :: 'x' :: a :: b :: rest => behind (ofHex? [a, b]) 4 (doubleStretch rest)
  | '\\' :: 'u' :: a :: b :: c :: d :: rest => behind (ofHex? [a, b, c, d]) 6 (doubleStretch rest)
  | '\\' :: 'U' :: a :: b :: c :: d :: e :: f :: g :: h :: rest =>
      behind (ofHex? [a, b, c, d, e, f, g, h]) 10 (doubleStretch rest)
  | '\\' :: c :: rest =>
      if isBreak c then ⟨[], 1, .ignoredBreak⟩ else behind (ofLetter? c) 2 (doubleStretch rest)
  | c :: rest =>
      if c == '"' then ⟨[], 0, .quote⟩
      else if c == '\\' then ⟨[], 0, .wrong⟩
      else if isBlankOrBreak c then ⟨[], 0, .gap⟩
      else (doubleStretch rest).cons c 1

/-- The stretches of a quoted scalar behind a part of it, and the place behind the closing quote. -/
def quotedStretches (stretch : List Char → Stretch) :
    (fuel : Nat) → (before : List Char) → Cursor → Option (List Char × Cursor)
  | 0, _, _ => none
  | fuel + 1, before, c =>
      if c.atMark || c.atEnd then none
      else
        let s := stretch c.rest
        let text := before ++ s.chars
        let c := c.skipMany s.length
        match s.ending with
        | .wrong => none
        | .quote => some (text, c.skip)
        | .gap => do
            let (g, c) ← readGap 0 c.rest.length .none c
            quotedStretches stretch fuel (text ++ g.text) c
        | .ignoredBreak => do
            let (g, c) ← readGap 0 c.rest.length .ignored c.skip
            quotedStretches stretch fuel (text ++ g.text) c

/-- **A scalar between quotes**, from its opening quote on. -/
def quotedScalar (c : Cursor) : Option (List Char × Cursor) :=
  let stretch := if c.holds '\'' then singleStretch else doubleStretch
  quotedStretches stretch (c.rest.length + 1) [] c.skip

/-! ### Plain scalars -/

/-- A stretch of a plain scalar.  The flag says that it runs into a colon that is wrong inside
brackets. -/
def plainStretch (inBrackets : Bool) : List Char → List Char × Bool
  | [] => ([], false)
  | c :: rest =>
      if isBlankOrBreak c then ([], false)
      else if inBrackets && c == ':' && rest.head?.any isFlowIndicator then ([], true)
      else if c == ':' && isGap rest.head? then ([], false)
      else if inBrackets && isFlowIndicator c then ([], false)
      else
        let (chars, wrong) := plainStretch inBrackets rest
        (c :: chars, wrong)

/-- A plain scalar: its text, the place behind it and the gap behind it, and whether that gap
reaches into another line. -/
structure Plain where
  text : List Char
  place : Cursor
  endsLine : Bool
  deriving Repr, Inhabited

/-- The stretches of a plain scalar behind a part of it and a gap.  Outside brackets a further line
has to reach a given column. -/
def plainStretches (inBrackets : Bool) (least : Nat) :
    (fuel : Nat) → (before : List Char) → Gap → Cursor → Option Plain
  | 0, _, _, _ => none
  | fuel + 1, before, g, c =>
      if c.atMark || c.holds '#' then some ⟨before, c, g.hasBreak⟩
      else
        let (chars, wrong) := plainStretch inBrackets c.rest
        if wrong then none
        else
          let (text, g) := if chars.isEmpty then (before, g) else (before ++ g.text ++ chars, .none)
          let c := c.skipMany chars.length
          if ! c.peek.any isBlankOrBreak then some ⟨text, c, g.hasBreak⟩
          else
            match readGap least c.rest.length .none c with
            | none => none
            | some (g, c) =>
                if ! inBrackets && c.column < least then some ⟨text, c, g.hasBreak⟩
                else plainStretches inBrackets least fuel text g c

/-- **A scalar without quotes.** -/
def plainScalar (inBrackets : Bool) (least : Nat) (c : Cursor) : Option Plain :=
  plainStretches inBrackets least (c.rest.length + 1) [] .none c

end Yaml

end CaptureConfig

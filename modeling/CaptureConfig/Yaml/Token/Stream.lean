/-
**The tokens of a text.**

Tokens are taken from the front of a text one after another.  The state between two of them is the
place in the text, the columns of the open blocks, and for every level of brackets the place where
a key may have begun.  A key has to end in its line and within 1024 characters; where a block
demands a key, one that is not completed makes the text wrong.

Where the text is wrong the tokens before that place still count, but for those that wait for a key
to be completed.

Main definitions:

* `Yaml.Stream` — the state between two tokens;
* `Yaml.Stream.fetch` — the next token;
* `Yaml.tokens` — the tokens of a text.
-/

import CaptureConfig.Yaml.Token
import CaptureConfig.Yaml.Token.Flowing

set_option relaxedAutoImplicit false
set_option autoImplicit false

namespace CaptureConfig

namespace Yaml

/-- A key that may have begun. -/
structure KeyBegun where
  /-- The block that it stands in demands a key here. -/
  required : Bool
  /-- The note of its place. -/
  note : Nat
  index : Nat
  line : Nat
  column : Nat
  deriving Repr

/-- The state between two tokens. -/
structure Stream where
  cursor : Cursor
  /-- What has been found, the last one first. -/
  notes : List Noted
  found : List KeyFound
  /-- The number of places noted. -/
  noted : Nat
  /-- The column of the innermost block, -1 outside of blocks. -/
  indent : Int
  /-- The columns of the blocks around it. -/
  outer : List Int
  /-- The number of open brackets. -/
  brackets : Nat
  /-- A key may begin here. -/
  keyAllowed : Bool
  /-- The keys that may have begun, for each level of brackets, the innermost first. -/
  keys : List (Option KeyBegun)

namespace Stream

/-- The state at the start of a text. -/
def start (c : Cursor) : Stream :=
  ⟨c, [], [], 0, -1, [], 0, true, [none]⟩

/-! ### Keys -/

/-- A key that has not ended in its line, or is too long. -/
def isStale (c : Cursor) (k : KeyBegun) : Bool := k.line < c.line || k.index + 1024 < c.index

/-- A key that can still be completed; one that is demanded must not be given up. -/
def refreshKey (c : Cursor) : Option KeyBegun → Option (Option KeyBegun)
  | none => some none
  | some k => if ! isStale c k then some (some k) else if k.required then none else some none

/-- The state without the keys that can no longer be completed. -/
def refresh (s : Stream) : Option Stream := do
  pure { s with keys := ← s.keys.mapM (refreshKey s.cursor) }

/-- The state without the innermost key; one that is demanded must not be given up. -/
def giveUpKey (s : Stream) : Option Stream :=
  match s.keys with
  | some k :: rest => if k.required then none else some { s with keys := none :: rest }
  | _ => some s

/-- The state where a key may have begun at the present place. -/
def beginKey (s : Stream) : Option Stream :=
  if ! s.keyAllowed then some s
  else do
    let s ← s.giveUpKey
    let c := s.cursor
    let k : KeyBegun := ⟨s.brackets == 0 && s.indent == c.column, s.noted, c.index, c.line, c.column⟩
    pure { s with keys := some k :: s.keys.drop 1, noted := s.noted + 1,
                  notes := .keyMayBegin s.noted :: s.notes }

/-! ### Blocks -/

/-- The state with a token more. -/
def add (s : Stream) (t : Token) : Stream := { s with notes := .token t :: s.notes }

/-- The state without the blocks behind a column. -/
def closeTo (column : Int) : (indent : Int) → (outer : List Int) → List Noted →
    Int × List Int × List Noted
  | indent, [], notes => (indent, [], notes)
  | indent, i :: outer, notes =>
      if column < indent then closeTo column i outer (.token .blockEnd :: notes)
      else (indent, i :: outer, notes)

/-- The state without the blocks behind a column; inside brackets there are none to be closed. -/
def closeBlocks (s : Stream) (column : Int) : Stream :=
  if 0 < s.brackets then s
  else
    let (indent, outer, notes) := closeTo column s.indent s.outer s.notes
    { s with indent, outer, notes }

/-- The state with a block in a column, if it is not within that block already; whether it is new. -/
def openBlock (s : Stream) (column : Nat) : Stream × Bool :=
  if s.brackets == 0 && s.indent < column then
    ({ s with indent := column, outer := s.indent :: s.outer }, true)
  else (s, false)

/-- The state with a block in the present column, and the token of its beginning. -/
def openHere (s : Stream) (t : Token) : Stream :=
  let (s, new) := s.openBlock s.cursor.column
  if new then s.add t else s

/-! ### Kinds of tokens -/

/-- A token of some characters. -/
def take (s : Stream) (length : Nat) (t : Token) : Stream :=
  { s with cursor := s.cursor.skipMany length }.add t

/-- A token behind which the text goes on at a place. -/
def goTo (s : Stream) (c : Cursor) (t : Token) : Stream := { s with cursor := c }.add t

/-- The end of the text. -/
def fetchEnd (s : Stream) : Option Stream := do
  let c := s.cursor
  let s := { s with cursor := if c.column = 0 then c else { c with column := 0, line := c.line + 1 } }
  let s ← (s.closeBlocks (-1)).giveUpKey
  pure ({ s with keyAllowed := false }.add .streamEnd)

/-- A directive. -/
def fetchDirective (s : Stream) : Option Stream := do
  let s ← (s.closeBlocks (-1)).giveUpKey
  let (d, c) ← directive s.cursor
  pure ({ s with keyAllowed := false }.goTo c (.directive d))

/-- A mark between documents. -/
def fetchMark (s : Stream) (t : Token) : Option Stream := do
  let s ← (s.closeBlocks (-1)).giveUpKey
  pure ({ s with keyAllowed := false }.take 3 t)

/-- An opening bracket. -/
def fetchOpen (s : Stream) (t : Token) : Option Stream := do
  let s ← s.beginKey
  pure ({ s with keys := none :: s.keys, brackets := s.brackets + 1, keyAllowed := true }.take 1 t)

/-- A closing bracket. -/
def fetchClose (s : Stream) (t : Token) : Option Stream := do
  let s ← s.giveUpKey
  let s := if 0 < s.brackets
    then { s with keys := s.keys.drop 1, brackets := s.brackets - 1 } else s
  pure ({ s with keyAllowed := false }.take 1 t)

/-- A comma. -/
def fetchComma (s : Stream) : Option Stream := do
  let s ← s.giveUpKey
  pure ({ s with keyAllowed := true }.take 1 .comma)

/-- The indicator of an item. -/
def fetchItem (s : Stream) : Option Stream := do
  if s.brackets = 0 ∧ ! s.keyAllowed then none
  else
    let s ← (s.openHere .blockSequence).giveUpKey
    pure ({ s with keyAllowed := true }.take 1 .item)

/-- The indicator of a key. -/
def fetchKey (s : Stream) : Option Stream := do
  if s.brackets = 0 ∧ ! s.keyAllowed then none
  else
    let s ← (s.openHere .blockMapping).giveUpKey
    pure ({ s with keyAllowed := s.brackets == 0 }.take 1 .key)

/-- The indicator of a value behind a key that has begun before. -/
def fetchValueOf (s : Stream) (k : KeyBegun) : Stream :=
  let (s, new) := s.openBlock k.column
  { s with found := ⟨k.note, new⟩ :: s.found, keys := none :: s.keys.drop 1,
           keyAllowed := false }.take 1 .value

/-- The indicator of a value. -/
def fetchValue (s : Stream) : Option Stream :=
  match s.keys with
  | some k :: _ => some (s.fetchValueOf k)
  | _ =>
      if s.brackets = 0 ∧ ! s.keyAllowed then none
      else
        let s := s.openHere .blockMapping
        some ({ s with keyAllowed := s.brackets == 0 }.take 1 .value)

/-- A token that a key may begin with: its place is noted before it is read. -/
def fetchNode (s : Stream) (read : Stream → Option (Token × Cursor)) : Option Stream := do
  let s ← s.beginKey
  let (t, c) ← read s
  pure ({ s with keyAllowed := false }.goTo c t)

/-- A scalar of whole lines. -/
def fetchLines (s : Stream) : Option Stream := do
  let s ← s.giveUpKey
  let written := if s.cursor.holds '|' then Written.lineByLine else .otherwise
  let (text, c) ← linesScalar s.indent s.cursor
  pure ({ s with keyAllowed := true }.goTo c (.scalar text written))

/-- A plain scalar. -/
def fetchPlain (s : Stream) : Option Stream := do
  let s ← s.beginKey
  let p ← plainScalar (0 < s.brackets) (s.indent + 1).toNat s.cursor
  pure ({ s with keyAllowed := p.endsLine }.goTo p.place (.scalar p.text .plainly))

/-- A character that a plain scalar can begin with, before another one. -/
def beginsPlain (inBrackets : Bool) (c : Char) (next : Option Char) : Bool :=
  ! (isBlankOrBreak c || c == '-' || c == '?' || c == ':' || isFrontIndicator c) ||
    (c == '-' && ! next.any isBlank) ||
    (! inBrackets && (c == '?' || c == ':') && ! isGap next)

/-! ### The next token -/

/-- The place without blanks, comments and empty lines in front.  A tab is no blank where it might
be taken for indentation.  The flag says whether a key may begin. -/
def skipIdle (inBrackets : Bool) : (fuel : Nat) → (keyAllowed : Bool) → Cursor → Bool × Cursor
  | 0, keyAllowed, c => (keyAllowed, c)
  | fuel + 1, keyAllowed, c =>
      let c := if c.index = 0 ∧ c.holds byteOrderMark then c.skip else c
      let c := c.skipWhile fun ch => ch == ' ' || ((inBrackets || ! keyAllowed) && ch == '\t')
      let c := if c.holds '#' then c.skipLine else c
      if c.peek.any isBreak then skipIdle inBrackets fuel (keyAllowed || ! inBrackets) c.skip
      else (keyAllowed, c)

/-- The next token at a place where one begins. -/
def fetchAt (s : Stream) (ch : Char) : Option Stream :=
  let c := s.cursor
  let inBrackets := 0 < s.brackets
  let gapNext := isGap c.peekNext
  if c.column = 0 ∧ ch = '%' then s.fetchDirective
  else if c.atMark then s.fetchMark (if ch = '-' then .documentStart else .documentEnd)
  else if ch = '[' then s.fetchOpen .openSequence
  else if ch = '\x7b' then s.fetchOpen .openMapping
  else if ch = ']' then s.fetchClose .closeSequence
  else if ch = '\x7d' then s.fetchClose .closeMapping
  else if ch = ',' then s.fetchComma
  else if ch = '-' ∧ gapNext then s.fetchItem
  else if ch = '?' ∧ (inBrackets ∨ gapNext) then s.fetchKey
  else if ch = ':' ∧ (inBrackets ∨ gapNext) then s.fetchValue
  else if ch = '*' then
    s.fetchNode fun s => (name s.cursor).map fun (n, c) => (.alias n, c)
  else if ch = '&' then
    s.fetchNode fun s => (name s.cursor).map fun (n, c) => (.anchor n, c)
  else if ch = '!' then
    s.fetchNode fun s => (tagToken inBrackets s.cursor).map fun (t, c) => (.tag t, c)
  else if (ch = '|' ∨ ch = '>') ∧ ! inBrackets then s.fetchLines
  else if ch = '\'' ∨ ch = '"' then
    s.fetchNode fun s =>
      (quotedScalar s.cursor).map fun (t, c) => (.scalar t .otherwise, c)
  else if beginsPlain inBrackets ch c.peekNext then s.fetchPlain
  else none

/-- **The next token**, and the tokens of the blocks that end before it. -/
def fetch (s : Stream) : Option Stream := do
  let (keyAllowed, c) :=
    skipIdle (0 < s.brackets) (s.cursor.rest.length + 1) s.keyAllowed s.cursor
  let s ← { s with keyAllowed, cursor := c }.refresh
  let s := s.closeBlocks c.column
  let s ← match c.peek with
    | none => s.fetchEnd
    | some ch => s.fetchAt ch
  s.refresh

/-- The text is at its end. -/
def isDone (s : Stream) : Bool := s.notes.head? == some (.token .streamEnd)

/-! ### All tokens -/

/-- The first note of a key that may still be completed. -/
def firstWaiting (s : Stream) : Option Nat :=
  (s.keys.filterMap fun k => k.map KeyBegun.note).min?

/-- The notes before a given one, if any is given. -/
def before (waiting : Option Nat) (notes : List Noted) : List Noted :=
  match waiting with
  | none => notes
  | some n => notes.takeWhile (· != .keyMayBegin n)

/-- The tokens of a state, in order.  Where the text is wrong, those that wait for a key to be
completed are left out. -/
def outcome (s : Stream) (complete : Bool) : List Token :=
  let notes := s.notes.reverse
  settle s.found (if complete then notes else before s.firstWaiting notes)

/-- The tokens from a state on. -/
def run : (fuel : Nat) → Stream → List Token
  | 0, s => s.outcome false
  | fuel + 1, s =>
      match s.fetch with
      | none => s.outcome false
      | some next => if next.isDone then next.outcome true else run fuel next

end Stream

/-- **The tokens of a text.**  Those of a whole text end with the token of its end. -/
def tokens (cs : List Char) : List Token :=
  Stream.run (cs.length + 2) (Stream.start (Cursor.start cs))

end Yaml

end CaptureConfig

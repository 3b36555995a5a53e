/-
**Reading the strict notation.**

The text is taken apart from its front; every step leaves what is behind the part that it has
taken.  Where the text is wrong the tree is broken, and nothing is left.  Collections may be nested
to a limit where they are read; what is passed over may be nested as deep as it likes.

Main definitions:

* `Json.value` — the tree at the front of a text;
* `Json.limit` — a tree whose used parts are nested to a limit;
* `Json.document`, `Json.read` — the document of a text, and what a reader makes of it.
-/

import CaptureConfig.Json.Number
import CaptureConfig.Json.Unquote
import CaptureConfig.Schema.Reader

set_option relaxedAutoImplicit false
set_option autoImplicit false

namespace CaptureConfig

namespace Json

/-- A blank of the notation. -/
def isBlank (c : Char) : Bool := c == ' ' || c == '\n' || c == '\t' || c == '\r'

/-- A text without the blanks at its front. -/
def skipBlanks (cs : List Char) : List Char := cs.dropWhile isBlank

/-- What is behind a word at the front of a text. -/
def behindWord : (word : List Char) → List Char → Option (List Char)
  | [], cs => some cs
  | _ :: _, [] => none
  | w :: word, c :: cs => if w = c then behindWord word cs else none

/-- A tree, and what is left behind it; behind a broken place nothing is. -/
abbrev Taken := Tree Atom × Option (List Char)

/-- A broken place. -/
def broken : Taken := (.broken, none)

/-- A scalar that is spelled by a word. -/
def word (spelling : String) (a : Atom) (cs : List Char) : Taken :=
  match behindWord spelling.toList cs with
  | some rest => (.scalar a, some rest)
  | none => broken

/-- The text behind an opening quote. -/
def quotedText (cs : List Char) : Taken :=
  match unquote? cs with
  | some (some s, rest) => (.scalar (.text s), some rest)
  | some (none, rest) => (.unreadable, some rest)
  | none => broken

/-- A number. -/
def numberAtom (cs : List Char) : Taken :=
  match numeral? cs with
  | some (n, rest) => ((n.value?).elim .unreadable .scalar, some rest)
  | none => broken

/-- A scalar. -/
def atom : List Char → Taken
  | [] => broken
  | c :: rest =>
      if c = '"' then quotedText rest
      else if c = 'n' then word "ull" .null rest
      else if c = 't' then word "rue" (.bool true) rest
      else if c = 'f' then word "alse" (.bool false) rest
      else if c = '-' ∨ Digits.isDigit 10 c then numberAtom (c :: rest)
      else broken

/-! ### Collections -/

/-- What stands behind an item or an entry: a comma, the closing bracket, or anything else. -/
inductive Next where
  | more (rest : List Char)
  | closed (rest : List Char)
  | wrong

/-- What stands behind an item or an entry of a collection with a given closing bracket. -/
def next (bracket : Char) (cs : List Char) : Next :=
  match skipBlanks cs with
  | [] => .wrong
  | c :: rest => if c = ',' then .more rest else if c = bracket then .closed rest else .wrong

/-- Items or entries with one in front; the first part of the result is missing where the
collection lacks its end. -/
abbrev Listed (α : Type) := List α × Option (List Char)

mutual

/-- **The tree at the front of a text.**  Every step takes a character, so that a text's length is
fuel enough. -/
def value : (fuel : Nat) → List Char → Taken
  | 0, _ => broken
  | fuel + 1, cs =>
      match skipBlanks cs with
      | '[' :: rest =>
          match skipBlanks rest with
          | ']' :: rest => (.seq .none [] true, some rest)
          | _ =>
              let (items, rest) := items fuel rest
              (.seq .none items rest.isSome, rest)
      | '\x7b' :: rest =>
          match skipBlanks rest with
          | '\x7d' :: rest => (.map .none [] true, some rest)
          | _ =>
              let (entries, rest) := entries fuel rest
              (.map .none entries rest.isSome, rest)
      | cs => atom cs

/-- The items up to the closing bracket. -/
def items : (fuel : Nat) → List Char → Listed (Tree Atom)
  | 0, _ => ([.broken], none)
  | fuel + 1, cs =>
      match value fuel cs with
      | (t, none) => ([t], none)
      | (t, some rest) =>
          match next ']' rest with
          | .wrong => ([t], none)
          | .closed rest => ([t], some rest)
          | .more rest =>
              let (ts, rest) := items fuel rest
              (t :: ts, rest)

/-- The entries up to the closing bracket. -/
def entries : (fuel : Nat) → List Char → Listed (Tree Atom × Tree Atom)
  | 0, _ => ([(.broken, .broken)], none)
  | fuel + 1, cs =>
      match skipBlanks cs with
      | '"' :: rest =>
          match quotedText rest with
          | (k, none) => ([(k, .broken)], none)
          | (k, some rest) =>
              match skipBlanks rest with
              | ':' :: rest =>
                  match value fuel rest with
                  | (t, none) => ([(k, t)], none)
                  | (t, some rest) =>
                      match next '\x7d' rest with
                      | .wrong => ([(k, t)], none)
                      | .closed rest => ([(k, t)], some rest)
                      | .more rest =>
                          let (es, rest) := entries fuel rest
                          ((k, t) :: es, rest)
              | _ => ([(k, .broken)], none)
      | _ => ([(.broken, .broken)], none)

end

/-! ### The limit of nesting -/

/-- The text of a key. -/
def keyText : Tree Atom → Option String
  | .scalar (.text s) => some s
  | _ => none

mutual

/-- **A tree whose used parts are nested to a limit**: what is nested deeper cannot be read. -/
def limit (room : Nat) (u : Uses) : Tree Atom → Tree Atom
  | .seq mark items closed =>
      if u.isNothing then .seq mark items closed
      else if room = 0 then .unreadable
      else .seq mark (limitItems (room - 1) u 0 items) closed
  | .map mark entries closed =>
      if u.isNothing then .map mark entries closed
      else if room = 0 then .unreadable
      else .map mark (limitEntries (room - 1) u entries) closed
  | t => t

/-- Items behind a number of others. -/
def limitItems (room : Nat) (u : Uses) (index : Nat) : List (Tree Atom) → List (Tree Atom)
  | [] => []
  | t :: rest => limit room (u.ofIndex index) t :: limitItems room u (index + 1) rest

/-- Entries. -/
def limitEntries (room : Nat) (u : Uses) :
    List (Tree Atom × Tree Atom) → List (Tree Atom × Tree Atom)
  | [] => []
  | (k, t) :: rest => (k, limit room (u.ofKey (keyText k)) t) :: limitEntries room u rest

end

/-- How deep collections may be nested where they are read. -/
def deepest : Nat := 127

/-- **The document of a text**: one value with blanks around it. -/
def document (u : Uses) (s : String) : Document Atom :=
  let cs := s.toList
  let (t, rest) := value (cs.length + 1) cs
  { root := limit deepest u t
    sound := rest.any fun rest => (skipBlanks rest).isEmpty }

/-- **What a reader makes of a text.** -/
def read {α : Type} (r : Reader Atom α) (s : String) : Except Fault α :=
  r.document (document r.uses s)

end Json

end CaptureConfig

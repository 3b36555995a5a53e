/-
**The plain parts of templates.**

Main definitions:

* `Hcl.escape?` — a character behind a backslash;
* `Hcl.Piece`, `Hcl.piece` — the next piece of a template;
* `Hcl.heredoc?` — the lines of a template that ends with a word;
* `Hcl.dedent` — lines without their common indentation.
-/

import CaptureConfig.Hcl.Blank
import CaptureConfig.Hcl.Name
import CaptureConfig.Number.Digits

set_option relaxedAutoImplicit false
set_option autoImplicit false

namespace CaptureConfig

namespace Hcl

/-! ### Characters behind a backslash -/

/-- The character of a letter behind a backslash. -/
def ofLetter? (c : Char) : Option Char :=
  match c with
  | 'n' => some '\n'
  | 'r' => some '\r'
  | 't' => some '\t'
  | 'b' => some '\x08'
  | 'f' => some '\x0C'
  | '"' => some '"'
  | '\\' => some '\\'
  | '/' => some '/'
  | _ => none

/-- The character that digits of base sixteen stand for. -/
def ofHex? (ds : List Char) : Option Char :=
  let n := Digits.toNat 16 ds
  if ! ds.all (Digits.isDigit 16) then none
  else if (0xD800 ≤ n ∧ n ≤ 0xDFFF) ∨ 0x10FFFF < n then none
  else some (Char.ofNat n)

/-- The character that a number of digits stand for, and the text behind them. -/
def ofDigits? (count : Nat) (cs : List Char) : Option (Char × List Char) :=
  if cs.length < count then none
  else (ofHex? (cs.take count)).map fun c => (c, cs.drop count)

/-- **A character behind a backslash**, and the text behind it. -/
def escape? : List Char → Option (Char × List Char)
  | [] => none
  | 'u' :: rest => ofDigits? 4 rest
  | 'U' :: rest => ofDigits? 8 rest
  | c :: rest => (ofLetter? c).map fun c => (c, rest)

/-! ### Pieces -/

/-- The next piece of a template: characters as they are read and as they are written, the
beginning of a part to be filled in or of a directive, the closing quote, or nothing good. -/
inductive Piece where
  | chars (read written rest : List Char)
  | interpolation (rest : List Char)
  | directive (rest : List Char)
  | closed (rest : List Char)
  | ended
  | wrong

/-- **The next piece of a template**, between quotes or in lines. -/
def piece (inQuotes : Bool) : List Char → Piece
  | [] => .ended
  | '$' :: '$' :: '\x7b' :: rest => .chars ['$', '\x7b'] ['$', '$', '\x7b'] rest
  | '%' :: '%' :: '\x7b' :: rest => .chars ['%', '\x7b'] ['%', '%', '\x7b'] rest
  | '$' :: '\x7b' :: rest => .interpolation rest
  | '%' :: '\x7b' :: rest => .directive rest
  | c :: rest =>
      if ! inQuotes then .chars [c] [c] rest
      else if c = '"' then .closed rest
      else if c = '\n' ∨ c = '\r' then .wrong
      else if c = '\\' then
        match escape? rest with
        | some (c, rest) => .chars [c] [c] rest
        | none => .wrong
      else .chars [c] [c] rest

/-! ### Templates of lines -/

/-- The lines of a text, each with its break. -/
def lines : List Char → List (List Char)
  | [] => []
  | '\n' :: rest => ['\n'] :: lines rest
  | c :: rest =>
      match lines rest with
      | [] => [[c]]
      | first :: others => (c :: first) :: others

/-- What is behind the closing word at the front of a line, if it stands there alone. -/
def closing? (word line : List Char) : Option (List Char) :=
  let found := line.dropWhile fun c => c == ' ' || c == '\t'
  if found.take word.length == word && ! (found.drop word.length).head?.any isNameChar
  then some (found.drop word.length) else none

/-- The lines before the closing word, and the text behind it. -/
def untilClosing (word : List Char) : List (List Char) → Option (List (List Char) × List Char)
  | [] => none
  | line :: rest =>
      match closing? word line with
      | some behind => some ([], behind ++ rest.flatten)
      | none => (untilClosing word rest).map fun (ls, behind) => (line :: ls, behind)

/-- The number of spaces and tabs in front of a line. -/
def indentation (line : List Char) : Nat :=
  (line.takeWhile fun c => c == ' ' || c == '\t').length

/-- A line of spaces and tabs only. -/
def isEmptyLine (line : List Char) : Bool :=
  line.all fun c => c == ' ' || c == '\t' || c == '\r' || c == '\n'

/-- **Lines without their common indentation.**  Empty lines do not count. -/
def dedent (ls : List (List Char)) : List (List Char) :=
  let common := (((ls.filter (! isEmptyLine ·)).map indentation).min?).getD 0
  ls.map fun line => line.drop (min common (indentation line))

/-- **The lines of a template that ends with a word**, from the mark in front of that word on, and
the text behind it. -/
def heredoc? (cs : List Char) : Option (List Char × List Char) := do
  let (indented, cs) := match cs with
    | '-' :: rest => (true, rest)
    | cs => (false, cs)
  let (word, cs) ← name? cs
  let cs ← break? cs
  let (ls, behind) ← untilClosing word (lines cs)
  pure ((if indented then dedent ls else ls).flatten, behind)

end Hcl

end CaptureConfig

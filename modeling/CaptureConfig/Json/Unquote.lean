/-
**Reading quoted texts in the strict notation.**

Between quotes a backslash starts a spelling: a letter, or four digits.  Two spellings of four
digits may make up one character; one that lacks its partner is no character, and the text that it
stands in cannot be read, though it can be passed over.

Main definitions:

* `Json.QuotedUnit`, `Json.units?` — the units of a quoted text;
* `Json.joinUnits?` — the characters that units make up;
* `Json.unquote?` — the text behind a quote.
-/

import CaptureConfig.Number.Digits

set_option relaxedAutoImplicit false
set_option autoImplicit false

namespace CaptureConfig

namespace Json

/-- What a quoted text is made of: a character, or a number given by four digits. -/
inductive QuotedUnit where
  | char (c : Char)
  | code (n : Nat)
  deriving DecidableEq, Repr

/-- The character of a letter behind a backslash. -/
def ofLetter? (c : Char) : Option Char :=
  match c with
  | '"' => some '"'
  | '\\' => some '\\'
  | '/' => some '/'
  | 'b' => some '\x08'
  | 'f' => some '\x0C'
  | 'n' => some '\n'
  | 'r' => some '\r'
  | 't' => some '\t'
  | _ => none

/-- A unit in front of others. -/
def withUnit (u : QuotedUnit) (found : Option (List QuotedUnit × List Char)) :
    Option (List QuotedUnit × List Char) :=
  found.map fun (us, rest) => (u :: us, rest)

/-- The units up to the closing quote, and what is behind it.  Control characters must not stand
between quotes. -/
def units? : List Char → Option (List QuotedUnit × List Char)
  | [] => none
  | '"' :: rest => some ([], rest)
  | '\\' :: 'u' :: a :: b :: c :: d :: rest =>
      if [a, b, c, d].all (Digits.isDigit 16)
      then withUnit (.code (Digits.toNat 16 [a, b, c, d])) (units? rest) else none
  | '\\' :: c :: rest => (ofLetter? c).bind fun l => withUnit (.char l) (units? rest)
  | c :: rest =>
      if c = '\\' ∨ c.toNat < 0x20 then none else withUnit (.char c) (units? rest)

/-- The first of two numbers that make up a character. -/
def isHigh (n : Nat) : Bool := 0xD800 ≤ n && n ≤ 0xDBFF

/-- The second of two numbers that make up a character. -/
def isLow (n : Nat) : Bool := 0xDC00 ≤ n && n ≤ 0xDFFF

/-- The character that two numbers make up. -/
def ofPair (high low : Nat) : Char :=
  Char.ofNat (0x10000 + (high - 0xD800) * 0x400 + (low - 0xDC00))

/-- **The characters that units make up.** -/
def joinUnits? : List QuotedUnit → Option (List Char)
  | [] => some []
  | .char c :: rest => (joinUnits? rest).map (c :: ·)
  | .code n :: .code m :: rest =>
      if isHigh n then
        if isLow m then (joinUnits? rest).map (ofPair n m :: ·) else none
      else if isLow n then none
      else (joinUnits? (.code m :: rest)).map (Char.ofNat n :: ·)
  | .code n :: rest =>
      if isHigh n || isLow n then none else (joinUnits? rest).map (Char.ofNat n :: ·)

/-- **The text behind an opening quote**, and what is behind the closing one; the text itself is
missing if it cannot be read. -/
def unquote? (cs : List Char) : Option (Option String × List Char) :=
  (units? cs).map fun (us, rest) => ((joinUnits? us).map String.ofList, rest)

end Json

end CaptureConfig

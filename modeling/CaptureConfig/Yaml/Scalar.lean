/-
**What a plain scalar means.**

A scalar without quotes can be nothing, a truth value, a whole number, a number with a point, or a
text; which one it is depends on its spelling alone.  Whole numbers may be signed and may be
written in the bases 16, 8 and 2; digits behind a leading zero are a text.

Main definitions:

* `Yaml.Meaning` — what a scalar can mean;
* `Yaml.unsigned?`, `Yaml.negative?` — whole numbers;
* `Yaml.float?` — numbers with a point;
* `Yaml.meaning` — the meaning of a plain scalar.
-/

import CaptureConfig.Number.Binary64
import CaptureConfig.Number.Digits

set_option relaxedAutoImplicit false
set_option autoImplicit false

namespace CaptureConfig

namespace Yaml

/-- What a scalar can mean. -/
inductive Meaning where
  | null
  | bool (b : Bool)
  | int (i : Int)
  | float (f : Binary64)
  | text
  deriving DecidableEq, Repr

/-- A word for nothing. -/
def isNullWord (cs : List Char) : Bool := ["~", "null", "Null", "NULL"].any fun w => w.toList == cs

/-- No characters at all, or a word for nothing. -/
def isNull (cs : List Char) : Bool := cs.isEmpty || isNullWord cs

/-- The truth value that a spelling means. -/
def bool? (cs : List Char) : Option Bool :=
  if ["true", "True", "TRUE"].any (fun w => w.toList == cs) then some true
  else if ["false", "False", "FALSE"].any (fun w => w.toList == cs) then some false
  else none

/-! ### Whole numbers -/

/-- A text without a character at its front. -/
def withoutFront (c : Char) : List Char → Option (List Char)
  | [] => none
  | d :: rest => if d = c then some rest else none

/-- A text without a given sign at its front, if it has one. -/
def withoutSign (isSign : Char → Bool) : List Char → List Char
  | [] => []
  | c :: rest => if isSign c then rest else c :: rest

/-- A plus or a minus. -/
def isSign (c : Char) : Bool := c == '+' || c == '-'

/-- Digits behind a leading zero: no number. -/
def isZeroLed (cs : List Char) : Bool :=
  match withoutSign isSign cs with
  | '0' :: c :: rest => (c :: rest).all (Digits.isDigit 10)
  | _ => false

/-- A whole number without sign, in base 16, 8, 2 or 10. -/
def magnitude? : List Char → Option Nat
  | '0' :: 'x' :: rest => Digits.whole? 16 rest
  | '0' :: 'o' :: rest => Digits.whole? 8 rest
  | '0' :: 'b' :: rest => Digits.whole? 2 rest
  | cs => if isZeroLed cs then none else Digits.whole? 10 cs

/-- A whole number that is not negative, possibly behind a plus. -/
def unsigned? (cs : List Char) : Option Nat := magnitude? (withoutSign (· == '+') cs)

/-- The size of a whole number behind a minus. -/
def negative? (cs : List Char) : Option Nat := (withoutFront '-' cs).bind magnitude?

/-- A whole number of at most 128 bits. -/
def int? (cs : List Char) : Option Int :=
  match (unsigned? cs).filter (· < Nat.pow 2 128) with
  | some n => some n
  | none => ((negative? cs).filter (· ≤ Nat.pow 2 127)).map fun n => - (n : Int)

/-! ### Numbers with a point -/

/-- A power of ten at the end of a number: nothing, or a mark, a sign and digits. -/
def power? : List Char → Option Int
  | [] => some 0
  | c :: rest =>
      if c = 'e' ∨ c = 'E' then
        match rest with
        | '-' :: ds => (Digits.whole? 10 ds).map fun n => - (n : Int)
        | '+' :: ds => (Digits.whole? 10 ds).map fun n => (n : Int)
        | ds => (Digits.whole? 10 ds).map fun n => (n : Int)
      else none

/-- A number without sign: digits with or without a point, at least one of them, and a power. -/
def decimal? (negative : Bool) (cs : List Char) : Option Binary64 :=
  let (whole, rest) := Digits.span 10 cs
  let (places, rest) := match rest with
    | '.' :: rest => Digits.span 10 rest
    | rest => ([], rest)
  if whole = [] ∧ places = [] then none
  else (power? rest).map fun power =>
    Binary64.ofDecimal negative (Digits.toNat 10 (whole ++ places)) (power - places.length)

/-- A number with or without sign, within the range of the format. -/
def finite? (cs : List Char) : Option Binary64 :=
  (match cs with
    | '-' :: rest => decimal? true rest
    | '+' :: rest => decimal? false rest
    | rest => decimal? false rest).filter Binary64.isFinite

/-- One of several words. -/
def spells (words : List String) (cs : List Char) : Bool := words.any fun w => w.toList == cs

/-- A number in its spelling for plain scalars; there may be one sign. -/
def float? (cs : List Char) : Option Binary64 :=
  let unsigned := withoutSign (· == '+') cs
  if unsigned.length < cs.length && (unsigned.head?.any isSign) then none
  else if spells [".inf", ".Inf", ".INF"] unsigned then some (.infinite false)
  else if spells ["-.inf", "-.Inf", "-.INF"] cs then some (.infinite true)
  else if spells [".nan", ".NaN", ".NAN"] cs then some .nan
  else finite? unsigned

/-- **The meaning of a plain scalar.** -/
def meaning (cs : List Char) : Meaning :=
  if isNull cs then .null
  else match bool? cs with
    | some b => .bool b
    | none =>
        match int? cs with
        | some i => .int i
        | none =>
            match if isZeroLed cs then none else float? cs with
            | some f => .float f
            | none => .text

end Yaml

end CaptureConfig

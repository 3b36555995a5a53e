/-
**Numbers in the strict notation.**

A number is whole as long as it has neither point nor power and fits 64 bits; else it is the
product or the quotient of its digits and a power of ten, both rounded.  Of digits that do not fit
64 bits only the first ones count.

Main definitions:

* `Json.Numeral` — the parts of a number;
* `Json.numeral?` — the number at the front of a text;
* `Json.Numeral.value?` — its value, if it has one.
-/

import CaptureConfig.Json.Atom

set_option relaxedAutoImplicit false
set_option autoImplicit false

namespace CaptureConfig

namespace Json

/-- The parts of a number.  A missing fraction has no digits, a missing power is `none`. -/
structure Numeral where
  negative : Bool
  whole : List Char
  fraction : List Char
  power : Option Int
  deriving DecidableEq, Repr

/-! ### Spelling -/

/-- Digits, at least one, at the front of a text. -/
def digits? (cs : List Char) : Option (List Char × List Char) :=
  match Digits.span 10 cs with
  | ([], _) => none
  | found => some found

/-- The digits before the point: no leading zero but a single one. -/
def whole? (cs : List Char) : Option (List Char × List Char) := do
  let (ds, rest) ← digits? cs
  if ds.head? = some '0' ∧ ds.length ≠ 1 then none else some (ds, rest)

/-- The digits behind the point, if there is one. -/
def fraction? : List Char → Option (List Char × List Char)
  | '.' :: rest => digits? rest
  | rest => some ([], rest)

/-- The power of ten behind its mark. -/
def signedPower? : List Char → Option (Int × List Char)
  | '-' :: rest => (digits? rest).map fun (ds, rest) => (- (Digits.toNat 10 ds : Int), rest)
  | '+' :: rest => (digits? rest).map fun (ds, rest) => ((Digits.toNat 10 ds : Int), rest)
  | rest => (digits? rest).map fun (ds, rest) => ((Digits.toNat 10 ds : Int), rest)

/-- The power of ten, if there is one. -/
def power? : List Char → Option (Option Int × List Char)
  | c :: rest =>
      if c = 'e' ∨ c = 'E' then (signedPower? rest).map fun (p, rest) => (some p, rest)
      else some (none, c :: rest)
  | [] => some (none, [])

/-- A number without sign at the front of a text. -/
def unsignedNumeral? (negative : Bool) (cs : List Char) : Option (Numeral × List Char) := do
  let (whole, rest) ← whole? cs
  let (fraction, rest) ← fraction? rest
  let (power, rest) ← power? rest
  pure (⟨negative, whole, fraction, power⟩, rest)

/-- **The number at the front of a text.** -/
def numeral? : List Char → Option (Numeral × List Char)
  | '-' :: rest => unsignedNumeral? true rest
  | rest => unsignedNumeral? false rest

/-! ### Value -/

/-- Digits behind a number as long as they fit 64 bits, and how many they are. -/
def gather : (n count : Nat) → List Char → Nat × Nat
  | n, count, [] => (n, count)
  | n, count, c :: rest =>
      let next := n * 10 + (Digits.value? 10 c).getD 0
      if next < Nat.pow 2 64 then gather next (count + 1) rest else (n, count)

/-- The greatest power of ten that a number can be multiplied with at once. -/
def greatestPower : Nat := 308

/-- A power of ten, rounded. -/
def powerOfTen (k : Nat) : Binary64 := Binary64.ofRatio false (Nat.pow 10 k) 1

/-- A number divided by ten to a power, in steps. -/
def divided : (steps : Nat) → Binary64 → Nat → Binary64
  | 0, f, _ => f
  | steps + 1, f, k =>
      if k ≤ greatestPower then f.div (powerOfTen k)
      else if f.isZero then f
      else divided steps (f.div (powerOfTen greatestPower)) (k - greatestPower)

/-- A number times a power of ten; beyond the range of the format there is none. -/
def scaled? (f : Binary64) : Int → Option Binary64
  | .ofNat k =>
      if k ≤ greatestPower then some (f.mul (powerOfTen k)) |>.filter Binary64.isFinite
      else if f.isZero then some f else none
  | .negSucc k => some (divided 4 f (k + 1))

/-- The value of a number that is not whole, or too large. -/
def Numeral.float? (n : Numeral) : Option Binary64 :=
  let (whole, taken) := gather 0 0 n.whole
  let left : Int := n.whole.length - taken
  let (all, places) := gather whole 0 n.fraction
  let f := Binary64.ofRatio false all 1
  (scaled? f (left - places + n.power.getD 0)).map fun f => if n.negative then f.neg else f

/-- A number that is written without point and power. -/
def Numeral.isPlain (n : Numeral) : Bool := n.fraction.isEmpty && n.power.isNone

/-- The value of a whole number that fits 64 bits.  Minus zero is none. -/
def Numeral.int? (n : Numeral) : Option Int :=
  let m := Digits.toNat 10 n.whole
  if ! n.isPlain then none
  else if n.negative then if 0 < m ∧ m ≤ Nat.pow 2 63 then some (- (m : Int)) else none
  else if m < Nat.pow 2 64 then some m else none

/-- **The value of a number**, unless it is beyond the range of the format. -/
def Numeral.value? (n : Numeral) : Option Atom :=
  match n.int? with
  | some i => some (.int i)
  | none => n.float?.map .float

end Json

end CaptureConfig

/-
**The fewest digits that read back.**

A floating point number stands for every quotient that rounds to it.  Of the decimal numbers among
them one with the fewest digits is written, and of those the nearest.  Looking for it takes the
numbers of one digit, then of two, and so on; for each count of digits only the two neighbours of
the number on that decimal grid have to be tried.

How the digits are set out is a matter of style: where the point may stand among them, and how a
power of ten is marked.

Main definitions:

* `Shortest.digits` — the digits and the place of the point;
* `Shortest.Style`, `Shortest.text` — the text of a number in a style;
* `Shortest.inspected`, `Shortest.plain`, `Shortest.signed` — the styles in use.
-/

import CaptureConfig.Number.Binary64
import CaptureConfig.Number.Digits

set_option relaxedAutoImplicit false
set_option autoImplicit false

namespace CaptureConfig

namespace Shortest

/-- The quotients that round to a number, as numerators over one denominator: the number itself,
the lower and the upper end, and whether the ends belong to it. -/
structure Interval where
  denominator : Nat
  value : Nat
  low : Nat
  high : Nat
  closed : Bool

/-- The quotients that round to `mantissa * 2 ^ exponent`. -/
def Interval.of (mantissa : Nat) (exponent : Int) : Interval :=
  -- in quarters of the last place; below a power of two the step down is half as wide
  let stepDown := if mantissa = Nat.pow 2 52 ∧ Binary64.leastExponent < exponent then 1 else 2
  let quarters := exponent - 2
  let (factor, den) := Binary64.scaleRatio 1 1 quarters
  { denominator := den
    value := 4 * mantissa * factor
    low := (4 * mantissa - stepDown) * factor
    high := (4 * mantissa + 2) * factor
    closed := mantissa % 2 = 0 }

/-- A point `n * 10 ^ power` of a decimal grid, as a ratio. -/
def gridPoint (n : Nat) : Int → Nat × Nat
  | .ofNat k => (n * Nat.pow 10 k, 1)
  | .negSucc k => (n, Nat.pow 10 (k + 1))

/-- Whether a point of a decimal grid belongs to an interval. -/
def Interval.holds (i : Interval) (n : Nat) (power : Int) : Bool :=
  let (a, b) := gridPoint n power
  let x := a * i.denominator
  if i.closed then i.low * b ≤ x && x ≤ i.high * b else i.low * b < x && x < i.high * b

/-- The largest point of a decimal grid that is not above the number. -/
def Interval.floor (i : Interval) (power : Int) : Nat :=
  let (a, b) := gridPoint 1 power
  i.value * b / (i.denominator * a)

/-- Whether the number is at most half way from a point of a grid to the next. -/
def Interval.nearLower (i : Interval) (n : Nat) (power : Int) : Bool :=
  let (a, b) := gridPoint (2 * n + 1) power
  let twice := 2 * i.value * b
  let middle := a * i.denominator
  twice < middle || (twice == middle && n % 2 == 0)

/-- The place of the point: the least `p` with the number below `10 ^ p`, looked for downwards. -/
def Interval.pointFrom (i : Interval) : Nat → Int → Int
  | 0, p => p
  | fuel + 1, p => if i.floor (p - 1) = 0 then i.pointFrom fuel (p - 1) else p

/-- The place of the point of a nonzero number. -/
def Interval.point (i : Interval) : Int := i.pointFrom 700 310

/-- The first count of digits, from `count` on, at which a neighbour belongs to the interval. -/
def Interval.search (i : Interval) (p : Int) : (fuel : Nat) → (count : Nat) → Nat × Int
  | 0, count => (i.floor (p - count), p - count)
  | fuel + 1, count =>
      let power := p - count
      let n := i.floor power
      match i.holds n power, i.holds (n + 1) power with
      | true, true => if i.nearLower n power then (n, power) else (n + 1, power)
      | true, false => (n, power)
      | false, true => (n + 1, power)
      | false, false => i.search p fuel (count + 1)

/-- A number without the zeros at its end. -/
def dropZeros (digits : List Char) : List Char := (digits.reverse.dropWhile (· == '0')).reverse

/-- **The digits of a nonzero number**, without zeros at the end, and the place of the point: a
point `p` means `0.d₁d₂… * 10 ^ p`. -/
def digits (mantissa : Nat) (exponent : Int) : List Char × Int :=
  let i := Interval.of mantissa exponent
  let (n, power) := i.search i.point 17 1
  let ds := Digits.ofNat n
  (dropZeros ds, power + ds.length)

/-! ### Setting out -/

/-- How digits are set out: between which places the point may stand among them or among zeros
added to them (no bounds: always), and whether a positive power is marked by a plus. -/
structure Style where
  places : Option (Int × Int)
  plus : Bool

/-- The style of unknown properties: a point from `0.0001` up to below `10 ^ 16`. -/
def inspected : Style := ⟨some (-3, 16), false⟩

/-- The style without powers. -/
def plain : Style := ⟨none, false⟩

/-- The style of the strict notation's complaints: powers carry their sign. -/
def signed : Style := ⟨some (-4, 16), true⟩

/-- Digits with a point among them. -/
def positional (ds : List Char) : Int → List Char
  | .ofNat 0 => '0' :: '.' :: ds
  | .ofNat p =>
      if ds.length ≤ p then ds ++ List.replicate (p - ds.length) '0' ++ ['.', '0']
      else ds.take p ++ '.' :: ds.drop p
  | .negSucc k => '0' :: '.' :: (List.replicate (k + 1) '0' ++ ds)

/-- Digits with a point behind the first, and a power of ten. -/
def scientific (style : Style) (ds : List Char) (p : Int) : List Char :=
  let point := if ds.length ≤ 1 then ds else ds.take 1 ++ '.' :: ds.drop 1
  let power := p - 1
  point ++ 'e' :: ((if style.plus && 0 ≤ power then ['+'] else []) ++ Digits.ofInt power)

/-- **The text of a number in a style.** -/
def text (style : Style) : Binary64 → String
  | .nan => "NaN"
  | .infinite s => if s then "-inf" else "inf"
  | .finite s 0 _ => if s then "-0.0" else "0.0"
  | .finite s m e =>
      let (ds, p) := digits m e
      let body := match style.places with
        | none => positional ds p
        | some (least, most) =>
            if least ≤ p ∧ p ≤ most then positional ds p else scientific style ds p
      String.ofList (if s then '-' :: body else body)

end Shortest

end CaptureConfig

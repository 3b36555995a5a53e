/-
**Binary floating point numbers of 64 bits.**

A finite number is a mantissa times a power of two.  All arithmetic here is on natural numbers:
a quotient is rounded to the nearest number that has a mantissa of 53 bits and an exponent of at
least -1074, a tie going to the even mantissa.

Main definitions:

* `Binary64` — the numbers;
* `Binary64.ofRatio` — the number nearest to a quotient;
* `Binary64.ofDecimal` — the number nearest to digits times a power of ten;
* `Binary64.mul`, `Binary64.div` — rounded products and quotients;
* `Binary64.sameValue` — equality of values, where the two zeros are one and nothing differs from
  itself.
-/

set_option relaxedAutoImplicit false
set_option autoImplicit false

namespace CaptureConfig

/-- A binary floating point number of 64 bits.  A finite one is `mantissa * 2 ^ exponent`. -/
inductive Binary64 where
  | nan
  | infinite (negative : Bool)
  | finite (negative : Bool) (mantissa : Nat) (exponent : Int)
  deriving DecidableEq, Repr

namespace Binary64

/-- The least exponent. -/
def leastExponent : Int := -1074

/-- The greatest exponent. -/
def greatestExponent : Int := 971

/-- A zero. -/
def zero (negative : Bool) : Binary64 := .finite negative 0 leastExponent

/-- A ratio times a power of two, as a ratio. -/
def scaleRatio (num den : Nat) (power : Int) : Nat × Nat :=
  match power with
  | .ofNat k => (num * Nat.pow 2 k, den)
  | .negSucc k => (num, den * Nat.pow 2 (k + 1))

/-- A quotient rounded to a whole number, a tie going to the even one. -/
def roundQuotient (num den : Nat) : Nat :=
  let q := num / den
  let r := num % den
  if 2 * r < den then q
  else if den < 2 * r then q + 1
  else if q % 2 = 0 then q else q + 1

/-- The exponent at which a nonzero quotient has a mantissa of 53 bits, or the least exponent. -/
def exponentOf (num den : Nat) : Int :=
  let e : Int := (Nat.log2 num : Int) - Nat.log2 den - 52
  let (n, d) := scaleRatio num den (-e)
  let e := if n / d < Nat.pow 2 52 then e - 1 else e
  if e < leastExponent then leastExponent else e

/-- **The number nearest to a quotient**; a quotient beyond the greatest number is infinite. -/
def ofRatio (negative : Bool) (num den : Nat) : Binary64 :=
  if num = 0 ∨ den = 0 then zero negative
  else
    let e := exponentOf num den
    let (n, d) := scaleRatio num den (-e)
    let m := roundQuotient n d
    let (m, e) := if m = Nat.pow 2 53 then (Nat.pow 2 52, e + 1) else (m, e)
    if greatestExponent < e then .infinite negative else .finite negative m e

/-- The number nearest to `digits * 10 ^ power`.  Powers beyond the range of the format are cut
off first, which changes nothing but the size of the intermediate numbers. -/
def ofDecimal (negative : Bool) (digits : Nat) (power : Int) : Binary64 :=
  if digits = 0 then zero negative
  else
    let size : Int := Nat.log2 digits
    match power with
    | .ofNat k =>
        if 400 < k then .infinite negative else ofRatio negative (digits * Nat.pow 10 k) 1
    | .negSucc k =>
        -- below a third of the power in bits, and 400 digits further down, nothing is left
        if size < (k : Int) * 3 - 1500 then zero negative
        else ofRatio negative digits (Nat.pow 10 (k + 1))

/-- The ratio of the size of a finite number. -/
def toRatio (mantissa : Nat) (exponent : Int) : Nat × Nat := scaleRatio mantissa 1 exponent

/-- The product of two finite numbers, rounded. -/
def mul : Binary64 → Binary64 → Binary64
  | .finite s m e, .finite t n f =>
      let (a, b) := toRatio m e
      let (c, d) := toRatio n f
      ofRatio (s != t) (a * c) (b * d)
  | _, _ => .nan

/-- The quotient of two finite numbers, rounded. -/
def div : Binary64 → Binary64 → Binary64
  | .finite s m e, .finite t n f =>
      let (a, b) := toRatio m e
      let (c, d) := toRatio n f
      ofRatio (s != t) (a * d) (b * c)
  | _, _ => .nan

/-- A zero of either sign. -/
def isZero : Binary64 → Bool
  | .finite _ 0 _ => true
  | _ => false

/-- A number with the sign turned. -/
def neg : Binary64 → Binary64
  | .nan => .nan
  | .infinite s => .infinite (! s)
  | .finite s m e => .finite (! s) m e

/-- A finite number. -/
def isFinite : Binary64 → Bool
  | .finite _ _ _ => true
  | _ => false

/-- Equality of values: the two zeros are one, and what is not a number equals itself. -/
def sameValue : Binary64 → Binary64 → Bool
  | .finite _ 0 _, .finite _ 0 _ => true
  | a, b => a == b

end Binary64

end CaptureConfig

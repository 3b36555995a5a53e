/-
**Natural numbers and their digits.**

Numbers are read from and written as digits, most significant first, in a base of at most sixteen.
Writing a number never gives a leading zero; reading accepts them, and each format says for itself
whether it does.

Main definitions:

* `Digits.value?` — the value of a digit in a base;
* `Digits.ofNat` — the digits of a number;
* `Digits.toNat` — the number that a list of digits stands for;
* `Digits.span` — the digits at the front of a text.
-/

set_option relaxedAutoImplicit false
set_option autoImplicit false

namespace CaptureConfig

namespace Digits

/-- The value of a character as a digit up to `f`, in either case. -/
def hexValue? (c : Char) : Option Nat :=
  if '0' ≤ c ∧ c ≤ '9' then some (c.toNat - 0x30)
  else if 'a' ≤ c ∧ c ≤ 'f' then some (c.toNat - 0x57)
  else if 'A' ≤ c ∧ c ≤ 'F' then some (c.toNat - 0x37)
  else none

/-- The value of a character as a digit in a base of at most sixteen. -/
def value? (base : Nat) (c : Char) : Option Nat := (hexValue? c).filter (· < base)

/-- A digit in a base. -/
def isDigit (base : Nat) (c : Char) : Bool := (value? base c).isSome

/-- The character of a digit below sixteen, in small letters. -/
def char (n : Nat) : Char := Char.ofNat (if n < 10 then 0x30 + n else 0x57 + n)

/-- The character of a digit below sixteen, in capitals. -/
def capital (n : Nat) : Char := Char.ofNat (if n < 10 then 0x30 + n else 0x37 + n)

/-- The digits of a number in a base of at least two. -/
def inBase (base n : Nat) : List Char :=
  if _h : n < base ∨ base < 2 then [char n]
  else inBase base (n / base) ++ [char (n % base)]
termination_by n
decreasing_by
  have : 2 ≤ base := by omega
  exact Nat.div_lt_self (by omega) (by omega)

/-- The decimal digits of a number. -/
def ofNat (n : Nat) : List Char := inBase 10 n

/-- The decimal digits of an integer, behind a minus sign if it is negative. -/
def ofInt : Int → List Char
  | .ofNat n => ofNat n
  | .negSucc n => '-' :: ofNat (n + 1)

/-- The decimal text of a number. -/
def text (n : Nat) : String := String.ofList (ofNat n)

/-- The decimal text of an integer. -/
def intText (i : Int) : String := String.ofList (ofInt i)

/-- The lowest `width` digits of a number in base sixteen, by a choice of letters. -/
def padded (letter : Nat → Char) : Nat → Nat → List Char
  | 0, _ => []
  | width + 1, n => padded letter width (n / 16) ++ [letter (n % 16)]

/-- The number that a list of digits stands for; what is no digit counts as zero. -/
def toNat (base : Nat) (cs : List Char) : Nat :=
  cs.foldl (fun n c => n * base + (value? base c).getD 0) 0

/-- The digits at the front of a text, and what is behind them. -/
def span (base : Nat) (cs : List Char) : List Char × List Char :=
  (cs.takeWhile (isDigit base), cs.dropWhile (isDigit base))

/-- A number of at least one digit and nothing else. -/
def whole? (base : Nat) (cs : List Char) : Option Nat :=
  if cs ≠ [] ∧ cs.all (isDigit base) then some (toNat base cs) else none

end Digits

end CaptureConfig

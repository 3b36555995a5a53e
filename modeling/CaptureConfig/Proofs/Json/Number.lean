/-
**Spellings of numbers.**

Strict notation spells a number with a sign, digits, a fraction, and a power of ten.  Whatever is
spelled so is taken apart into its parts again, as long as nothing goes on with the number behind it;
digits alone are the spelling of whole numbers.

Main definitions:

* `Json.EndsNumber` — a text does not go on with a number that ends before it;
* `Json.Literal` — **the spelling of a number**;
* `Json.Literal.ofInt` — the spelling of a whole number.

Main results:

* `Json.Literal.numeral?_append` — **a spelling is taken apart into its parts**.
-/

import CaptureConfig.Json.Number
import CaptureConfig.Proofs.Number.Digits

set_option relaxedAutoImplicit false
set_option autoImplicit false

namespace CaptureConfig

namespace Json

/-! ### Behind a number -/

/-- A text that does not go on with a number that ends before it. -/
def EndsNumber (rest : List Char) : Prop :=
  ∀ c ∈ rest.head?, Digits.isDigit 10 c = false ∧ c ≠ '.' ∧ c ≠ 'e' ∧ c ≠ 'E'

theorem endsNumber_nil : EndsNumber [] := by
  intro c hc
  exact absurd hc (by simp)

/-- A bracket or a comma is no part of a number. -/
theorem endsNumber_cons {c : Char} (hc : c ∈ [',', ']', '\x7d']) (rest : List Char) :
    EndsNumber (c :: rest) := by
  rintro d ⟨⟩
  simp only [List.mem_cons, List.not_mem_nil, or_false] at hc
  obtain rfl | rfl | rfl := hc <;> decide

/-! ### Spellings -/

/-- Digits, at least one. -/
structure IsDigits (ds : List Char) : Prop where
  ne_nil : ds ≠ []
  isDigit : ∀ c ∈ ds, Digits.isDigit 10 c = true

theorem isDigits_ofNat (n : Nat) : IsDigits (Digits.ofNat n) :=
  ⟨Digits.ofNat_ne_nil n, fun _ => Digits.isDigit_of_mem_ofNat⟩

theorem IsDigits.exists_cons {ds : List Char} (h : IsDigits ds) :
    ∃ c cs, ds = c :: cs ∧ Digits.isDigit 10 c = true := by
  obtain ⟨c, cs, rfl⟩ := List.exists_cons_of_ne_nil h.ne_nil
  exact ⟨c, cs, rfl, h.isDigit c List.mem_cons_self⟩

/-- The sign of a power of ten, if it has one. -/
inductive PowerSign where
  | none
  | plus
  | minus
  deriving DecidableEq, Repr

/-- The characters of a sign. -/
def PowerSign.chars : PowerSign → List Char
  | none => []
  | plus => ['+']
  | minus => ['-']

/-- The spelling of a power of ten behind a number. -/
structure Power where
  capital : Bool
  sign : PowerSign
  digits : List Char
  isDigits : IsDigits digits

namespace Power

/-- The characters of a power, behind its mark. -/
def chars (p : Power) : List Char :=
  (if p.capital then 'E' else 'e') :: (p.sign.chars ++ p.digits)

/-- The power of ten that is spelled. -/
def value (p : Power) : Int :=
  match p.sign with
  | .minus => - (Digits.toNat 10 p.digits : Int)
  | _ => Digits.toNat 10 p.digits

end Power

/-- **The spelling of a number**: a sign, digits without a leading zero but a single one, digits
behind a point, and a power of ten. -/
structure Literal where
  negative : Bool
  whole : List Char
  fraction : Option (List Char)
  power : Option Power
  isDigits : IsDigits whole
  zero : whole.head? = some '0' → whole.length = 1
  fraction_isDigits : ∀ ds ∈ fraction, IsDigits ds

namespace Literal

/-- What stands behind the digits of a number. -/
def tail (l : Literal) : List Char :=
  l.fraction.elim [] (fun ds => '.' :: ds) ++ l.power.elim [] Power.chars

/-- **The characters of a spelling.** -/
def chars (l : Literal) : List Char :=
  (if l.negative then ['-'] else []) ++ (l.whole ++ l.tail)

/-- The parts of a spelling. -/
def numeral (l : Literal) : Numeral :=
  ⟨l.negative, l.whole, l.fraction.getD [], l.power.map Power.value⟩

/-- The spelling of a number that is not negative. -/
def ofNat (negative : Bool) (n : Nat) : Literal where
  negative := negative
  whole := Digits.ofNat n
  fraction := none
  power := none
  isDigits := isDigits_ofNat n
  zero := Digits.length_ofNat_eq_one
  fraction_isDigits := nofun

/-- **The spelling of a whole number.** -/
def ofInt : Int → Literal
  | .ofNat n => ofNat false n
  | .negSucc n => ofNat true (n + 1)

theorem chars_ofInt (i : Int) : (ofInt i).chars = Digits.ofInt i := by
  cases i with
  | ofNat n => exact List.append_nil _
  | negSucc n => exact congrArg (List.cons '-') (List.append_nil _)

/-! ### Taking a number apart -/

section

variable {ds rest : List Char}

theorem digits?_append (hds : IsDigits ds) (h : ∀ c ∈ rest.head?, Digits.isDigit 10 c = false) :
    digits? (ds ++ rest) = some (ds, rest) := by
  obtain ⟨c, cs, rfl, -⟩ := hds.exists_cons
  rw [digits?, Digits.span_append hds.isDigit h]

theorem whole?_append (hds : IsDigits ds) (hzero : ds.head? = some '0' → ds.length = 1)
    (h : ∀ c ∈ rest.head?, Digits.isDigit 10 c = false) :
    whole? (ds ++ rest) = some (ds, rest) := by
  rw [whole?, digits?_append hds h]
  exact if_neg fun hlong => hlong.2 (hzero hlong.1)

/-- A power stands behind a number without being a part of its digits. -/
theorem head?_power_append (power : Option Power) (h : EndsNumber rest) :
    ∀ c ∈ (power.elim [] Power.chars ++ rest).head?, Digits.isDigit 10 c = false ∧ c ≠ '.' := by
  cases power with
  | none => exact fun c hc => ⟨(h c hc).1, (h c hc).2.1⟩
  | some p =>
      rintro c ⟨⟩
      cases p.capital <;> decide

theorem fraction?_append {fraction : Option (List Char)} (hfraction : ∀ ds ∈ fraction, IsDigits ds)
    (h : ∀ c ∈ rest.head?, Digits.isDigit 10 c = false ∧ c ≠ '.') :
    fraction? (fraction.elim [] (fun ds => '.' :: ds) ++ rest) =
      some (fraction.getD [], rest) := by
  cases fraction with
  | none =>
      show fraction? rest = _
      rw [fraction?]
      · rfl
      · rintro r rfl
        exact (h '.' rfl).2 rfl
  | some ds => exact digits?_append (hfraction ds rfl) fun c hc => (h c hc).1

theorem signedPower?_append (p : Power) (h : EndsNumber rest) :
    signedPower? (p.sign.chars ++ (p.digits ++ rest)) = some (p.value, rest) := by
  have hdigits := digits?_append p.isDigits fun c hc => (h c hc).1
  obtain ⟨c, cs, hcons, hc⟩ := p.isDigits.exists_cons
  rw [Power.value]
  cases p.sign with
  | plus =>
      show (digits? (p.digits ++ rest)).map _ = _
      rw [hdigits]
      rfl
  | minus =>
      show (digits? (p.digits ++ rest)).map _ = _
      rw [hdigits]
      rfl
  | none =>
      show signedPower? (p.digits ++ rest) = _
      rw [signedPower?.eq_def]
      split
      next r heq =>
        rw [hcons] at heq
        obtain rfl := (List.cons.inj heq).1
        exact absurd hc (by decide)
      next r heq =>
        rw [hcons] at heq
        obtain rfl := (List.cons.inj heq).1
        exact absurd hc (by decide)
      next =>
        rw [hdigits]
        rfl

theorem power?_append (power : Option Power) (h : EndsNumber rest) :
    power? (power.elim [] Power.chars ++ rest) = some (power.map Power.value, rest) := by
  cases power with
  | none =>
      show power? rest = _
      cases rest with
      | nil => rfl
      | cons c r => rw [power?, if_neg (by rw [not_or]; exact (h c rfl).2.2)]; rfl
  | some p =>
      have hmark : (if p.capital then 'E' else 'e') = 'e' ∨ (if p.capital then 'E' else 'e') = 'E' := by
        cases p.capital <;> decide
      show power? ((if p.capital then 'E' else 'e') :: (p.sign.chars ++ p.digits ++ rest)) = _
      rw [power?, if_pos hmark, List.append_assoc, signedPower?_append p h]
      rfl

end

variable (l : Literal) {rest : List Char}

/-- Behind the digits of a number there is no further one. -/
theorem head?_tail_append (h : EndsNumber rest) :
    ∀ c ∈ (l.tail ++ rest).head?, Digits.isDigit 10 c = false := by
  rw [tail, List.append_assoc]
  cases l.fraction with
  | none => exact fun c hc => (head?_power_append _ h c hc).1
  | some ds =>
      rintro c ⟨⟩
      decide

theorem unsignedNumeral?_append (h : EndsNumber rest) :
    unsignedNumeral? l.negative (l.whole ++ l.tail ++ rest) = some (l.numeral, rest) := by
  have hwhole := whole?_append l.isDigits l.zero (l.head?_tail_append h)
  have hfraction := fraction?_append l.fraction_isDigits (head?_power_append l.power h)
  have hpower := power?_append l.power h
  rw [← List.append_assoc, ← tail] at hfraction
  rw [List.append_assoc, unsignedNumeral?]
  simp only [hwhole, hfraction, hpower, Option.bind_eq_bind, Option.bind_some]
  rfl

/-- **A spelling is taken apart into its parts.** -/
theorem numeral?_append (h : EndsNumber rest) : numeral? (l.chars ++ rest) = some (l.numeral, rest) := by
  have hunsigned := l.unsignedNumeral?_append h
  rw [chars]
  cases hnegative : l.negative with
  | true =>
      rw [hnegative] at hunsigned
      exact hunsigned
  | false =>
      rw [hnegative] at hunsigned
      obtain ⟨c, cs, hcons, hc⟩ := l.isDigits.exists_cons
      show numeral? (l.whole ++ l.tail ++ rest) = _
      rw [numeral?.eq_def]
      split
      next r heq =>
        rw [hcons] at heq
        obtain rfl := (List.cons.inj heq).1
        exact absurd hc (by decide)
      next => exact hunsigned

/-- **What holds of digits and of the other marks of numbers holds throughout a spelling.** -/
theorem forall_mem_chars {P : Char → Prop} (hdigit : ∀ c, Digits.isDigit 10 c = true → P c)
    (hmarks : P '-' ∧ P '+' ∧ P '.' ∧ P 'e' ∧ P 'E') : ∀ c ∈ l.chars, P c := by
  have hmark : ∀ c ∈ ['-', '+', '.', 'e', 'E'], P c := by simpa using hmarks
  have hdigits {ds : List Char} (h : IsDigits ds) : ∀ c ∈ ds, P c :=
    fun c hc => hdigit c (h.isDigit c hc)
  have hfraction : ∀ c ∈ l.fraction.elim [] (fun ds => '.' :: ds), P c := by
    cases hds : l.fraction with
    | none => exact fun _ h => absurd h List.not_mem_nil
    | some ds =>
        exact List.forall_mem_cons.2 ⟨hmark '.' (by decide), hdigits (l.fraction_isDigits ds hds)⟩
  have hpower : ∀ c ∈ l.power.elim [] Power.chars, P c := by
    cases l.power with
    | none => exact fun _ h => absurd h List.not_mem_nil
    | some p =>
        have hsign : ∀ c ∈ p.sign.chars, P c := fun c hc => hmark c (by
          revert hc
          cases p.sign <;> simp +contextual [PowerSign.chars])
        refine List.forall_mem_cons.2 ⟨hmark _ (by cases p.capital <;> decide), fun c hc => ?_⟩
        exact (List.mem_append.1 hc).elim (hsign c) (hdigits p.isDigits c)
  have hnegative : ∀ c ∈ (if l.negative then ['-'] else []), P c := fun c hc => hmark c (by
    revert hc
    cases l.negative <;> simp +contextual)
  intro c hc
  obtain hc | hc := List.mem_append.1 hc
  · exact hnegative c hc
  · obtain hc | hc := List.mem_append.1 hc
    · exact hdigits l.isDigits c hc
    · exact (List.mem_append.1 hc).elim (hfraction c) (hpower c)

/-- A spelling starts with a sign or a digit. -/
theorem exists_chars_eq_cons :
    ∃ c cs, l.chars = c :: cs ∧ (c = '-' ∨ Digits.isDigit 10 c = true) := by
  obtain ⟨c, cs, hcons, hc⟩ := l.isDigits.exists_cons
  rw [chars, hcons]
  cases l.negative with
  | true => exact ⟨'-', _, rfl, .inl rfl⟩
  | false => exact ⟨c, _, rfl, .inr hc⟩

end Literal

end Json

end CaptureConfig

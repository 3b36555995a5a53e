/-
**Texts between quotes.**

Between quotes a character may stand for itself, or behind a backslash as a letter, as four digits,
or as two times four digits.  Each of these is read as one unit, or as two, and the units are joined
to the characters again: a number that stands for a character is never half of a pair.  What is
written is one of these spellings.

Main definitions:

* `Json.SpellsText` — the spellings of a text up to the closing quote.

Main results:

* `Json.SpellsText.unquote?_eq` — **every spelling of a text is read as that text**;
* `Json.spellsText_flatMap_escape` — what is written is a spelling;
* `Json.SpellsText.length_lt` — a spelling takes at least the closing quote.
-/

import CaptureConfig.Json.Quoted
import CaptureConfig.Json.Unquote
import CaptureConfig.Proofs.Number.Digits

set_option relaxedAutoImplicit false
set_option autoImplicit false

namespace CaptureConfig

namespace Json

/-! ### Spellings -/

/-- Four digits of a number. -/
structure IsCode (ds : List Char) (n : Nat) : Prop where
  length_eq : ds.length = 4
  all_isDigit : ds.all (Digits.isDigit 16) = true
  toNat_eq : Digits.toNat 16 ds = n

/-- The first of two numbers for a character. -/
def firstOf (c : Char) : Nat := 0xD800 + (c.toNat - 0x10000) / 0x400

/-- The second of two numbers for a character. -/
def secondOf (c : Char) : Nat := 0xDC00 + (c.toNat - 0x10000) % 0x400

/-- **The spellings of a text up to the closing quote**: the characters behind the opening quote,
the text, and what stands behind the closing quote. -/
inductive SpellsText : List Char → List Char → List Char → Prop
  /-- The closing quote. -/
  | closed (rest : List Char) : SpellsText ('"' :: rest) [] rest
  /-- A character that stands for itself. -/
  | plain {c : Char} {cs s rest : List Char} (hquote : c ≠ '"') (hslash : c ≠ '\\')
      (hc : 0x20 ≤ c.toNat) (h : SpellsText cs s rest) : SpellsText (c :: cs) (c :: s) rest
  /-- A letter behind a backslash. -/
  | letter {l c : Char} {cs s rest : List Char} (hl : ofLetter? l = some c)
      (h : SpellsText cs s rest) : SpellsText ('\\' :: l :: cs) (c :: s) rest
  /-- The number of a character. -/
  | code {ds : List Char} {c : Char} {cs s rest : List Char} (hds : IsCode ds c.toNat)
      (h : SpellsText cs s rest) : SpellsText ('\\' :: 'u' :: (ds ++ cs)) (c :: s) rest
  /-- Two numbers for a character whose own number has more than four digits. -/
  | pair {ds es : List Char} {c : Char} {cs s rest : List Char} (hc : 0x10000 ≤ c.toNat)
      (hds : IsCode ds (firstOf c)) (hes : IsCode es (secondOf c)) (h : SpellsText cs s rest) :
      SpellsText ('\\' :: 'u' :: (ds ++ '\\' :: 'u' :: (es ++ cs))) (c :: s) rest

theorem SpellsText.length_lt {cs s rest : List Char} (h : SpellsText cs s rest) :
    rest.length < cs.length := by
  induction h with
  | closed rest => exact Nat.lt_succ_self _
  | plain _ _ _ _ ih => exact Nat.lt_succ_of_lt ih
  | letter _ _ ih => exact Nat.lt_succ_of_lt (Nat.lt_succ_of_lt ih)
  | code _ _ ih =>
      simp only [List.length_cons, List.length_append]
      omega
  | pair _ _ _ _ ih =>
      simp only [List.length_cons, List.length_append]
      omega

/-! ### Units -/

section

variable (cs : List Char)

theorem units?_letter {l : Char} (h : l ≠ 'u') :
    units? ('\\' :: l :: cs) = (ofLetter? l).bind fun c => withUnit (.char c) (units? cs) := by
  rw [units?]
  rintro a b c d rest rfl
  exact absurd rfl h

theorem IsCode.units?_eq {ds : List Char} {n : Nat} (h : IsCode ds n) :
    units? ('\\' :: 'u' :: (ds ++ cs)) = withUnit (.code n) (units? cs) := by
  obtain ⟨hlength, hdigits, rfl⟩ := h
  match ds, hlength with
  | [a, b, c, d], _ =>
      show units? ('\\' :: 'u' :: a :: b :: c :: d :: cs) = _
      rw [units?, if_pos hdigits]

theorem units?_char {c : Char} (hquote : c ≠ '"') (hslash : c ≠ '\\') (h : 0x20 ≤ c.toNat) :
    units? (c :: cs) = withUnit (.char c) (units? cs) := by
  rw [units?, if_neg (by rw [not_or]; exact ⟨hslash, by omega⟩)]
  · exact hquote
  · rintro a b c d rest h' -
    exact hslash h'
  · rintro l rest h' -
    exact hslash h'

end

/-! ### Joining -/

/-- A number that is not half of a pair is a character on its own. -/
theorem joinUnits?_code {n : Nat} (hhigh : isHigh n = false) (hlow : isLow n = false)
    (us : List QuotedUnit) :
    joinUnits? (.code n :: us) = (joinUnits? us).map (Char.ofNat n :: ·) := by
  cases us with
  | nil => simp [joinUnits?, hhigh, hlow]
  | cons u us => cases u <;> simp [joinUnits?, hhigh, hlow]

/-- The number of a character is not half of a pair. -/
theorem isHigh_toNat (c : Char) : isHigh c.toNat = false ∧ isLow c.toNat = false := by
  have hvalid : c.toNat < 0xD800 ∨ 0xDFFF < c.toNat ∧ c.toNat < 0x110000 := c.valid
  rw [isHigh, isLow, Bool.and_eq_false_iff, Bool.and_eq_false_iff, decide_eq_false_iff_not,
    decide_eq_false_iff_not, decide_eq_false_iff_not, decide_eq_false_iff_not]
  omega

/-- The two numbers of a character make it up. -/
theorem joinUnits?_pair {c : Char} (hc : 0x10000 ≤ c.toNat) (us : List QuotedUnit) :
    joinUnits? (.code (firstOf c) :: .code (secondOf c) :: us) =
      (joinUnits? us).map (c :: ·) := by
  have hvalid : c.toNat < 0xD800 ∨ 0xDFFF < c.toNat ∧ c.toNat < 0x110000 := c.valid
  have hfirst : isHigh (firstOf c) = true := by
    rw [isHigh, firstOf, Bool.and_eq_true, decide_eq_true_iff, decide_eq_true_iff]
    omega
  have hsecond : isLow (secondOf c) = true := by
    rw [isLow, secondOf, Bool.and_eq_true, decide_eq_true_iff, decide_eq_true_iff]
    omega
  have hpair : ofPair (firstOf c) (secondOf c) = c := by
    rw [ofPair, firstOf, secondOf, Nat.add_sub_cancel_left, Nat.add_sub_cancel_left,
      Nat.add_assoc, Nat.mul_comm, Nat.div_add_mod, Nat.add_sub_cancel' hc, Char.ofNat_toNat]
  rw [joinUnits?, if_pos hfirst, if_pos hsecond, hpair]

/-! ### Reading -/

/-- The units of a spelling are joined to the text. -/
theorem SpellsText.exists_units? {cs s rest : List Char} (h : SpellsText cs s rest) :
    ∃ us, units? cs = some (us, rest) ∧ joinUnits? us = some s := by
  induction h with
  | closed rest => exact ⟨[], rfl, rfl⟩
  | @plain c cs s rest hquote hslash hc _ ih =>
      obtain ⟨us, hunits, hjoin⟩ := ih
      refine ⟨.char c :: us, ?_, ?_⟩
      · rw [units?_char cs hquote hslash hc, hunits]
        rfl
      · rw [joinUnits?, hjoin]
        rfl
  | @letter l c cs s rest hl _ ih =>
      obtain ⟨us, hunits, hjoin⟩ := ih
      have hne : l ≠ 'u' := by
        rintro rfl
        cases hl
      refine ⟨.char c :: us, ?_, ?_⟩
      · rw [units?_letter cs hne, hl, hunits]
        rfl
      · rw [joinUnits?, hjoin]
        rfl
  | @code ds c cs s rest hds _ ih =>
      obtain ⟨us, hunits, hjoin⟩ := ih
      refine ⟨.code c.toNat :: us, ?_, ?_⟩
      · rw [hds.units?_eq, hunits]
        rfl
      · rw [joinUnits?_code (isHigh_toNat c).1 (isHigh_toNat c).2, hjoin, Char.ofNat_toNat]
        rfl
  | @pair ds es c cs s rest hc hds hes _ ih =>
      obtain ⟨us, hunits, hjoin⟩ := ih
      refine ⟨.code (firstOf c) :: .code (secondOf c) :: us, ?_, ?_⟩
      · rw [hds.units?_eq, hes.units?_eq, hunits]
        rfl
      · rw [joinUnits?_pair hc, hjoin]
        rfl

/-- **Every spelling of a text is read as that text.** -/
theorem SpellsText.unquote?_eq {cs rest : List Char} {s : String}
    (h : SpellsText cs s.toList rest) : unquote? cs = some (some s, rest) := by
  obtain ⟨us, hunits, hjoin⟩ := h.exists_units?
  rw [unquote?, hunits, Option.map_some]
  simp only [hjoin, Option.map_some, String.ofList_toList]

/-! ### Writing -/

/-- The characters that are written by a letter. -/
theorem letterOf?_eq_some {c l : Char} (h : letterOf? c = some l) : ofLetter? l = some c := by
  simp only [letterOf?] at h
  split at h
  next hc =>
    obtain rfl := Option.some.inj h
    obtain rfl | rfl := hc <;> decide
  next =>
    repeat' split at h
    all_goals first | (obtain rfl := Option.some.inj h; subst_vars; decide) | cases h

theorem ne_of_letterOf?_eq_none {c : Char} (h : letterOf? c = none) : c ≠ '"' ∧ c ≠ '\\' := by
  constructor <;> rintro rfl <;> exact absurd h (by decide)

theorem isCode_padded {n : Nat} (h : n < 0x10000) : IsCode (Digits.padded Digits.char 4 n) n := by
  have hletter : ∀ d < 16, Digits.value? 16 (Digits.char d) = some d :=
    fun d => Digits.value?_char (Nat.le_refl 16)
  refine ⟨Digits.length_padded Digits.char 4 n, Digits.all_isDigit_padded hletter 4 n, ?_⟩
  rw [Digits.toNat_padded hletter]
  exact Nat.mod_eq_of_lt h

/-- A character is written as one of its spellings. -/
theorem SpellsText.escape_append {cs s rest : List Char} (c : Char) (h : SpellsText cs s rest) :
    SpellsText (escape c ++ cs) (c :: s) rest := by
  rw [escape]
  cases hl : letterOf? c with
  | some l => exact h.letter (letterOf?_eq_some hl)
  | none =>
      by_cases hc : c.toNat < 0x20
      · simp only [if_pos hc]
        exact h.code (isCode_padded (Nat.lt_trans hc (by decide)))
      · obtain ⟨hquote, hslash⟩ := ne_of_letterOf?_eq_none hl
        simp only [if_neg hc]
        exact h.plain hquote hslash (Nat.le_of_not_lt hc)

/-- **What is written is a spelling.** -/
theorem spellsText_flatMap_escape (s rest : List Char) :
    SpellsText (s.flatMap escape ++ '"' :: rest) s rest := by
  induction s with
  | nil => exact .closed rest
  | cons c s ih =>
      rw [List.flatMap_cons, List.append_assoc]
      exact ih.escape_append c

end Json

end CaptureConfig

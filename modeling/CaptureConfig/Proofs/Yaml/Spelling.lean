/-
**Scalars of block notation mean what they were written for.**

In block notation the spelling of a plain scalar decides what it is.  The digits of a number mean
that number, the words for truth values mean these, and a text is only written plainly if its
spelling means a text; in any other style it is one whatever its spelling.

Main definitions:

* `Yaml.spelling` — how block notation spells scalars.

Main results:

* `Yaml.unsigned?_ofNat`, `Yaml.meaning_ofNat`, `Yaml.meaning_minus` — the digits of a number mean
  that number;
* `Yaml.lawful_spelling` — **the spelling is lawful**.
-/

import CaptureConfig.Proofs.Document.Tree
import CaptureConfig.Proofs.Yaml.Stream
import CaptureConfig.Yaml.Atom

set_option relaxedAutoImplicit false
set_option autoImplicit false

namespace CaptureConfig

namespace Yaml

/-! ### Digits -/

/-- No word begins with a digit. -/
theorem any_eq_false_of_isDigit {words : List String} {cs : List Char}
    (hwords : (words.all fun w => w.toList.head?.any fun c => ! Digits.isDigit 10 c) = true)
    (hcs : ∀ c ∈ cs.head?, Digits.isDigit 10 c = true) :
    (words.any fun w => w.toList == cs) = false := by
  rw [List.any_eq_false]
  intro w hw heq
  have hfront := List.all_eq_true.1 hwords w hw
  rw [beq_iff_eq.1 heq] at hfront
  cases hhead : cs.head? with
  | none => rw [hhead] at hfront; cases hfront
  | some c => rw [hhead, Option.any_some, hcs c hhead] at hfront; cases hfront

section

variable (n : Nat)

theorem isDigit_head_ofNat : ∀ c ∈ (Digits.ofNat n).head?, Digits.isDigit 10 c = true :=
  fun _ hc => Digits.isDigit_of_mem_ofNat (List.mem_of_head? hc)

theorem isNull_ofNat : isNull (Digits.ofNat n) = false := by
  rw [isNull, isNullWord, any_eq_false_of_isDigit (by decide) (isDigit_head_ofNat n), Bool.or_false]
  exact List.isEmpty_eq_false_iff.2 (Digits.ofNat_ne_nil n)

theorem bool?_ofNat : bool? (Digits.ofNat n) = none := by
  rw [bool?, any_eq_false_of_isDigit (by decide) (isDigit_head_ofNat n),
    any_eq_false_of_isDigit (by decide) (isDigit_head_ofNat n)]
  rfl

theorem withoutSign_ofNat {isSign : Char → Bool}
    (h : ∀ c, Digits.isDigit 10 c = true → isSign c = false) :
    withoutSign isSign (Digits.ofNat n) = Digits.ofNat n := by
  obtain ⟨c, cs, hcons, hc⟩ := Digits.exists_ofNat_eq_cons n
  rw [hcons, withoutSign, h c hc]
  rfl

theorem isSign_of_isDigit {c : Char} (h : Digits.isDigit 10 c = true) : isSign c = false := by
  rw [isSign, Bool.or_eq_false_iff, beq_eq_false_iff_ne, beq_eq_false_iff_ne]
  constructor <;> (rintro rfl; revert h; decide)

/-- A number is not written with a leading zero. -/
theorem isZeroLed_ofNat : isZeroLed (Digits.ofNat n) = false := by
  rw [isZeroLed, withoutSign_ofNat n fun _ => isSign_of_isDigit]
  split
  next c rest heq =>
    have hlength := Digits.length_ofNat_eq_one (n := n) (by rw [heq]; rfl)
    rw [heq] at hlength
    simp at hlength
  next => rfl

theorem magnitude?_ofNat : magnitude? (Digits.ofNat n) = some n := by
  -- Behind a leading zero there is nothing, so that no letter of a base is.
  have hzero {l : Char} {rest : List Char} (h : Digits.ofNat n = '0' :: l :: rest) : False := by
    have hlength := Digits.length_ofNat_eq_one (n := n) (by rw [h]; rfl)
    rw [h] at hlength
    simp at hlength
  rw [magnitude?.eq_def]
  split
  next h => exact (hzero h).elim
  next h => exact (hzero h).elim
  next h => exact (hzero h).elim
  next => rw [isZeroLed_ofNat, if_neg (by decide), Digits.whole?_ofNat]

/-- **The digits of a number mean that number.** -/
theorem unsigned?_ofNat : unsigned? (Digits.ofNat n) = some n := by
  have hplus (c : Char) (hc : Digits.isDigit 10 c = true) : (c == '+') = false :=
    (Bool.or_eq_false_iff.1 (isSign_of_isDigit hc)).1
  rw [unsigned?, withoutSign_ofNat n hplus, magnitude?_ofNat]

theorem meaning_ofNat (h : n < Nat.pow 2 128) : meaning (Digits.ofNat n) = .int n := by
  rw [meaning, isNull_ofNat, bool?_ofNat, int?, unsigned?_ofNat, Option.filter_some,
    decide_eq_true h]
  rfl

/-- No word begins with a minus. -/
theorem any_eq_false_of_minus {words : List String}
    (hwords : (words.all fun w => w.toList.head? != some '-') = true) :
    (words.any fun w => w.toList == '-' :: Digits.ofNat n) = false := by
  rw [List.any_eq_false]
  intro w hw heq
  have hfront := List.all_eq_true.1 hwords w hw
  rw [beq_iff_eq.1 heq] at hfront
  exact absurd hfront (by simp)

theorem isNull_minus : isNull ('-' :: Digits.ofNat n) = false := by
  rw [isNull, isNullWord, any_eq_false_of_minus n (by decide)]
  rfl

theorem isZeroLed_minus : isZeroLed ('-' :: Digits.ofNat n) = false := by
  have hdigits := isZeroLed_ofNat n
  rw [isZeroLed, withoutSign_ofNat n fun _ => isSign_of_isDigit] at hdigits
  exact hdigits

/-- What has a minus is no number without sign. -/
theorem unsigned?_minus : unsigned? ('-' :: Digits.ofNat n) = none := by
  show magnitude? ('-' :: Digits.ofNat n) = none
  rw [magnitude?.eq_def]
  split
  next heq => cases heq
  next heq => cases heq
  next heq => cases heq
  next => rw [isZeroLed_minus]; rfl

/-- **Digits behind a minus mean the number below zero.** -/
theorem meaning_minus (h : n ≤ Nat.pow 2 127) :
    meaning ('-' :: Digits.ofNat n) = .int (- (n : Int)) := by
  have hbool : bool? ('-' :: Digits.ofNat n) = none := by
    rw [bool?, any_eq_false_of_minus n (by decide), any_eq_false_of_minus n (by decide)]
    rfl
  have hnegative : negative? ('-' :: Digits.ofNat n) = some n := magnitude?_ofNat n
  rw [meaning, isNull_minus, hbool, int?, unsigned?_minus, hnegative, Option.filter_none, Option.filter_some,
    decide_eq_true h]
  rfl

end

/-! ### Spelling -/

/-- **How block notation spells scalars.** -/
def spelling : Doc.Spelling Atom where
  text s := ⟨s.toList, (styleOf s.toList).written, .none⟩
  number n := ⟨Digits.ofNat n, .plainly, .none⟩
  flag b := ⟨if b then "true".toList else "false".toList, .plainly, .none⟩

theorem styleOf_of_written {cs : List Char} (h : ((styleOf cs).written == Written.plainly) = true) :
    styleOf cs = .plain := by
  revert h
  cases styleOf cs <;> decide

/-- A text is one whatever its spelling. -/
theorem content_text (cs : List Char) :
    Atom.content ⟨cs, (styleOf cs).written, .none⟩ = .ok .text := by
  show Except.ok (if (styleOf cs).written == Written.plainly then meaning cs else .text) = _
  split
  next h => rw [meaning_of_styleOf (styleOf_of_written h)]
  next => rfl

/-- What means a text does not mean nothing. -/
theorem isNothing_text (cs : List Char) :
    Atom.isNothing ⟨cs, (styleOf cs).written, .none⟩ = .ok false := by
  rw [Atom.isNothing]
  split
  next => rfl
  next h =>
    rw [Bool.not_eq_true, bne_eq_false_iff_eq] at h
    have hmeaning := meaning_of_styleOf (styleOf_of_written (beq_iff_eq.2 h))
    rw [meaning] at hmeaning
    split at hmeaning
    · cases hmeaning
    next hnull => exact congrArg Except.ok (Bool.eq_false_iff.2 hnull)

/-- The digits of a number of 64 bits are taken for that number. -/
theorem integer?_ofNat {n : Nat} (h : n < Nat.pow 2 64) :
    Scalar.integer? (Atom.mk (Digits.ofNat n) .plainly .none) = some (n : Int) := by
  refine (if_pos rfl).trans ?_
  rw [show (Atom.mk (Digits.ofNat n) .plainly .none).text = Digits.ofNat n from rfl,
    unsigned?_ofNat, Option.filter_some, if_pos (decide_eq_true h)]
  rfl

/-- A plain scalar is kept as what it means. -/
theorem value_plainly (cs : List Char) :
    Scalar.value (Atom.mk cs .plainly .none) =
      (Atom.mk cs .plainly .none).valueAs (meaning cs) := rfl

theorem valueAs_int (a : Atom) {i : Int} (hlow : - (Nat.pow 2 63 : Int) ≤ i)
    (hhigh : i < (Nat.pow 2 64 : Int)) : a.valueAs (.int i) = .ok (.int i) := by
  have hfits : Atom.fits64 i = true := by
    simp only [Atom.fits64, Bool.and_eq_true, decide_eq_true_eq]
    exact ⟨hlow, hhigh⟩
  rw [Atom.valueAs, if_pos hfits]

/-- **The spelling is lawful.** -/
theorem lawful_spelling : spelling.Lawful where
  text? s := congrArg some String.ofList_toList
  integer? n h := integer?_ofNat h
  truth? b := by cases b <;> decide
  isNull_text s := isNothing_text s.toList
  isNull_number n := congrArg Except.ok (isNull_ofNat n)
  isNull_flag b := by
    have hnull : isNull (spelling.flag b).text = false := by cases b <;> decide
    exact congrArg Except.ok hnull
  value_text s := by
    refine (if_neg Bool.false_ne_true).trans ?_
    rw [spelling, content_text]
    exact congrArg (fun t => Except.ok (Value.text t)) String.ofList_toList
  value_number n h := by
    refine (value_plainly _).trans ?_
    rw [meaning_ofNat n (Nat.lt_trans h (by decide))]
    exact valueAs_int _ (Int.le_trans (by decide) (Int.natCast_nonneg n)) (Int.ofNat_lt.2 h)
  value_flag b := by
    have hmeaning : meaning (spelling.flag b).text = .bool b := by
      cases b <;> decide
    refine (value_plainly _).trans ?_
    show Atom.valueAs _ (meaning (spelling.flag b).text) = _
    rw [hmeaning]
    rfl

end Yaml

end CaptureConfig

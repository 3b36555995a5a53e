/-
**Digits read back.**

The digits of a number are digits of its base, the first of them is zero for zero alone, and the
number that they stand for is the number they were made of.  A number of given width is the same
with zeros in front, and without what does not fit.

Main results:

* `Digits.toNat_inBase`, `Digits.all_isDigit_inBase` — **the digits of a number stand for it**;
* `Digits.length_ofNat_eq_one` — only zero starts with a zero;
* `Digits.whole?_ofNat`, `Digits.span_ofNat_append` — decimal digits at the front of a text;
* `Digits.toNat_padded` — a number of given width.
-/

import CaptureConfig.Number.Digits

set_option relaxedAutoImplicit false
set_option autoImplicit false

namespace CaptureConfig

namespace Digits

/-! ### Single digits -/

theorem hexValue?_char {d : Nat} (h : d < 16) : hexValue? (char d) = some d :=
  (by decide : ∀ d < 16, hexValue? (char d) = some d) d h

theorem hexValue?_capital {d : Nat} (h : d < 16) : hexValue? (capital d) = some d :=
  (by decide : ∀ d < 16, hexValue? (capital d) = some d) d h

theorem value?_char {base d : Nat} (hbase : base ≤ 16) (h : d < base) :
    value? base (char d) = some d := by
  rw [value?, hexValue?_char (Nat.lt_of_lt_of_le h hbase), Option.filter_some,
    if_pos (decide_eq_true h)]

theorem value?_capital {d : Nat} (h : d < 16) : value? 16 (capital d) = some d := by
  rw [value?, hexValue?_capital h, Option.filter_some, if_pos (decide_eq_true h)]

theorem isDigit_of_value? {base d : Nat} {c : Char} (h : value? base c = some d) :
    isDigit base c = true := by
  rw [isDigit, h]
  rfl

/-- A digit is one in every larger base. -/
theorem isDigit_of_le {base base' : Nat} (hle : base ≤ base') {c : Char}
    (h : isDigit base c = true) : isDigit base' c = true := by
  obtain ⟨d, hd⟩ := Option.isSome_iff_exists.1 h
  obtain ⟨hd, hlt⟩ := Option.filter_eq_some_iff.1 hd
  have hlt : d < base := of_decide_eq_true hlt
  exact isDigit_of_value? (Option.filter_eq_some_iff.2
    ⟨hd, decide_eq_true (Nat.lt_of_lt_of_le hlt hle)⟩)

theorem isDigit_char {base d : Nat} (hbase : base ≤ 16) (h : d < base) :
    isDigit base (char d) = true := isDigit_of_value? (value?_char hbase h)

theorem char_ne_zero {d : Nat} (hpos : d ≠ 0) (h : d < 16) : char d ≠ '0' := by
  intro heq
  have hd := hexValue?_char h
  rw [heq] at hd
  exact hpos (Option.some.inj hd).symm

/-- Digits lie between the first one and the last small letter among them. -/
theorem toNat_of_isDigit {base : Nat} {c : Char} (h : isDigit base c = true) :
    0x30 ≤ c.toNat ∧ c.toNat ≤ 0x66 := by
  obtain ⟨d, hd⟩ := Option.isSome_iff_exists.1 h
  have hhex := (Option.filter_eq_some_iff.1 hd).1
  rw [hexValue?] at hhex
  split at hhex
  next h => exact ⟨h.1, Nat.le_trans h.2 (by decide)⟩
  split at hhex
  next h => exact ⟨Nat.le_trans (by decide) h.1, h.2⟩
  split at hhex
  next h => exact ⟨Nat.le_trans (by decide) h.1, Nat.le_trans h.2 (by decide)⟩
  next => cases hhex

/-- A decimal digit is one of ten characters. -/
theorem isDigit_ten_iff (c : Char) : isDigit 10 c = true ↔ '0' ≤ c ∧ c ≤ '9' := by
  constructor
  · intro h
    rw [isDigit, value?, hexValue?] at h
    by_cases hc : '0' ≤ c ∧ c ≤ '9'
    · exact hc
    · -- a letter stands for ten at least
      rw [if_neg hc] at h
      split at h
      next ha =>
        have : 0x61 ≤ c.toNat := ha.1
        rw [Option.filter_some, if_neg (by simp; omega)] at h
        exact absurd h (by simp)
      next =>
        split at h
        next ha =>
          have : 0x41 ≤ c.toNat := ha.1
          rw [Option.filter_some, if_neg (by simp; omega)] at h
          exact absurd h (by simp)
        next => exact absurd h (by simp)
  · intro h
    have : c.toNat ≤ 0x39 := h.2
    rw [isDigit, value?, hexValue?, if_pos h, Option.filter_some, if_pos (by simp; omega)]
    rfl

/-! ### The digits of a number -/

theorem toNat_append_singleton (base : Nat) (cs : List Char) (c : Char) :
    toNat base (cs ++ [c]) = toNat base cs * base + (value? base c).getD 0 := by
  simp [toNat]

section

variable {base : Nat}

theorem inBase_of_lt {n : Nat} (h : n < base) : inBase base n = [char n] := by
  rw [inBase, dif_pos (Or.inl h)]

theorem inBase_of_le {n : Nat} (hbase : 2 ≤ base) (h : base ≤ n) :
    inBase base n = inBase base (n / base) ++ [char (n % base)] := by
  rw [inBase, dif_neg (by omega)]

theorem inBase_ne_nil (base n : Nat) : inBase base n ≠ [] := by
  rw [inBase]
  split <;> simp

/-- **The digits of a number stand for it.** -/
theorem toNat_inBase (hbase : 2 ≤ base) (hle : base ≤ 16) (n : Nat) :
    toNat base (inBase base n) = n := by
  induction n using Nat.strongRecOn with
  | ind n ih =>
      by_cases hn : n < base
      · rw [inBase_of_lt hn]
        simp [toNat, value?_char hle hn]
      · have hmod : n % base < base := Nat.mod_lt _ (by omega)
        rw [inBase_of_le hbase (by omega), toNat_append_singleton,
          ih (n / base) (Nat.div_lt_self (by omega) (by omega)), value?_char hle hmod,
          Option.getD_some, Nat.mul_comm, Nat.div_add_mod]

theorem all_isDigit_inBase (hbase : 2 ≤ base) (hle : base ≤ 16) (n : Nat) :
    (inBase base n).all (isDigit base) = true := by
  induction n using Nat.strongRecOn with
  | ind n ih =>
      by_cases hn : n < base
      · rw [inBase_of_lt hn, List.all_cons, isDigit_char hle hn]
        rfl
      · have hmod : n % base < base := Nat.mod_lt _ (by omega)
        rw [inBase_of_le hbase (by omega), List.all_append,
          ih (n / base) (Nat.div_lt_self (by omega) (by omega)), List.all_cons,
          isDigit_char hle hmod]
        rfl

/-- The digits of a number that is not zero do not start with a zero. -/
theorem head?_inBase_ne_zero (hbase : 2 ≤ base) (hle : base ≤ 16) {n : Nat} (hn : n ≠ 0) :
    (inBase base n).head? ≠ some '0' := by
  induction n using Nat.strongRecOn with
  | ind n ih =>
      by_cases hlt : n < base
      · rw [inBase_of_lt hlt, List.head?_cons]
        exact fun h => char_ne_zero hn (by omega) (Option.some.inj h)
      · have hdiv : n / base ≠ 0 := by
          have := Nat.div_pos (by omega : base ≤ n) (by omega)
          omega
        have hhead := ih (n / base) (Nat.div_lt_self (by omega) (by omega)) hdiv
        obtain ⟨c, cs, hcons⟩ := List.exists_cons_of_ne_nil (inBase_ne_nil base (n / base))
        rw [inBase_of_le hbase (by omega)]
        rw [hcons] at hhead ⊢
        exact hhead

/-- A number below a power of its base has no more digits than that. -/
theorem length_inBase_le (hbase : 2 ≤ base) {width n : Nat} (h : n < Nat.pow base (width + 1)) :
    (inBase base n).length ≤ width + 1 := by
  induction width generalizing n with
  | zero =>
      rw [inBase_of_lt (Nat.lt_of_lt_of_eq h (Nat.pow_one base))]
      exact Nat.le_refl 1
  | succ width ih =>
      by_cases hn : n < base
      · rw [inBase_of_lt hn]
        exact Nat.le_add_left 1 _
      · rw [inBase_of_le hbase (by omega), List.length_append]
        exact Nat.succ_le_succ (ih (Nat.div_lt_of_lt_mul (Nat.mul_comm _ _ ▸ h)))

end

/-! ### Decimal digits -/

theorem toNat_ofNat (n : Nat) : toNat 10 (ofNat n) = n :=
  toNat_inBase (by decide) (by decide) n

theorem toList_text (n : Nat) : (text n).toList = ofNat n := String.toList_ofList

/-- A number within a text. -/
theorem toList_append_text (front back : String) (n : Nat) :
    (front ++ text n ++ back).toList = front.toList ++ ofNat n ++ back.toList := by
  rw [String.toList_append, String.toList_append, toList_text]

theorem all_isDigit_ofNat (n : Nat) : (ofNat n).all (isDigit 10) = true :=
  all_isDigit_inBase (by decide) (by decide) n

theorem ofNat_ne_nil (n : Nat) : ofNat n ≠ [] := inBase_ne_nil 10 n

theorem isDigit_of_mem_ofNat {n : Nat} {c : Char} (h : c ∈ ofNat n) : isDigit 10 c = true :=
  List.all_eq_true.1 (all_isDigit_ofNat n) c h

/-- A number is written with a digit in front. -/
theorem exists_ofNat_eq_cons (n : Nat) : ∃ c cs, ofNat n = c :: cs ∧ isDigit 10 c = true := by
  obtain ⟨c, cs, h⟩ := List.exists_cons_of_ne_nil (ofNat_ne_nil n)
  exact ⟨c, cs, h, isDigit_of_mem_ofNat (by rw [h]; exact List.mem_cons_self)⟩

/-- **Only zero starts with a zero**, and it has no further digits. -/
theorem length_ofNat_eq_one {n : Nat} (h : (ofNat n).head? = some '0') :
    (ofNat n).length = 1 := by
  by_cases hn : n = 0
  · rw [hn, ofNat, inBase_of_lt (by decide)]
    rfl
  · exact absurd h (head?_inBase_ne_zero (by decide) (by decide) hn)

theorem whole?_ofNat (n : Nat) : whole? 10 (ofNat n) = some n := by
  rw [whole?, if_pos ⟨ofNat_ne_nil n, all_isDigit_ofNat n⟩, toNat_ofNat]

/-- Digits at the front of a text are found, if the text does not go on with another digit. -/
theorem span_append {base : Nat} {ds rest : List Char} (hds : ∀ c ∈ ds, isDigit base c = true)
    (h : ∀ c ∈ rest.head?, isDigit base c = false) : span base (ds ++ rest) = (ds, rest) := by
  rw [span, List.takeWhile_append_of_pos hds, List.dropWhile_append_of_pos hds]
  cases rest with
  | nil => simp
  | cons c rest => simp [h c rfl]

/-- The digits of a number at the front of a text are found. -/
theorem span_ofNat_append (n : Nat) {rest : List Char}
    (h : ∀ c ∈ rest.head?, isDigit 10 c = false) : span 10 (ofNat n ++ rest) = (ofNat n, rest) :=
  span_append (fun _ => isDigit_of_mem_ofNat) h

/-! ### Numbers of given width -/

/-- **A number of given width** stands for what of the number fits. -/
theorem toNat_padded {letter : Nat → Char} (hletter : ∀ d < 16, value? 16 (letter d) = some d)
    (width n : Nat) : toNat 16 (padded letter width n) = n % Nat.pow 16 width := by
  induction width generalizing n with
  | zero => exact (Nat.mod_one n).symm
  | succ width ih =>
      rw [padded, toNat_append_singleton, ih, hletter _ (Nat.mod_lt _ (by decide)),
        Option.getD_some]
      have hpow : Nat.pow 16 (width + 1) = 16 * Nat.pow 16 width := Nat.mul_comm _ _
      rw [hpow, Nat.mod_mul]
      omega

theorem length_padded (letter : Nat → Char) (width n : Nat) :
    (padded letter width n).length = width := by
  induction width generalizing n with
  | zero => rfl
  | succ width ih => rw [padded, List.length_append, ih, List.length_singleton]

theorem all_isDigit_padded {letter : Nat → Char} (hletter : ∀ d < 16, value? 16 (letter d) = some d)
    (width n : Nat) : (padded letter width n).all (isDigit 16) = true := by
  induction width generalizing n with
  | zero => rfl
  | succ width ih =>
      rw [padded, List.all_append, ih, List.all_cons,
        isDigit_of_value? (hletter _ (Nat.mod_lt _ (by decide)))]
      rfl

end Digits

end CaptureConfig

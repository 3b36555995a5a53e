/-
**What the style of a text says about it.**

Each style is only chosen for texts that it can write, and whatever it writes is printable.

Main definitions:

* `Yaml.Style.Allows` — what a style asks of a text.

Main results:

* `Yaml.allows_styleOf` — **a style is only chosen for texts that it can write**;
* `Yaml.isPlain_of_styleOf`, `Yaml.meaning_of_styleOf` — a plain text means itself;
* `Yaml.isFlowing_of_styleOf` — a text between single quotes;
* `Yaml.isPrintable_of_styleOf` — a text below a bar;
* `Yaml.isPrinted_scalarChars` — **what is written is printable**.
-/

import CaptureConfig.Proofs.Yaml.Lines
import CaptureConfig.Proofs.Yaml.Plain
import CaptureConfig.Proofs.Yaml.Quoted

set_option relaxedAutoImplicit false
set_option autoImplicit false

namespace CaptureConfig

namespace Yaml

section

variable {cs : List Char}

/-- What a style asks of a text that it is chosen for. -/
def Style.Allows : Style → List Char → Prop
  | .plain, cs => allowsPlain cs = true ∧ meaning cs = .text
  | .single, cs => allowsSingle cs = true ∧ cs.contains '\n' = false
  | .double, _ => True
  | .literal, cs => allowsLiteral cs = true ∧ cs.contains '\n' = true

/-- **A style is only chosen for texts that it can write.** -/
theorem allows_styleOf (cs : List Char) : (styleOf cs).Allows cs := by
  rw [styleOf]
  split
  next hfeed =>
    split
    next hliteral => exact ⟨hliteral, hfeed⟩
    next => exact trivial
  next hfeed =>
    split
    next hplain =>
      simp only [Bool.and_eq_true, beq_iff_eq] at hplain
      exact hplain.1
    next =>
      split
      next hsingle => exact ⟨hsingle, Bool.eq_false_iff.2 hfeed⟩
      next => exact trivial

theorem Style.Allows.of_styleOf {style : Style} (h : styleOf cs = style) : style.Allows cs :=
  h ▸ allows_styleOf cs

/-- A plain text means a text. -/
theorem meaning_of_styleOf (h : styleOf cs = .plain) : meaning cs = .text :=
  (Style.Allows.of_styleOf h).2

theorem isPlain_of_styleOf (h : styleOf cs = .plain) : IsPlain cs := by
  obtain ⟨hallows, hmeaning⟩ := Style.Allows.of_styleOf h
  refine isPlain_of_allowsPlain ?_ hallows
  rintro rfl
  cases hmeaning

theorem startsWithIndicator_of_styleOf (h : styleOf cs = .plain) :
    startsWithIndicator cs = false := by
  have hallows := (Style.Allows.of_styleOf h).1
  simp only [allowsPlain, Bool.and_eq_true, Bool.not_eq_true'] at hallows
  exact hallows.1.2

theorem startsWithMark_of_styleOf (h : styleOf cs = .plain) : startsWithMark cs = false := by
  have hallows := (Style.Allows.of_styleOf h).1
  simp only [allowsPlain, Bool.and_eq_true, Bool.not_eq_true'] at hallows
  exact hallows.1.1.2

theorem isPrintable_of_styleOf_plain (h : styleOf cs = .plain) :
    ∀ c ∈ cs, isPrintable c = true :=
  isPrintable_of_needsDouble
    (needsDouble_of_allowsSingle (allowsSingle_of_allowsPlain (Style.Allows.of_styleOf h).1))

/-- A text between single quotes holds no line feed, and no space next to a break. -/
theorem isFlowing_of_styleOf (h : styleOf cs = .single) : IsFlowing cs :=
  isFlowing_of_allowsSingle (Style.Allows.of_styleOf h).1 (Style.Allows.of_styleOf h).2

/-- A text below a bar holds a line feed. -/
theorem isPrintable_of_styleOf (h : styleOf cs = .literal) :
    cs ≠ [] ∧ ∀ c ∈ cs, isPrintable c = true := by
  obtain ⟨hallows, hfeed⟩ := Style.Allows.of_styleOf h
  rw [allowsLiteral, Bool.and_eq_true, Bool.not_eq_true'] at hallows
  refine ⟨?_, isPrintable_of_needsDouble hallows.1⟩
  rintro rfl
  cases hfeed

end

/-! ### What is written -/

/-- All characters can be written as they are. -/
def IsPrinted (cs : List Char) : Prop := ∀ c ∈ cs, isPrintable c = true

instance (cs : List Char) : Decidable (IsPrinted cs) :=
  decidable_of_iff (cs.all isPrintable = true) List.all_eq_true

theorem isPrinted_nil : IsPrinted [] := fun _ h => absurd h (by simp)

theorem isPrinted_cons {c : Char} {cs : List Char} :
    IsPrinted (c :: cs) ↔ isPrintable c = true ∧ IsPrinted cs := List.forall_mem_cons

theorem isPrinted_append {s t : List Char} : IsPrinted (s ++ t) ↔ IsPrinted s ∧ IsPrinted t :=
  List.forall_mem_append

theorem isPrinted_indentChars (indent : Nat) : IsPrinted (indentChars indent) := by
  intro c hc
  rw [List.eq_of_mem_replicate hc]
  decide

theorem isPrinted_singleBody {indent : Nat} {cs : List Char} (h : IsPrinted cs) (atBreak : Bool) :
    IsPrinted (singleBody indent atBreak cs) := by
  have hfront (b : Bool) : IsPrinted (if b then indentChars indent else []) := by
    split
    · exact isPrinted_indentChars indent
    · exact isPrinted_nil
  induction cs generalizing atBreak with
  | nil => exact isPrinted_append.2 ⟨hfront atBreak, by decide⟩
  | cons c cs ih =>
      obtain ⟨hc, hcs⟩ := isPrinted_cons.1 h
      rw [singleBody]
      split
      · exact isPrinted_cons.2 ⟨hc, ih hcs true⟩
      · refine isPrinted_append.2 ⟨isPrinted_append.2 ⟨hfront atBreak, ?_⟩, ih hcs false⟩
        split
        · decide
        · exact isPrinted_cons.2 ⟨hc, isPrinted_nil⟩

theorem isPrinted_literalBody {indent : Nat} {cs : List Char} (h : IsPrinted cs) (atBreak : Bool) :
    IsPrinted (literalBody indent atBreak cs) := by
  induction cs generalizing atBreak with
  | nil => exact isPrinted_nil
  | cons c cs ih =>
      obtain ⟨hc, hcs⟩ := isPrinted_cons.1 h
      rw [literalBody]
      split
      · exact isPrinted_cons.2 ⟨hc, ih hcs true⟩
      · refine isPrinted_append.2 ⟨?_, isPrinted_cons.2 ⟨hc, ih hcs false⟩⟩
        split
        · exact isPrinted_indentChars indent
        · exact isPrinted_nil

theorem isPrinted_padded (width n : Nat) : IsPrinted (Digits.padded Digits.capital width n) := by
  induction width generalizing n with
  | zero => exact isPrinted_nil
  | succ width ih =>
      refine isPrinted_append.2 ⟨ih (n / 16), isPrinted_cons.2 ⟨?_, isPrinted_nil⟩⟩
      exact (by decide : ∀ d < 16, isPrintable (Digits.capital d) = true) _
        (Nat.mod_lt n (by decide))

theorem isPrinted_doubleChar (c : Char) : IsPrinted (doubleChar c) := by
  rw [doubleChar]
  split
  next l hl =>
    refine isPrinted_cons.2 ⟨by decide, isPrinted_cons.2 ⟨?_, isPrinted_nil⟩⟩
    unfold letterOf? at hl
    split at hl <;> first | (cases hl; done) | (obtain rfl := Option.some.inj hl; decide)
  next =>
    have hhex (l : Char) (hl : isPrintable l = true) (width : Nat) :
        IsPrinted ('\\' :: l :: Digits.padded Digits.capital width c.toNat) :=
      isPrinted_cons.2 ⟨by decide, isPrinted_cons.2 ⟨hl, isPrinted_padded width c.toNat⟩⟩
    split
    next hprintable => exact isPrinted_cons.2 ⟨hprintable, isPrinted_nil⟩
    next =>
      split
      · exact hhex 'x' (by decide) 2
      · split
        · exact hhex 'u' (by decide) 4
        · exact hhex 'U' (by decide) 8

theorem isPrinted_doubleChars (cs : List Char) : IsPrinted (doubleChars cs) := by
  refine isPrinted_cons.2 ⟨by decide, isPrinted_append.2 ⟨?_, by decide⟩⟩
  intro d hd
  obtain ⟨c, -, hc⟩ := List.mem_flatMap.1 hd
  exact isPrinted_doubleChar c d hc

theorem isPrinted_marks (cs : List Char) : IsPrinted (indentMark cs ++ endMark cs) := by
  refine isPrinted_append.2 ⟨?_, ?_⟩
  · unfold indentMark
    split
    · exact isPrinted_nil
    · split <;> decide
  · unfold endMark
    split
    · decide
    · split
      · decide
      · split <;> decide

/-- **What is written is printable.** -/
theorem isPrinted_scalarChars (indent : Nat) (s : String) : IsPrinted (scalarChars indent s) := by
  rw [scalarChars]
  split
  next h => exact isPrintable_of_styleOf_plain h
  next h =>
    exact isPrinted_cons.2
      ⟨by decide, isPrinted_singleBody (isFlowing_of_styleOf h).printable false⟩
  next => exact isPrinted_doubleChars s.toList
  next h =>
    have hbody : IsPrinted (literalBody indent true s.toList) :=
      isPrinted_literalBody (isPrintable_of_styleOf h).2 true
    exact isPrinted_cons.2 ⟨by decide, isPrinted_append.2
      ⟨isPrinted_marks s.toList, isPrinted_cons.2 ⟨by decide, hbody⟩⟩⟩

end Yaml

end CaptureConfig

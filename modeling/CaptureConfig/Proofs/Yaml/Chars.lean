/-
**Characters and neighbours in block notation.**

The style of a text depends on its characters and on pairs of neighbours among them.  What holds of
no pair of neighbours in a text holds of none in a later part of it, and that is how the readers go
through a text: from the front, with a part of it still to come.

Main definitions:

* `Yaml.IsKept` — a break that is written as it is;
* `Yaml.StartsOutside` — how the text behind a stretch starts.

Main results:

* `Yaml.isKept_of_isBreak`, `Yaml.eq_space_of_isBlank` — the breaks and blanks that are printable;
* `Yaml.hasNeighbours_append` — neighbours in a later part.
-/

import CaptureConfig.Yaml.Style

set_option relaxedAutoImplicit false
set_option autoImplicit false

namespace CaptureConfig

namespace Yaml

/-! ### Breaks and blanks -/

/-- **A break that is written as it is**, and is read as itself. -/
def IsKept (c : Char) : Prop := c = '\n' ∨ c = '\u2028' ∨ c = '\u2029'

theorem isBreak_iff {c : Char} :
    isBreak c = true ↔ c = '\n' ∨ c = '\r' ∨ c = '\x85' ∨ c = '\u2028' ∨ c = '\u2029' := by
  simp only [isBreak, Bool.or_eq_true, beq_iff_eq, or_assoc]

theorem IsKept.isBreak {c : Char} (h : IsKept c) : isBreak c = true := by
  obtain rfl | rfl | rfl := h <;> decide

theorem IsKept.isBlankOrBreak {c : Char} (h : IsKept c) : isBlankOrBreak c = true := by
  obtain rfl | rfl | rfl := h <;> decide

theorem IsKept.ne_return {c : Char} (h : IsKept c) : c ≠ '\r' := by
  obtain rfl | rfl | rfl := h <;> decide

/-- The printable breaks. -/
theorem isKept_of_isBreak {c : Char} (hprintable : isPrintable c = true) (h : isBreak c = true) :
    IsKept c := by
  obtain rfl | rfl | rfl | rfl | rfl := isBreak_iff.1 h
  · exact Or.inl rfl
  · exact absurd hprintable (by decide)
  · exact absurd hprintable (by decide)
  · exact Or.inr (Or.inl rfl)
  · exact Or.inr (Or.inr rfl)

/-- The only printable blank is the space. -/
theorem eq_space_of_isBlank {c : Char} (hprintable : isPrintable c = true) (h : isBlank c = true) :
    c = ' ' := by
  simp only [isBlank, Bool.or_eq_true, beq_iff_eq] at h
  obtain rfl | rfl := h
  · rfl
  · exact absurd hprintable (by decide)

theorem isBlankOrBreak_eq_false_iff {c : Char} :
    isBlankOrBreak c = false ↔ isBlank c = false ∧ isBreak c = false := by
  rw [isBlankOrBreak, Bool.or_eq_false_iff]

theorem isBlank_eq_false_iff {c : Char} :
    isBlank c = false ↔ (c == ' ') = false ∧ (c == '\t') = false := by
  rw [isBlank, Bool.or_eq_false_iff]

/-- A character that is printable is a space, a break that is kept, or neither blank nor break. -/
theorem space_or_isKept_or {c : Char} (hprintable : isPrintable c = true) :
    c = ' ' ∨ IsKept c ∨ isBlankOrBreak c = false := by
  by_cases hblank : isBlank c = true
  · exact Or.inl (eq_space_of_isBlank hprintable hblank)
  · by_cases hbreak : isBreak c = true
    · exact Or.inr (Or.inl (isKept_of_isBreak hprintable hbreak))
    · refine Or.inr (Or.inr (isBlankOrBreak_eq_false_iff.2 ⟨?_, ?_⟩))
      · exact Bool.eq_false_iff.2 hblank
      · exact Bool.eq_false_iff.2 hbreak

/-- Whatever is printable may occur in a text. -/
theorem isAllowed_of_isPrintable {c : Char} (h : isPrintable c = true) : isAllowed c = true := by
  simp only [isPrintable, isAllowed, Bool.or_eq_true, Bool.and_eq_true, decide_eq_true_eq,
    beq_iff_eq, bne_iff_ne] at h ⊢
  obtain (rfl | h) | h := h
  · decide
  · exact Or.inl (Or.inr h)
  · exact Or.inr ⟨⟨h.1.1.1, h.1.2⟩, h.2⟩

/-- A text that needs no double quotes is printable. -/
theorem isPrintable_of_needsDouble {cs : List Char} (h : needsDouble cs = false) :
    ∀ c ∈ cs, isPrintable c = true := by
  rw [needsDouble, Bool.or_eq_false_iff, List.any_eq_false] at h
  exact fun c hc => by simpa using h.1 c hc

theorem needsDouble_of_allowsSingle {cs : List Char} (h : allowsSingle cs = true) :
    needsDouble cs = false := by
  rw [allowsSingle, Bool.and_eq_true, Bool.not_eq_true'] at h
  exact h.1

theorem allowsSingle_of_allowsPlain {cs : List Char} (h : allowsPlain cs = true) :
    allowsSingle cs = true := by
  simp only [allowsPlain, Bool.and_eq_true] at h
  exact h.1.1.1.1.1.1

/-! ### Neighbours -/

theorem hasNeighbours_cons_cons {p : Char → Char → Bool} {a b : Char} {rest : List Char} :
    hasNeighbours p (a :: b :: rest) = false ↔
      p a b = false ∧ hasNeighbours p (b :: rest) = false := by
  rw [hasNeighbours, Bool.or_eq_false_iff]

/-- What holds of no neighbours in a text holds of none in a later part of it. -/
theorem hasNeighbours_append {p : Char → Char → Bool} {s t : List Char}
    (h : hasNeighbours p (s ++ t) = false) : hasNeighbours p t = false := by
  induction s with
  | nil => exact h
  | cons a s ih =>
      refine ih ?_
      cases hst : s ++ t with
      | nil => rfl
      | cons b rest =>
          rw [List.cons_append, hst] at h
          exact (hasNeighbours_cons_cons.1 h).2

/-- What holds of no neighbours in a text holds of none in a front part of it. -/
theorem hasNeighbours_append_left {p : Char → Char → Bool} {s t : List Char}
    (h : hasNeighbours p (s ++ t) = false) : hasNeighbours p s = false := by
  induction s with
  | nil => rfl
  | cons a s ih =>
      cases s with
      | nil => rfl
      | cons b s =>
          obtain ⟨hab, hrest⟩ := hasNeighbours_cons_cons.1 h
          exact hasNeighbours_cons_cons.2 ⟨hab, ih hrest⟩

/-- Two characters that meet somewhere in a text. -/
theorem not_of_hasNeighbours_append {p : Char → Char → Bool} {s t : List Char} {a b : Char}
    (h : hasNeighbours p (s ++ a :: b :: t) = false) : p a b = false :=
  (hasNeighbours_cons_cons.1 (hasNeighbours_append h)).1

/-- The last character of a stretch and the one behind it. -/
theorem exists_not_of_hasNeighbours_append {p : Char → Char → Bool} {s t : List Char} {b : Char}
    (hs : s ≠ []) (h : hasNeighbours p (s ++ b :: t) = false) : ∃ a ∈ s, p a b = false := by
  refine ⟨s.getLast hs, List.getLast_mem hs, ?_⟩
  rw [← List.dropLast_concat_getLast hs, List.append_assoc, List.singleton_append] at h
  exact not_of_hasNeighbours_append h

/-! ### Stretches -/

/-- The text does not start with a character of a class. -/
def StartsOutside (p : Char → Bool) (cs : List Char) : Prop := ∀ c ∈ cs.head?, p c = false

theorem startsOutside_nil (p : Char → Bool) : StartsOutside p [] := by
  intro c hc
  exact absurd hc (by simp)

theorem startsOutside_cons {p : Char → Bool} {c : Char} {cs : List Char} :
    StartsOutside p (c :: cs) ↔ p c = false := by
  constructor
  · exact fun h => h c rfl
  · rintro h d ⟨⟩
    exact h

theorem StartsOutside.mono {p q : Char → Bool} {cs : List Char} (h : StartsOutside q cs)
    (hpq : ∀ c, q c = false → p c = false) : StartsOutside p cs := fun c hc => hpq c (h c hc)

theorem StartsOutside.of_append {p : Char → Bool} {s t : List Char}
    (h : StartsOutside p (s ++ t)) : StartsOutside p s := by
  cases s with
  | nil => exact startsOutside_nil p
  | cons c s => exact startsOutside_cons.2 (startsOutside_cons.1 h)

/-- A text is a stretch of characters of a class and a text that starts outside of it. -/
theorem exists_stretch (p : Char → Bool) (cs : List Char) :
    ∃ s t, cs = s ++ t ∧ (∀ c ∈ s, p c = true) ∧ StartsOutside p t := by
  refine ⟨cs.takeWhile p, cs.dropWhile p, List.takeWhile_append_dropWhile.symm, ?_, ?_⟩
  · exact fun c hc => List.all_eq_true.1 List.all_takeWhile c hc
  · intro c hc
    have := List.head?_dropWhile_not p cs
    rw [Option.mem_def.1 hc] at this
    simpa using this

end Yaml

end CaptureConfig

/-
**What is left after trimming.**

The rules ask whether a text is more than blanks without trimming it, while its meaning is told by
trimming: a text counts as present when it is given and something is left of it without the blanks
at its ends.  The two agree, because trimming takes nothing from between two characters that are
no blanks.

Main definitions:

* `Text.IsPresent` — a text that is given and is more than blanks.

Main results:

* `Text.trim_eq_empty_iff` — nothing is left exactly of a text of blanks;
* `Text.trim_trim` — trimming twice is trimming once;
* `Text.present_eq_some_iff`, `Text.present_eq_none_iff` — what the rules ask is presence.
-/

import CaptureConfig.Text.Blank

set_option relaxedAutoImplicit false
set_option autoImplicit false

namespace CaptureConfig

namespace Text

/-! ### Trimming -/

theorem dropBlanks_cons_of_isBlank {c : Char} (h : isBlank c = true) (cs : List Char) :
    dropBlanks (c :: cs) = dropBlanks cs :=
  List.dropWhile_cons_of_pos h

theorem dropBlanks_cons_of_not_isBlank {c : Char} (h : isBlank c = false) (cs : List Char) :
    dropBlanks (c :: cs) = c :: cs :=
  List.dropWhile_cons_of_neg (by simp [h])

theorem dropBlanks_eq_nil_iff (cs : List Char) : dropBlanks cs = [] ↔ ∀ c ∈ cs, isBlank c := by
  induction cs with
  | nil => simp [dropBlanks]
  | cons c cs ih =>
      cases h : isBlank c with
      | true => rw [dropBlanks_cons_of_isBlank h, ih]; simp [h]
      | false => rw [dropBlanks_cons_of_not_isBlank h]; simp [h]

/-- Behind the blanks at the front stands a character that is none. -/
theorem dropBlanks_dropBlanks (cs : List Char) : dropBlanks (dropBlanks cs) = dropBlanks cs := by
  induction cs with
  | nil => rfl
  | cons c cs ih =>
      cases h : isBlank c with
      | true => rw [dropBlanks_cons_of_isBlank h, ih]
      | false => rw [dropBlanks_cons_of_not_isBlank h, dropBlanks_cons_of_not_isBlank h]

theorem dropBlanksEnd_eq_nil_iff (cs : List Char) :
    dropBlanksEnd cs = [] ↔ ∀ c ∈ cs, isBlank c := by
  have h := dropBlanks_eq_nil_iff cs.reverse
  rw [dropBlanks] at h
  rw [dropBlanksEnd, List.reverse_eq_nil_iff, h]
  simp only [List.mem_reverse]

theorem trimChars_eq_nil_iff (cs : List Char) : trimChars cs = [] ↔ ∀ c ∈ cs, isBlank c := by
  rw [trimChars, dropBlanksEnd_eq_nil_iff, ← dropBlanks_eq_nil_iff, dropBlanks_dropBlanks,
    dropBlanks_eq_nil_iff]

/-- **Nothing is left exactly of a text of blanks.** -/
theorem trim_eq_empty_iff (s : String) : trim s = "" ↔ IsBlank s := by
  rw [trim, IsBlank, List.all_eq_true, ← trimChars_eq_nil_iff]
  exact String.ofList_eq_empty_iff

theorem dropBlanksEnd_cons_of_not_isBlank {c : Char} (h : isBlank c = false) (cs : List Char) :
    dropBlanksEnd (c :: cs) = c :: dropBlanksEnd cs := by
  have hsingle : [c].dropWhile isBlank = [c] := List.dropWhile_cons_of_neg (by simp [h])
  rw [dropBlanksEnd, dropBlanksEnd, List.reverse_cons, List.dropWhile_append, hsingle]
  split
  next hnil => rw [List.isEmpty_iff.1 hnil]; rfl
  next => rw [List.reverse_append, List.reverse_singleton, List.singleton_append]

theorem dropBlanksEnd_dropBlanksEnd (cs : List Char) :
    dropBlanksEnd (dropBlanksEnd cs) = dropBlanksEnd cs := by
  have h := dropBlanks_dropBlanks cs.reverse
  rw [dropBlanks, dropBlanks] at h
  rw [dropBlanksEnd, dropBlanksEnd, List.reverse_reverse, h]

/-- What is left has no blanks at its ends. -/
theorem trimChars_trimChars (cs : List Char) : trimChars (trimChars cs) = trimChars cs := by
  have hfront : dropBlanks (trimChars cs) = trimChars cs := by
    rw [trimChars]
    have h := dropBlanks_dropBlanks cs
    cases hcs : dropBlanks cs with
    | nil => rfl
    | cons c ds =>
        have hc : isBlank c = false := by
          rw [hcs] at h
          refine Bool.eq_false_iff.2 fun hc => ?_
          rw [dropBlanks_cons_of_isBlank hc] at h
          have hlength := congrArg List.length h
          have hle : (dropBlanks ds).length ≤ ds.length := (List.dropWhile_suffix isBlank).length_le
          rw [List.length_cons] at hlength
          omega
        rw [dropBlanksEnd_cons_of_not_isBlank hc, dropBlanks_cons_of_not_isBlank hc]
  rw [trimChars, hfront, trimChars, dropBlanksEnd_dropBlanksEnd]

theorem trim_trim (s : String) : trim (trim s) = trim s := by
  rw [trim, trim, String.toList_ofList, trimChars_trimChars]

/-! ### Presence -/

/-- **A text that is given and is more than blanks.** -/
def IsPresent (s : Option String) : Prop := ∃ t, s = some t ∧ trim t ≠ ""

theorem present_eq_some_iff {s : Option String} {t : String} :
    present s = some t ↔ s = some t ∧ trim t ≠ "" := by
  rw [present, Option.filter_eq_some_iff, decide_eq_true_iff, ← trim_eq_empty_iff]

theorem isSome_present_iff {s : Option String} : (present s).isSome ↔ IsPresent s := by
  simp only [Option.isSome_iff_exists, present_eq_some_iff, IsPresent]

theorem present_eq_none_iff {s : Option String} : present s = none ↔ ¬ IsPresent s := by
  rw [← isSome_present_iff, Option.not_isSome_iff_eq_none]

instance (s : Option String) : Decidable (IsPresent s) :=
  decidable_of_iff ((present s).isSome = true) isSome_present_iff

@[simp] theorem isPresent_some (t : String) : IsPresent (some t) ↔ trim t ≠ "" := by
  simp [IsPresent]

@[simp] theorem not_isPresent_none : ¬ IsPresent none := by simp [IsPresent]

end Text

end CaptureConfig

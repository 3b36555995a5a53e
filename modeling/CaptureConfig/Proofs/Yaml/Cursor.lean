/-
**Going through a text.**

Equations for a cursor in front of a known text: over a character that is no break it goes one
column on, over a break to the front of the next line, and over a stretch of characters as many
columns as the stretch is long.

Main results:

* `Yaml.Cursor.skip_of_not_isBreak`, `Yaml.Cursor.skip_of_isBreak` — one character;
* `Yaml.Cursor.skipMany_append` — a number of characters;
* `Yaml.Cursor.run_append`, `Yaml.Cursor.skipWhile_append` — the characters of a class.
-/

import CaptureConfig.Proofs.Yaml.Chars
import CaptureConfig.Yaml.Cursor

set_option relaxedAutoImplicit false
set_option autoImplicit false

namespace CaptureConfig

namespace Yaml

namespace Cursor

variable {ch : Char} {rest : List Char} {index line column : Nat}

/-! ### The character at a place -/

@[simp] theorem peek_cons : (mk (ch :: rest) index line column).peek = some ch := rfl

@[simp] theorem holds_cons (d : Char) :
    (mk (ch :: rest) index line column).holds d = (ch == d) := rfl

/-- Behind the first column there is no mark between documents. -/
theorem atMark_of_pos {c : Cursor} (h : 0 < c.column) : c.atMark = false := by
  have hcolumn : (c.column == 0) = false := by
    rw [beq_eq_false_iff_ne]
    omega
  rw [atMark, hcolumn]
  rfl

/-! ### One character -/

theorem skip_of_not_isBreak (h : isBreak ch = false) :
    (mk (ch :: rest) index line column).skip = mk rest (index + 1) line (column + 1) := by
  have hreturn : ch ≠ '\r' := by
    rintro rfl
    exact absurd h (by decide)
  simp only [skip]
  split
  next heq => exact absurd heq (by simp)
  next heq => exact absurd (List.cons.inj heq).1 hreturn
  next heq =>
    obtain ⟨rfl, rfl⟩ := List.cons.inj heq
    rw [if_neg (by rw [h]; decide)]

theorem skip_of_isBreak (h : isBreak ch = true) (hreturn : ch ≠ '\r') :
    (mk (ch :: rest) index line column).skip = mk rest (index + 1) (line + 1) 0 := by
  simp only [skip]
  split
  next heq => exact absurd heq (by simp)
  next heq => exact absurd (List.cons.inj heq).1 hreturn
  next heq =>
    obtain ⟨rfl, rfl⟩ := List.cons.inj heq
    rw [if_pos h]

/-- A break that is kept counts as itself. -/
theorem breakChars_of_isKept (h : IsKept ch) :
    (mk (ch :: rest) index line column).breakChars = [ch] := by
  obtain rfl | rfl | rfl := h <;> rfl

/-! ### Several characters -/

theorem skipMany_append (s : List Char) :
    (mk (s ++ rest) index line column).skipMany s.length =
      mk rest (index + s.length) line (column + s.length) := by
  rw [skipMany, List.drop_left]

theorem run_append {p : Char → Bool} {s : List Char}
    (hs : ∀ c ∈ s, (p c && ! isBreak c) = true)
    (hrest : StartsOutside (fun c => p c && ! isBreak c) rest) :
    (mk (s ++ rest) index line column).run p = s := by
  rw [run, List.takeWhile_append_of_pos hs]
  cases rest with
  | nil => simp
  | cons c rest => simp [startsOutside_cons.1 hrest]

theorem skipWhile_append {p : Char → Bool} {s : List Char}
    (hs : ∀ c ∈ s, (p c && ! isBreak c) = true)
    (hrest : StartsOutside (fun c => p c && ! isBreak c) rest) :
    (mk (s ++ rest) index line column).skipWhile p =
      mk rest (index + s.length) line (column + s.length) := by
  rw [skipWhile, run_append hs hrest, skipMany_append]

/-- Where the class does not go on, the cursor stays. -/
theorem skipWhile_of_startsOutside {p : Char → Bool}
    (hrest : StartsOutside (fun c => p c && ! isBreak c) rest) :
    (mk rest index line column).skipWhile p = mk rest index line column :=
  skipWhile_append (s := []) (by simp) hrest

end Cursor

end Yaml

end CaptureConfig

/-
**Texts between quotes.**

Between quotes a character stands for itself or behind a backslash as a letter.  A dollar or percent
sign before a brace would begin a part to be filled in, unless it is doubled.  A text that is spelled
so is read as it was meant, and what is written for a text is such a spelling.

Main definitions:

* `Hcl.SpellsText` — the spellings of a text up to the closing quote.

Main results:

* `Hcl.SpellsText.template_eq` — **every spelling of a text is read as that text**;
* `Hcl.spellsText_doubled` — what is written is a spelling.
-/

import CaptureConfig.Hcl.Reader

set_option relaxedAutoImplicit false
set_option autoImplicit false

namespace CaptureConfig

namespace Hcl

/-! ### Spellings -/

/-- **The spellings of a text up to the closing quote**: the characters behind the opening quote,
the text, and what stands behind the closing quote. -/
inductive SpellsText : List Char → List Char → List Char → Prop
  /-- The closing quote. -/
  | closed (rest : List Char) : SpellsText ('"' :: rest) [] rest
  /-- A character that stands for itself, and opens no part to be filled in. -/
  | plain {c : Char} {cs s rest : List Char} (hc : c ∉ ['"', '\\', '\n', '\r'])
      (hopens : c = '$' ∨ c = '%' → cs.head? ≠ some '\x7b') (h : SpellsText cs s rest) :
      SpellsText (c :: cs) (c :: s) rest
  /-- A letter behind a backslash. -/
  | letter {l c : Char} {cs s rest : List Char} (hl : ofLetter? l = some c)
      (h : SpellsText cs s rest) : SpellsText ('\\' :: l :: cs) (c :: s) rest
  /-- A sign that is doubled before a brace. -/
  | doubled {c : Char} {cs s rest : List Char} (hc : c = '$' ∨ c = '%')
      (h : SpellsText cs s rest) : SpellsText (c :: c :: '\x7b' :: cs) (c :: '\x7b' :: s) rest

section

variable {c : Char} {cs s rest : List Char}

theorem SpellsText.length_lt (h : SpellsText cs s rest) : rest.length < cs.length := by
  induction h with
  | closed rest => exact Nat.lt_succ_self _
  | plain _ _ _ ih => exact Nat.lt_succ_of_lt ih
  | letter _ _ ih => exact Nat.lt_succ_of_lt (Nat.lt_succ_of_lt ih)
  | doubled _ _ ih => exact Nat.lt_succ_of_lt (Nat.lt_succ_of_lt (Nat.lt_succ_of_lt ih))

/-- No spelling begins with a part to be filled in. -/
theorem SpellsText.not_opens (h : SpellsText (c :: '\x7b' :: cs) s rest) : ¬ (c = '$' ∨ c = '%') := by
  intro hc
  cases h with
  | closed => simp at hc
  | plain _ hopens => exact hopens hc rfl
  | letter => simp at hc
  | doubled => simp at hc

/-! ### Pieces -/

theorem SpellsText.piece_plain (h : SpellsText cs s rest) (hc : c ∉ ['"', '\\', '\n', '\r'])
    (hopens : c = '$' ∨ c = '%' → cs.head? ≠ some '\x7b') :
    piece true (c :: cs) = .chars [c] [c] cs := by
  simp only [List.mem_cons, List.not_mem_nil, or_false, not_or] at hc
  obtain ⟨hquote, hslash, hnewline, hreturn⟩ := hc
  rw [piece, if_neg (by decide), if_neg hquote, if_neg (not_or.2 ⟨hnewline, hreturn⟩),
    if_neg hslash]
  · rintro ds - rfl
    exact h.not_opens (.inl rfl)
  · rintro ds - rfl
    exact h.not_opens (.inr rfl)
  · rintro ds rfl rfl
    exact hopens (.inl rfl) rfl
  · rintro ds rfl rfl
    exact hopens (.inr rfl) rfl

theorem piece_letter {l : Char} (hl : ofLetter? l = some c) :
    piece true ('\\' :: l :: cs) = .chars [c] [c] cs := by
  have hescape : escape? (l :: cs) = some (c, cs) := by
    rw [escape?, hl]
    · rfl
    · rintro rfl
      cases hl
    · rintro rfl
      cases hl
  simp [piece, hescape]

theorem piece_doubled (hc : c = '$' ∨ c = '%') :
    piece true (c :: c :: '\x7b' :: cs) = .chars [c, '\x7b'] [c, c, '\x7b'] cs := by
  obtain rfl | rfl := hc <;> rfl

/-! ### Reading -/

theorem template_of_chars {fuel : Nat} {read written ds w : List Char}
    (hpiece : piece true cs = .chars read written ds)
    (h : template fuel true [] ds = some (s, w, false, rest)) :
    template (fuel + 1) true [] cs = some (read ++ s, written ++ w, false, rest) := by
  rw [template, hpiece]
  simp only [h]
  rfl

/-- **Every spelling of a text is read as that text.** -/
theorem SpellsText.template_eq (h : SpellsText cs s rest) :
    ∀ fuel, cs.length ≤ fuel → ∃ w, template fuel true [] cs = some (s, w, false, rest) := by
  induction h with
  | closed rest =>
      intro fuel hfuel
      cases fuel with
      | zero => simp at hfuel
      | succ fuel => exact ⟨[], rfl⟩
  | plain hc hopens h ih =>
      intro fuel hfuel
      cases fuel with
      | zero => simp at hfuel
      | succ fuel =>
          obtain ⟨w, hw⟩ := ih fuel (Nat.le_of_succ_le_succ hfuel)
          exact ⟨_, template_of_chars (h.piece_plain hc hopens) hw⟩
  | letter hl _ ih =>
      intro fuel hfuel
      cases fuel with
      | zero => simp at hfuel
      | succ fuel =>
          obtain ⟨w, hw⟩ := ih fuel (Nat.le_of_succ_le (Nat.le_of_succ_le_succ hfuel))
          exact ⟨_, template_of_chars (piece_letter hl) hw⟩
  | doubled hc _ ih =>
      intro fuel hfuel
      cases fuel with
      | zero => simp at hfuel
      | succ fuel =>
          obtain ⟨w, hw⟩ := ih fuel (by simp at hfuel; omega)
          exact ⟨_, template_of_chars (piece_doubled hc) hw⟩

end

/-! ### Writing -/

/-- A character is written as a letter behind a backslash, or as it is. -/
theorem quotedChar_cases (c : Char) :
    (∃ l, ofLetter? l = some c ∧ Expr.quotedChar c = ['\\', l]) ∨
      c ∉ ['"', '\\', '\n', '\r'] ∧ Expr.quotedChar c = [c] := by
  by_cases hquote : c = '"' ∨ c = '\\'
  · refine .inl ⟨c, ?_, if_pos hquote⟩
    obtain rfl | rfl := hquote <;> rfl
  by_cases hnewline : c = '\n'
  · exact .inl ⟨'n', hnewline ▸ rfl, hnewline ▸ rfl⟩
  by_cases hreturn : c = '\r'
  · exact .inl ⟨'r', hreturn ▸ rfl, hreturn ▸ rfl⟩
  by_cases htab : c = '\t'
  · exact .inl ⟨'t', htab ▸ rfl, htab ▸ rfl⟩
  refine .inr ⟨?_, ?_⟩
  · rw [not_or] at hquote
    simp [hquote, hnewline, hreturn]
  · rw [Expr.quotedChar, if_neg hquote, if_neg hnewline, if_neg hreturn, if_neg htab]

/-- What is written for a text begins with a brace only if the text does. -/
theorem head?_doubled_ne {s : List Char} (rest : List Char) (h : s.head? ≠ some '\x7b') :
    ((Expr.doubled s).flatMap Expr.quotedChar ++ '"' :: rest).head? ≠ some '\x7b' := by
  fun_cases Expr.doubled s with
  | case1 s => simp [Expr.quotedChar]
  | case2 s => simp [Expr.quotedChar]
  | case3 c s =>
      obtain ⟨l, -, hl⟩ | ⟨-, hc⟩ := quotedChar_cases c
      · simp [hl]
      · simpa [hc] using h
  | case4 => simp

/-- **What is written for a text is a spelling of it.** -/
theorem spellsText_doubled (s rest : List Char) :
    SpellsText ((Expr.doubled s).flatMap Expr.quotedChar ++ '"' :: rest) s rest := by
  fun_induction Expr.doubled s with
  | case1 s ih => exact .doubled (.inl rfl) ih
  | case2 s ih => exact .doubled (.inr rfl) ih
  | case3 c s hdollar hpercent ih =>
      obtain ⟨l, hl, hwritten⟩ | ⟨hc, hwritten⟩ := quotedChar_cases c
      · rw [List.flatMap_cons, hwritten]
        exact .letter hl ih
      · rw [List.flatMap_cons, hwritten]
        refine .plain hc (fun hsign => head?_doubled_ne rest fun hbrace => ?_) ih
        obtain ⟨t, rfl⟩ : ∃ t, s = '\x7b' :: t := by
          cases s with
          | nil => cases hbrace
          | cons d t => exact ⟨t, by cases hbrace; rfl⟩
        obtain rfl | rfl := hsign
        · exact hdollar t rfl rfl
        · exact hpercent t rfl rfl
  | case4 => exact .closed rest

end Hcl

end CaptureConfig

/-
**What stands between two stretches.**

Inside a line the gap is some spaces, and counts as these.  Across lines it is some breaks and the
indentation of the line behind them; a line feed counts as a space and further breaks as
themselves, while another break counts as itself.

Main results:

* `Yaml.readGap_spaces` — **a gap of spaces**;
* `Yaml.readGap_breaks` — **a gap of breaks and an indentation**.
-/

import CaptureConfig.Proofs.Yaml.Cursor
import CaptureConfig.Yaml.Token.Flowing

set_option relaxedAutoImplicit false
set_option autoImplicit false

namespace CaptureConfig

namespace Yaml

section

variable {rest : List Char} (tabColumn index line column : Nat)

/-- A gap ends where neither a blank nor a break is. -/
theorem readGap_end (fuel : Nat) (g : Gap) (h : StartsOutside isBlankOrBreak rest) :
    readGap tabColumn fuel g ⟨rest, index, line, column⟩ =
      some (g, ⟨rest, index, line, column⟩) := by
  cases fuel with
  | zero => rfl
  | succ fuel =>
      cases rest with
      | nil => rfl
      | cons c rest =>
          obtain ⟨hblank, hbreak⟩ := isBlankOrBreak_eq_false_iff.1 (startsOutside_cons.1 h)
          simp [readGap, hblank, hbreak]

theorem isBlank_space : isBlank ' ' = true := rfl

theorem isBreak_space : isBreak ' ' = false := rfl

/-- Spaces of the first line belong to a gap. -/
theorem readGap_replicate (n fuel : Nat) (g : Gap) (hbreak : g.hasBreak = false)
    (hfuel : n ≤ fuel) (h : StartsOutside isBlankOrBreak rest) :
    readGap tabColumn fuel g ⟨List.replicate n ' ' ++ rest, index, line, column⟩ =
      some ({ g with blanks := g.blanks ++ List.replicate n ' ' },
        ⟨rest, index + n, line, column + n⟩) := by
  induction n generalizing fuel g index column with
  | zero => simpa using readGap_end tabColumn index line column fuel g h
  | succ n ih =>
      obtain ⟨fuel, rfl⟩ : ∃ k, fuel = k + 1 := ⟨fuel - 1, by omega⟩
      rw [List.replicate_succ, List.cons_append, readGap, Cursor.peek_cons]
      simp only [isBreak_space, isBlank_space, hbreak, if_pos, Bool.false_eq_true, if_false]
      rw [Cursor.skip_of_not_isBreak isBreak_space, ih _ _ fuel _ rfl (by omega)]
      simp only [List.append_assoc, List.singleton_append]
      congr 3 <;> omega

/-- **A gap of spaces.** -/
theorem readGap_spaces {s : List Char} (hs : ∀ c ∈ s, c = ' ')
    (h : StartsOutside isBlankOrBreak rest) :
    readGap tabColumn (s ++ rest).length .none ⟨s ++ rest, index, line, column⟩ =
      some (⟨s, false, [], []⟩, ⟨rest, index + s.length, line, column + s.length⟩) := by
  have hreplicate : s = List.replicate s.length ' ' := List.eq_replicate_of_mem hs
  have hread := readGap_replicate tabColumn index line column s.length (s ++ rest).length .none
    rfl (by simp) h
  rw [← hreplicate] at hread
  exact hread

/-- The indentation behind a break does not count. -/
theorem readGap_indentation (n fuel : Nat) (g : Gap) (hbreak : g.hasBreak = true)
    (hfuel : n ≤ fuel) (h : StartsOutside isBlankOrBreak rest) :
    readGap tabColumn fuel g ⟨List.replicate n ' ' ++ rest, index, line, column⟩ =
      some (g, ⟨rest, index + n, line, column + n⟩) := by
  induction n generalizing fuel index column with
  | zero => simpa using readGap_end tabColumn index line column fuel g h
  | succ n ih =>
      obtain ⟨fuel, rfl⟩ : ∃ k, fuel = k + 1 := ⟨fuel - 1, by omega⟩
      rw [List.replicate_succ, List.cons_append, readGap, Cursor.peek_cons]
      simp only [isBreak_space, isBlank_space, hbreak, if_pos, Bool.false_eq_true, if_false]
      rw [if_neg (by simp), Cursor.skip_of_not_isBreak isBreak_space, ih _ _ fuel (by omega)]
      congr 3 <;> omega

/-- Further breaks of a gap. -/
theorem readGap_others (others : List Char) (n fuel : Nat) (g : Gap) (hbreak : g.hasBreak = true)
    (hothers : ∀ b ∈ others, IsKept b) (hfuel : others.length + n ≤ fuel)
    (h : StartsOutside isBlankOrBreak rest) (hcolumn : others = [] → column = 0) :
    ∃ index' line', readGap tabColumn fuel g
      ⟨others ++ (List.replicate n ' ' ++ rest), index, line, column⟩ =
      some ({ g with others := g.others ++ others }, ⟨rest, index', line', n⟩) := by
  induction others generalizing fuel g index line column with
  | nil =>
      refine ⟨index + n, line, ?_⟩
      rw [List.nil_append,
        readGap_indentation tabColumn index line column n fuel g hbreak (by simpa using hfuel) h,
        hcolumn rfl]
      simp
  | cons b others ih =>
      have hkept := hothers b List.mem_cons_self
      obtain ⟨fuel, rfl⟩ : ∃ k, fuel = k + 1 := ⟨fuel - 1, by simp at hfuel; omega⟩
      obtain ⟨index', line', hread⟩ := ih (index + 1) (line + 1) 0 fuel
        { g with others := g.others ++ [b] } hbreak
        (fun c hc => hothers c (List.mem_cons_of_mem b hc)) (by simp at hfuel; omega) (fun _ => rfl)
      refine ⟨index', line', ?_⟩
      rw [List.cons_append, readGap, Cursor.peek_cons]
      simp only [hkept.isBreak, if_pos]
      rw [Cursor.breakChars_of_isKept hkept, Cursor.skip_of_isBreak hkept.isBreak hkept.ne_return,
        Gap.addBreak, if_pos hbreak, hread]
      simp

/-- **A gap of breaks and an indentation.** -/
theorem readGap_breaks {b : Char} {others : List Char} (n : Nat) (hb : IsKept b)
    (hothers : ∀ c ∈ others, IsKept c) (h : StartsOutside isBlankOrBreak rest) :
    ∃ index' line', readGap tabColumn (b :: others ++ (List.replicate n ' ' ++ rest)).length .none
      ⟨b :: others ++ (List.replicate n ' ' ++ rest), index, line, column⟩ =
      some (⟨[], true, [b], others⟩, ⟨rest, index', line', n⟩) := by
  obtain ⟨index', line', hread⟩ := readGap_others tabColumn (index + 1) (line + 1) 0 others n
    (others ++ (List.replicate n ' ' ++ rest)).length ⟨[], true, [b], []⟩ rfl hothers (by simp) h
    (fun _ => rfl)
  refine ⟨index', line', ?_⟩
  rw [List.cons_append, List.length_cons, readGap, Cursor.peek_cons]
  simp only [hb.isBreak, if_pos]
  rw [Cursor.breakChars_of_isKept hb, Cursor.skip_of_isBreak hb.isBreak hb.ne_return]
  exact hread

end

/-- Spaces within a line count as themselves. -/
@[simp] theorem Gap.text_of_blanks (blanks : List Char) :
    Gap.text ⟨blanks, false, [], []⟩ = blanks := rfl

/-- Breaks that are no line feeds count as themselves. -/
theorem Gap.text_of_ne {b : Char} (h : b ≠ '\n') (others : List Char) :
    Gap.text ⟨[], true, [b], others⟩ = b :: others := by
  simp [Gap.text, h]

end Yaml

end CaptureConfig

/-
**Plain scalars read back.**

A plain scalar is some words with spaces between them.  The reader takes them one after another; the
last one ends in front of a colon, if the scalar is a key, or at the end of its line.  None of the
words can be taken for a comment, and within none of them a colon can be taken for an indicator.

Main definitions:

* `Yaml.IsPlain` — the texts that may stand without quotes;
* `Yaml.IsWord` — the words of such a text;
* `Yaml.IsTame` — the letters, digits and other characters that need no care;
* `Yaml.IsSigned` — words and numbers.

Main results:

* `Yaml.exists_lastWord` — the reader reaches the last word;
* `Yaml.plainScalar_key` — **a plain key is read back**;
* `Yaml.plainScalar_line` — **a plain scalar at the end of a line is read back**;
* `Yaml.IsSigned.plainScalar_indicator`, `Yaml.IsSigned.plainScalar_closing` — so is one in brackets.
-/

import CaptureConfig.Proofs.Number.Digits
import CaptureConfig.Proofs.Yaml.Gap

set_option relaxedAutoImplicit false
set_option autoImplicit false

namespace CaptureConfig

namespace Yaml

/-! ### Words -/

/-- A colon that reads as the indicator of a value. -/
def isColonGap (a b : Char) : Bool := a == ':' && isGap (some b)

/-- A gap and the beginning of a comment. -/
def isGapHash (a b : Char) : Bool := isGap (some a) && b == '#'

/-- **A word of a plain text.** -/
structure IsWord (w : List Char) : Prop where
  noGap : ∀ c ∈ w, isBlankOrBreak c = false
  head : ∃ c rest, w = c :: rest ∧ c ≠ '#'
  noColon : hasNeighbours isColonGap w = false
  last : w.getLast? ≠ some ':'

/-- **A text that may stand without quotes.** -/
structure IsPlain (cs : List Char) : Prop where
  noGap : ∀ c ∈ cs, c ≠ ' ' → isBlankOrBreak c = false
  head : ∃ c rest, cs = c :: rest ∧ c ≠ ' ' ∧ c ≠ '#'
  noColon : hasNeighbours isColonGap cs = false
  noHash : hasNeighbours isGapHash cs = false
  last : cs.getLast? ≠ some ' ' ∧ cs.getLast? ≠ some ':'

theorem hasNeighbours_or {p q : Char → Char → Bool} {cs : List Char} :
    hasNeighbours (fun a b => p a b || q a b) cs = false ↔
      hasNeighbours p cs = false ∧ hasNeighbours q cs = false := by
  induction cs with
  | nil => exact ⟨fun h => ⟨h, h⟩, fun h => h.1⟩
  | cons a cs ih =>
      cases cs with
      | nil => exact ⟨fun h => ⟨h, h⟩, fun h => h.1⟩
      | cons b cs =>
          simp only [hasNeighbours_cons_cons, ih, Bool.or_eq_false_iff]
          constructor
          · rintro ⟨⟨hp, hq⟩, hps, hqs⟩
            exact ⟨⟨hp, hps⟩, hq, hqs⟩
          · rintro ⟨⟨hp, hps⟩, hq, hqs⟩
            exact ⟨⟨hp, hq⟩, hps, hqs⟩

theorem isPlain_of_allowsPlain {cs : List Char} (hne : cs ≠ []) (h : allowsPlain cs = true) :
    IsPlain cs := by
  obtain ⟨c, rest, rfl⟩ := List.exists_cons_of_ne_nil hne
  have hprintable :=
    isPrintable_of_needsDouble (needsDouble_of_allowsSingle (allowsSingle_of_allowsPlain h))
  simp only [allowsPlain, containsIndicator, Bool.and_eq_true, Bool.not_eq_true',
    Bool.or_eq_false_iff, List.any_eq_false, bne_iff_ne, ne_eq, beq_eq_false_iff_ne] at h
  obtain ⟨⟨⟨⟨⟨⟨-, hbreak⟩, hfirst⟩, hlast⟩, -⟩, hindicator⟩, hcolon, hneighbours⟩ := h
  have hneighbours := hasNeighbours_or.1 hneighbours
  refine ⟨fun d hd hspace => ?_, ⟨c, rest, rfl, ?_, ?_⟩, hneighbours.1, hneighbours.2, hlast,
    hcolon⟩
  · obtain rfl | hkept | hd' := space_or_isKept_or (hprintable d hd)
    · exact absurd rfl hspace
    · exact absurd hkept.isBreak (hbreak d hd)
    · exact hd'
  · rintro rfl
    exact hfirst rfl
  · rintro rfl
    exact absurd hindicator (by simp [startsWithIndicator, isFrontIndicator, isOneOf])

/-! ### Letters and digits -/

/-- **A character that is never taken for anything but text.** -/
def IsTame (c : Char) : Prop :=
  isBlankOrBreak c = false ∧ isFrontIndicator c = false ∧
    (c ≠ '?' ∧ c ≠ ':' ∧ c ≠ '-') ∧ c ≠ byteOrderMark

instance (c : Char) : Decidable (IsTame c) := inferInstanceAs (Decidable (_ ∧ _))

theorem isTame_of_all {cs : List Char} (h : (cs.all fun c => decide (IsTame c)) = true) :
    ∀ c ∈ cs, IsTame c := fun c hc => of_decide_eq_true (List.all_eq_true.1 h c hc)

theorem IsTame.ne_space {c : Char} (h : IsTame c) : c ≠ ' ' := by
  rintro rfl
  exact absurd h.1 (by decide)

theorem IsTame.ne_hash {c : Char} (h : IsTame c) : c ≠ '#' := by
  rintro rfl
  exact absurd h.2.1 (by decide)

theorem toNat_lt_of_isAlphanum {c : Char} (h : c.isAlphanum = true) : c.toNat < 123 := by
  have hbelow {d : Char} (hd : d.toNat < 123) (h : c.val ≤ d.val) : c.toNat < 123 :=
    Nat.lt_of_le_of_lt h hd
  obtain h | hdigit := Bool.or_eq_true_iff.1 h
  · obtain hupper | hlower := Bool.or_eq_true_iff.1 h
    · exact hbelow (by decide : 'Z'.toNat < 123) (of_decide_eq_true hupper).2
    · exact hbelow (by decide : 'z'.toNat < 123)
        (of_decide_eq_true (Bool.and_eq_true_iff.1 hlower).2)
  · exact hbelow (by decide : '9'.toNat < 123)
      (of_decide_eq_true (Bool.and_eq_true_iff.1 hdigit).2)

theorem isTame_of_isAlphanum {c : Char} (h : c.isAlphanum = true) : IsTame c := by
  have hall : ∀ n < 123, (Char.ofNat n).isAlphanum = true → IsTame (Char.ofNat n) := by
    decide +kernel
  have htame := hall c.toNat (toNat_lt_of_isAlphanum h)
  rw [Char.ofNat_toNat] at htame
  exact htame h

theorem isAlphanum_of_isDigit {c : Char} (h : Digits.isDigit 10 c = true) :
    c.isAlphanum = true := by
  obtain ⟨hlow, hhigh⟩ := (Digits.isDigit_ten_iff c).1 h
  have hdigit : c.isDigit = true := by
    rw [Char.isDigit, Bool.and_eq_true, decide_eq_true_eq, decide_eq_true_eq]
    exact ⟨hlow, hhigh⟩
  rw [Char.isAlphanum, hdigit, Bool.or_true]

theorem isTame_of_isDigit {c : Char} (h : Digits.isDigit 10 c = true) : IsTame c :=
  isTame_of_isAlphanum (isAlphanum_of_isDigit h)

section

variable {cs : List Char} (hne : cs ≠ []) (h : ∀ c ∈ cs, IsTame c)

theorem hasNeighbours_of_forall {p : Char → Char → Bool} (hp : ∀ a ∈ cs, ∀ b, p a b = false) :
    hasNeighbours p cs = false := by
  induction cs with
  | nil => rfl
  | cons a cs ih =>
      cases cs with
      | nil => rfl
      | cons b cs =>
          exact hasNeighbours_cons_cons.2 ⟨hp a List.mem_cons_self b,
            ih (fun d hd => hp d (List.mem_cons_of_mem a hd))⟩

include hne h

/-- Letters and digits may stand without quotes. -/
theorem isPlain_of_isTame : IsPlain cs := by
  have hlast {d : Char} (hd : ¬ IsTame d) : cs.getLast? ≠ some d :=
    fun heq => hd (h d (List.mem_of_getLast? heq))
  obtain ⟨c, rest, rfl⟩ := List.exists_cons_of_ne_nil hne
  have hc := h c List.mem_cons_self
  refine ⟨fun d hd _ => (h d hd).1, ⟨c, rest, rfl, hc.ne_space, hc.ne_hash⟩,
    hasNeighbours_of_forall fun a ha b => ?_, hasNeighbours_of_forall fun a ha b => ?_,
    hlast (by decide), hlast (by decide)⟩
  · simp [isColonGap, (h a ha).2.2.1.2.1]
  · simp [isGapHash, isGap, (h a ha).1]

theorem startsWithIndicator_of_isTame : startsWithIndicator cs = false := by
  obtain ⟨c, rest, rfl⟩ := List.exists_cons_of_ne_nil hne
  have hc := h c List.mem_cons_self
  simp [startsWithIndicator, hc.2.1, hc.2.2.1]

end

/-! ### One word -/

theorem plainStretch_append {w : List Char} (hgap : ∀ c ∈ w, isBlankOrBreak c = false)
    (hcolon : hasNeighbours isColonGap w = false) (hlast : w.getLast? ≠ some ':')
    {tail : List Char} (htail : plainStretch false tail = ([], false)) :
    plainStretch false (w ++ tail) = (w, false) := by
  induction w with
  | nil => exact htail
  | cons c w ih =>
      have hc : (c == ':' && isGap (w ++ tail).head?) = false := by
        cases w with
        | nil =>
            have hne : c ≠ ':' := fun h => hlast (by rw [h]; rfl)
            simp [hne]
        | cons d w => exact (hasNeighbours_cons_cons.1 hcolon).1
      have hw : hasNeighbours isColonGap w = false := hasNeighbours_append (s := [c]) hcolon
      have hlast' : w.getLast? ≠ some ':' := by
        cases w with
        | nil => simp
        | cons d w => simpa using hlast
      rw [List.cons_append, plainStretch, hgap c List.mem_cons_self, hc,
        ih (fun d hd => hgap d (List.mem_cons_of_mem c hd)) hw hlast']
      simp

theorem IsWord.plainStretch {w tail : List Char} (hw : IsWord w)
    (htail : Yaml.plainStretch false tail = ([], false)) :
    Yaml.plainStretch false (w ++ tail) = (w, false) :=
  plainStretch_append hw.noGap hw.noColon hw.last htail

theorem plainStretch_gap {c : Char} (h : isBlankOrBreak c = true) (rest : List Char) :
    plainStretch false (c :: rest) = ([], false) := by
  rw [plainStretch, if_pos h]

theorem plainStretch_colon {rest : List Char} (h : isGap rest.head? = true) :
    plainStretch false (':' :: rest) = ([], false) := by
  rw [plainStretch, if_neg (by decide), if_neg (by simp), if_pos (by simp [h])]

section

variable {w tail : List Char} {index line column least : Nat} (fuel : Nat) (before : List Char)
  (g : Gap)

theorem IsWord.holds (hw : IsWord w) :
    (Cursor.mk (w ++ tail) index line column).holds '#' = false := by
  obtain ⟨c, rest, rfl, hc⟩ := hw.head
  simpa using hc

theorem IsWord.isEmpty (hw : IsWord w) : w.isEmpty = false := by
  obtain ⟨c, rest, rfl, -⟩ := hw.head
  rfl

/-- A word in front of something that is no gap. -/
theorem plainStretches_of_colon (hw : IsWord w)
    (hmark : (Cursor.mk (w ++ ':' :: tail) index line column).atMark = false)
    (htail : isGap tail.head? = true) :
    plainStretches false least (fuel + 1) before g ⟨w ++ ':' :: tail, index, line, column⟩ =
      some ⟨before ++ g.text ++ w, ⟨':' :: tail, index + w.length, line, column + w.length⟩,
        false⟩ := by
  have hcolon : isBlankOrBreak ':' = false := by decide
  rw [plainStretches, hmark, hw.holds, hw.plainStretch (plainStretch_colon htail)]
  simp only [hw.isEmpty, Cursor.skipMany_append, Cursor.peek_cons]
  simp [hcolon, Gap.none]

/-- A word in front of a gap. -/
theorem plainStretches_of_gap {c : Char} (hw : IsWord w)
    (hmark : (Cursor.mk (w ++ c :: tail) index line column).atMark = false)
    (hc : isBlankOrBreak c = true) {g' : Gap} {place : Cursor}
    (hgap : readGap least (c :: tail).length .none
      ⟨c :: tail, index + w.length, line, column + w.length⟩ = some (g', place)) :
    plainStretches false least (fuel + 1) before g ⟨w ++ c :: tail, index, line, column⟩ =
      if place.column < least then some ⟨before ++ g.text ++ w, place, g'.hasBreak⟩
      else plainStretches false least fuel (before ++ g.text ++ w) g' place := by
  rw [plainStretches, hmark, hw.holds, hw.plainStretch (plainStretch_gap hc tail)]
  simp only [hw.isEmpty, Cursor.skipMany_append, Cursor.peek_cons]
  simp only [hc, hgap, Option.any_some, Bool.not_true, Bool.false_eq_true, if_false, Bool.or_self,
    Bool.not_false, Bool.true_and, decide_eq_true_eq]

end

/-! ### The last word -/

/-- What is behind spaces in a plain text is a plain text. -/
theorem IsPlain.behind_spaces {w s t : List Char} (h : IsPlain (w ++ (s ++ t))) (hne : s ≠ [])
    (hs : ∀ c ∈ s, c = ' ') (ht : StartsOutside (· == ' ') t) : IsPlain t := by
  cases t with
  | nil =>
      have hlast : (w ++ (s ++ [])).getLast? = some (s.getLast hne) := by
        rw [List.append_nil, List.getLast?_append, List.getLast?_eq_some_getLast hne,
          Option.some_or]
      rw [hs _ (List.getLast_mem hne)] at hlast
      exact absurd hlast h.last.1
  | cons c t =>
      have hspace : c ≠ ' ' := by simpa using startsOutside_cons.1 ht
      obtain ⟨a, ha, hnot⟩ := exists_not_of_hasNeighbours_append hne (hasNeighbours_append h.noHash)
      have hhash : c ≠ '#' := by
        rintro rfl
        rw [hs a ha] at hnot
        exact absurd hnot (by decide)
      rw [← List.append_assoc] at h
      refine ⟨fun d hd => h.noGap d (List.mem_append_right _ hd), ⟨c, t, rfl, hspace, hhash⟩,
        hasNeighbours_append h.noColon, hasNeighbours_append h.noHash, ?_⟩
      simpa using h.last

theorem IsPlain.startsOutside {cs : List Char} (h : IsPlain cs) (tail : List Char) :
    StartsOutside isBlankOrBreak (cs ++ tail) := by
  obtain ⟨c, rest, rfl, hspace, -⟩ := h.head
  exact startsOutside_cons.2 (h.noGap c List.mem_cons_self hspace)

/-- A plain text is a word, or a word and spaces in front of another plain text. -/
theorem IsPlain.cases {cs : List Char} (h : IsPlain cs) :
    IsWord cs ∨ ∃ w s t, cs = w ++ (s ++ t) ∧ IsWord w ∧ s ≠ [] ∧ (∀ c ∈ s, c = ' ') ∧
      IsPlain t := by
  obtain ⟨w, rest, rfl, hw, hrest⟩ := exists_stretch (· != ' ') cs
  have hw : ∀ c ∈ w, c ≠ ' ' := fun c hc => by simpa using hw c hc
  have hgap : ∀ c ∈ w, isBlankOrBreak c = false :=
    fun c hc => h.noGap c (List.mem_append_left rest hc) (hw c hc)
  obtain ⟨c, cs, heq, hspace, hhash⟩ := h.head
  obtain ⟨w, rfl⟩ : ∃ w', w = c :: w' := by
    cases w with
    | nil =>
        rw [List.nil_append] at heq
        rw [heq] at hrest
        exact absurd (by simpa using startsOutside_cons.1 hrest) hspace
    | cons d w => exact ⟨w, by rw [(List.cons.inj heq).1]⟩
  cases rest with
  | nil =>
      left
      simp only [List.append_nil] at h ⊢
      exact ⟨hgap, ⟨c, w, rfl, hhash⟩, h.noColon, h.last.2⟩
  | cons d rest =>
      obtain rfl : d = ' ' := by simpa using startsOutside_cons.1 hrest
      obtain ⟨s, t, rfl, hs, ht⟩ := exists_stretch (· == ' ') rest
      have hs : ∀ c ∈ ' ' :: s, c = ' ' := by simpa using hs
      rw [← List.cons_append] at h
      have hlast : (c :: w).getLast? ≠ some ':' := by
        intro hlast
        obtain ⟨init, hinit⟩ := List.getLast?_eq_some_iff.1 hlast
        have hnot := h.noColon
        rw [hinit, List.append_assoc] at hnot
        exact absurd (not_of_hasNeighbours_append hnot) (by decide)
      have hword : IsWord (c :: w) :=
        ⟨hgap, ⟨c, w, rfl, hhash⟩, hasNeighbours_append_left h.noColon, hlast⟩
      have ht : IsPlain t := h.behind_spaces (by simp) hs ht
      exact Or.inr ⟨c :: w, ' ' :: s, t, rfl, hword, by simp, hs, ht⟩

/-- **The reader reaches the last word of a plain text.**  What it has taken before that word, and
the gap in front of it, are the part of the text before the word. -/
theorem exists_lastWord {least : Nat} (tail : List Char) {cs : List Char} (h : IsPlain cs)
    (before : List Char) (g : Gap) (fuel index line column : Nat)
    (hmark : (Cursor.mk (cs ++ tail) index line column).atMark = false)
    (hleast : least ≤ column + 1) (hfuel : cs.length < fuel) :
    ∃ s w before' g' fuel', cs = s ++ w ∧ IsWord w ∧
      before' ++ g'.text = before ++ g.text ++ s ∧
      (Cursor.mk (w ++ tail) (index + s.length) line (column + s.length)).atMark = false ∧
      plainStretches false least fuel before g ⟨cs ++ tail, index, line, column⟩ =
        plainStretches false least (fuel' + 1) before' g'
          ⟨w ++ tail, index + s.length, line, column + s.length⟩ := by
  induction fuel generalizing cs before g index column with
  | zero => omega
  | succ fuel ih =>
      obtain hword | ⟨w, s, t, rfl, hw, hne, hs, ht⟩ := h.cases
      · exact ⟨[], cs, before, g, fuel, rfl, hword, by simp, hmark, rfl⟩
      · obtain ⟨c, s, rfl⟩ := List.exists_cons_of_ne_nil hne
        obtain rfl : c = ' ' := hs c List.mem_cons_self
        have hgap := readGap_spaces least (index + w.length) line (column + w.length) hs
          (ht.startsOutside tail)
        have hassoc : w ++ (' ' :: s ++ t) ++ tail = w ++ ' ' :: (s ++ (t ++ tail)) := by simp
        rw [hassoc] at hmark
        have hbehind : ¬ column + w.length + (' ' :: s).length < least := by
          have : 0 < w.length := by
            obtain ⟨d, rest, rfl, -⟩ := hw.head
            exact Nat.succ_pos _
          simp only [List.length_cons]
          omega
        -- The spaces lie within the line, so that the reader goes on behind them.
        have hstep := plainStretches_of_gap fuel before g hw hmark (by decide) hgap
        rw [if_neg hbehind] at hstep
        obtain ⟨s', w', before', g', fuel', hsplit, hw', htext, hmark', hread⟩ :=
          ih ht (before ++ g.text ++ w) ⟨' ' :: s, false, [], []⟩
            (index + w.length + (' ' :: s).length) (column + w.length + (' ' :: s).length)
            (Cursor.atMark_of_pos (by simp only [List.length_cons]; omega)) (by omega)
            (by simp only [List.length_append, List.length_cons] at hfuel; omega)
        have hlength (n : Nat) : n + (w ++ ' ' :: s ++ s').length =
            n + w.length + (' ' :: s).length + s'.length := by
          simp only [List.length_append]
          omega
        refine ⟨w ++ ' ' :: s ++ s', w', before', g', fuel', by simp [hsplit], hw', ?_, ?_, ?_⟩
        · simpa using htext
        · rw [hlength, hlength]
          exact hmark'
        · rw [hlength, hlength, hassoc, hstep, hread]

/-! ### Plain scalars -/

/-- A key is no mark between documents if its text is none. -/
theorem atMark_key {cs tail : List Char} {index line column : Nat}
    (h : startsWithMark cs = false) :
    (Cursor.mk (cs ++ ':' :: tail) index line column).atMark = false := by
  have hmark : startsWithMark (cs ++ ':' :: tail) = false := by
    match cs with
    | [] => simp [startsWithMark]
    | [_] => simp [startsWithMark]
    | [_, _] => simp [startsWithMark]
    | _ :: _ :: _ :: _ => exact h
  rw [Cursor.atMark, hmark, Bool.and_false, Bool.false_and]

section

variable {cs : List Char} (h : IsPlain cs)

include h

/-- **A plain key is read back.** -/
theorem plainScalar_key {least : Nat} {tail : List Char} {index line column : Nat}
    (hmark : (Cursor.mk (cs ++ ':' :: tail) index line column).atMark = false)
    (hleast : least ≤ column + 1) (htail : isGap tail.head? = true) :
    plainScalar false least ⟨cs ++ ':' :: tail, index, line, column⟩ =
      some ⟨cs, ⟨':' :: tail, index + cs.length, line, column + cs.length⟩, false⟩ := by
  obtain ⟨s, w, before, g, fuel, rfl, hw, htext, hmark', hread⟩ :=
    exists_lastWord (':' :: tail) h [] .none ((cs ++ ':' :: tail).length + 1) index line column
      hmark hleast (by rw [List.length_append]; omega)
  rw [plainScalar, hread, plainStretches_of_colon fuel before g hw hmark' htail, htext]
  simp [Gap.none, Nat.add_assoc]

/-- **A plain scalar at the end of a line is read back**, if the next line starts further out. -/
theorem plainScalar_line {least n : Nat} {tail : List Char} (index line : Nat) {column : Nat}
    (hcolumn : 0 < column) (hleast : least ≤ column + 1) (hn : n < least)
    (htail : StartsOutside isBlankOrBreak tail) :
    ∃ index' line', plainScalar false least
      ⟨cs ++ '\n' :: (List.replicate n ' ' ++ tail), index, line, column⟩ =
      some ⟨cs, ⟨tail, index', line', n⟩, true⟩ := by
  obtain ⟨s, w, before, g, fuel, rfl, hw, htext, hmark', hread⟩ :=
    exists_lastWord ('\n' :: (List.replicate n ' ' ++ tail)) h [] .none
      ((cs ++ '\n' :: (List.replicate n ' ' ++ tail)).length + 1) index line column
      (Cursor.atMark_of_pos hcolumn) hleast
      (by rw [List.length_append]; omega)
  obtain ⟨index', line', hgap⟩ := readGap_breaks least (index + s.length + w.length) line
    (column + s.length + w.length) n (Or.inl rfl)
    (show ∀ c ∈ [], IsKept c by simp) htail
  refine ⟨index', line', ?_⟩
  rw [plainScalar, hread, plainStretches_of_gap fuel before g hw hmark' (by decide) hgap,
    if_pos hn, htext]
  simp [Gap.none]

end

/-! ### In brackets -/

/-- A character that a plain scalar in brackets goes on with wherever it stands. -/
def GoesOn (c : Char) : Prop := isBlankOrBreak c = false ∧ c ≠ ':' ∧ isFlowIndicator c = false

instance (c : Char) : Decidable (GoesOn c) := inferInstanceAs (Decidable (_ ∧ _))

/-- **A letter or a digit, possibly behind a minus, and what a plain scalar goes on with**: words for
nothing and truth values, and numbers. -/
def IsSigned (cs : List Char) : Prop :=
  ∃ c w, (cs = c :: w ∨ cs = '-' :: c :: w) ∧ c.isAlphanum = true ∧ ∀ d ∈ w, GoesOn d

theorem of_isFlowIndicator {c : Char} (h : isFlowIndicator c = true) :
    c = ',' ∨ c = '?' ∨ c = '[' ∨ c = ']' ∨ c = '\x7b' ∨ c = '\x7d' := by
  have hmem : c ∈ [',', '?', '[', ']', '\x7b', '\x7d'] := List.contains_iff_mem.1 h
  simpa using hmem

theorem IsTame.isFlowIndicator_eq {c : Char} (h : IsTame c) : isFlowIndicator c = false := by
  rw [Bool.eq_false_iff]
  intro hflow
  obtain rfl | rfl | rfl | rfl | rfl | rfl := of_isFlowIndicator hflow <;>
    exact absurd h (by decide)

theorem IsTame.goesOn {c : Char} (h : IsTame c) : GoesOn c :=
  ⟨h.1, h.2.2.1.2.1, h.isFlowIndicator_eq⟩

section

variable {cs : List Char} (h : IsSigned cs)

include h

theorem IsSigned.goesOn : ∀ d ∈ cs, GoesOn d := by
  obtain ⟨c, w, hcs, hc, hw⟩ := h
  have hcw : ∀ d ∈ c :: w, GoesOn d :=
    List.forall_mem_cons.2 ⟨(isTame_of_isAlphanum hc).goesOn, hw⟩
  obtain rfl | rfl := hcs
  · exact hcw
  · exact List.forall_mem_cons.2 ⟨by decide, hcw⟩

theorem IsSigned.ne_nil : cs ≠ [] := by
  obtain ⟨c, w, rfl | rfl, -⟩ := h
  · exact List.cons_ne_nil _ _
  · exact List.cons_ne_nil _ _

/-- Such a word is no mark between documents. -/
theorem IsSigned.atMark_append (tail : List Char) (index line column : Nat) :
    (Cursor.mk (cs ++ tail) index line column).atMark = false := by
  have hne {c d : Char} (hc : c.isAlphanum = true) (hd : d.isAlphanum = false) : c ≠ d := by
    rintro rfl
    rw [hc] at hd
    cases hd
  obtain ⟨c, w, hcs, hc, -⟩ := h
  have hmark : startsWithMark (cs ++ tail) = false := by
    obtain rfl | rfl := hcs <;>
      simp [startsWithMark, hne hc (d := '-') (by decide), hne hc (d := '.') (by decide)]
  rw [Cursor.atMark, hmark, Bool.and_false, Bool.false_and]

theorem IsSigned.holds_append (tail : List Char) (index line column : Nat) :
    (Cursor.mk (cs ++ tail) index line column).holds '#' = false := by
  obtain ⟨c, w, rfl | rfl, hc, -⟩ := h
  · simpa using (isTame_of_isAlphanum hc).ne_hash
  · rfl

end

theorem plainStretch_of_isFlowIndicator {c : Char} (hc : isFlowIndicator c = true)
    (rest : List Char) : plainStretch true (c :: rest) = ([], false) := by
  obtain rfl | rfl | rfl | rfl | rfl | rfl := of_isFlowIndicator hc <;> rfl

theorem plainStretch_goesOn {cs tail : List Char} (hcs : ∀ c ∈ cs, GoesOn c)
    (htail : plainStretch true tail = ([], false)) :
    plainStretch true (cs ++ tail) = (cs, false) := by
  induction cs with
  | nil => exact htail
  | cons c cs ih =>
      obtain ⟨⟨hgap, hcolon, hflow⟩, hcs⟩ := List.forall_mem_cons.1 hcs
      have hcolon : (c == ':') = false := beq_eq_false_iff_ne.2 hcolon
      rw [List.cons_append, plainStretch, ih hcs]
      simp [hgap, hcolon, hflow]

section

variable {cs tail : List Char} (h : IsSigned cs) (least index line column : Nat)

include h

/-- The stretch of a word in front of what ends it. -/
theorem IsSigned.plainStretches_eq {c : Char} (fuel : Nat)
    (hc : isFlowIndicator c = true ∨ isBlankOrBreak c = true) :
    plainStretches true least (fuel + 1) [] .none ⟨cs ++ c :: tail, index, line, column⟩ =
      if isBlankOrBreak c then
        match readGap least (c :: tail).length .none
            ⟨c :: tail, index + cs.length, line, column + cs.length⟩ with
        | none => none
        | some (g, place) => plainStretches true least fuel cs g place
      else some ⟨cs, ⟨c :: tail, index + cs.length, line, column + cs.length⟩, false⟩ := by
  have htail : plainStretch true (c :: tail) = ([], false) := by
    obtain hc | hc := hc
    · exact plainStretch_of_isFlowIndicator hc tail
    · rw [plainStretch, if_pos hc]
  have hempty : cs.isEmpty = false := List.isEmpty_eq_false_iff.2 h.ne_nil
  rw [plainStretches, h.atMark_append, h.holds_append, plainStretch_goesOn h.goesOn htail]
  simp only [hempty, Cursor.skipMany_append, Cursor.peek_cons, Gap.none, Gap.text,
    Bool.or_self, Bool.false_eq_true, if_false, Bool.not_false, if_true, List.nil_append,
    Option.any_some, Bool.not_true, Bool.false_and]
  cases isBlankOrBreak c <;> rfl

/-- **A word in front of a comma or a closing bracket is read back.** -/
theorem IsSigned.plainScalar_indicator {c : Char} (hc : isFlowIndicator c = true)
    (hgap : isBlankOrBreak c = false) :
    plainScalar true least ⟨cs ++ c :: tail, index, line, column⟩ =
      some ⟨cs, ⟨c :: tail, index + cs.length, line, column + cs.length⟩, false⟩ := by
  rw [plainScalar, h.plainStretches_eq least index line column _ (.inl hc), hgap,
    if_neg Bool.false_ne_true]

/-- **A word in front of a line with a closing bracket is read back**, and that line is reached. -/
theorem IsSigned.plainScalar_closing {e : Char} (he : e = ']' ∨ e = '\x7d') (n : Nat) :
    ∃ place, plainScalar true least
      ⟨cs ++ '\n' :: (List.replicate n ' ' ++ e :: tail), index, line, column⟩ =
      some ⟨cs, place, true⟩ ∧ place.rest = e :: tail := by
  have hflow : isFlowIndicator e = true := by obtain rfl | rfl := he <;> decide
  have hgap : isBlankOrBreak e = false := by obtain rfl | rfl := he <;> decide
  have hhash : (e == '#') = false := by obtain rfl | rfl := he <;> decide
  obtain ⟨index', line', hread⟩ := readGap_breaks least (index + cs.length) line
    (column + cs.length) n (Or.inl rfl) (show ∀ c ∈ [], IsKept c by simp)
    (startsOutside_cons.2 hgap : StartsOutside isBlankOrBreak (e :: tail))
  have hmark : (Cursor.mk (e :: tail) index' line' n).atMark = false := by
    obtain rfl | rfl := he <;> simp [Cursor.atMark, startsWithMark]
  refine ⟨⟨e :: tail, index', line', n⟩, ?_, rfl⟩
  rw [plainScalar, List.length_append, List.length_cons, ← Nat.add_assoc,
    h.plainStretches_eq least index line column _ (.inr (by decide)), if_pos (by decide)]
  rw [List.singleton_append] at hread
  rw [hread]
  simp only
  rw [plainStretches, hmark, Cursor.holds_cons, hhash, plainStretch_of_isFlowIndicator hflow]
  simp [Cursor.skipMany, hgap]

end

end Yaml

end CaptureConfig

/-
**Quoted scalars read back.**

Between quotes a text is written in stretches, and between the stretches stand spaces or breaks.
The reader takes a stretch, then the gap behind it, and goes on behind the gap; what it has taken so
far is always the front of the text.  The induction is on the fuel, which is more than the
characters still to come.

Between single quotes the breaks are written as they are, and the lines behind them are indented;
that works for texts without line feeds in which spaces and breaks do not meet.  Between double
quotes everything but the space and other printable characters has a spelling of its own, and that
works for all texts.

Main definitions:

* `Yaml.IsFlowing` — the texts that may stand between single quotes;
* `Yaml.doubledQuotes` — a stretch between single quotes.

Main results:

* `Yaml.quotedScalar_single` — **a text between single quotes is read back**;
* `Yaml.quotedScalar_double` — **a text between double quotes is read back**.
-/

import CaptureConfig.Proofs.Number.Digits
import CaptureConfig.Proofs.Yaml.Gap

set_option relaxedAutoImplicit false
set_option autoImplicit false

namespace CaptureConfig

namespace Yaml

/-! ### Stretches one after another -/

section

variable {stretch : List Char → Stretch} {c : Cursor} {chars : List Char} {n : Nat}

/-- A stretch that ends with the closing quote is the last one. -/
theorem quotedStretches_of_quote (fuel : Nat) (before : List Char) (hcolumn : 0 < c.column)
    (hend : c.atEnd = false) (h : stretch c.rest = ⟨chars, n, .quote⟩) :
    quotedStretches stretch (fuel + 1) before c = some (before ++ chars, (c.skipMany n).skip) := by
  rw [quotedStretches, Cursor.atMark_of_pos hcolumn, hend]
  simp [h]

/-- Behind a gap the next stretch begins. -/
theorem quotedStretches_of_gap (fuel : Nat) (before : List Char) {g : Gap} {c' : Cursor}
    (hcolumn : 0 < c.column) (hend : c.atEnd = false) (h : stretch c.rest = ⟨chars, n, .gap⟩)
    (hgap : readGap 0 (c.skipMany n).rest.length .none (c.skipMany n) = some (g, c')) :
    quotedStretches stretch (fuel + 1) before c =
      quotedStretches stretch fuel (before ++ chars ++ g.text) c' := by
  rw [quotedStretches, Cursor.atMark_of_pos hcolumn, hend]
  simp [h, hgap]

variable {shown s rest : List Char} {index line column : Nat}

/-- A stretch, and the spaces behind it. -/
theorem quotedStretches_of_spaces (fuel : Nat) (before : List Char) (hcolumn : 0 < column)
    (hne : s ≠ []) (hs : ∀ c ∈ s, c = ' ') (hrest : StartsOutside isBlankOrBreak rest)
    (h : stretch (shown ++ (s ++ rest)) = ⟨chars, shown.length, .gap⟩) :
    quotedStretches stretch (fuel + 1) before ⟨shown ++ (s ++ rest), index, line, column⟩ =
      quotedStretches stretch fuel (before ++ chars ++ s)
        ⟨rest, index + shown.length + s.length, line, column + shown.length + s.length⟩ := by
  have hgap := readGap_spaces 0 (index + shown.length) line (column + shown.length) hs hrest
  have hend : (Cursor.mk (shown ++ (s ++ rest)) index line column).atEnd = false := by
    simp [Cursor.atEnd, hne]
  rw [quotedStretches_of_gap fuel before hcolumn hend h
      (by rw [Cursor.skipMany_append]; exact hgap),
    Gap.text_of_blanks]

/-- A stretch, and the breaks and the indentation behind it. -/
theorem quotedStretches_of_breaks (fuel : Nat) (before : List Char) {b : Char} {breaks : List Char}
    (n : Nat) (hcolumn : 0 < column) (hb : IsKept b) (hne : b ≠ '\n')
    (hbreaks : ∀ c ∈ breaks, IsKept c) (hrest : StartsOutside isBlankOrBreak rest)
    (h : stretch (shown ++ (b :: breaks ++ (List.replicate n ' ' ++ rest))) =
      ⟨chars, shown.length, .gap⟩) :
    ∃ index' line', quotedStretches stretch (fuel + 1) before
      ⟨shown ++ (b :: breaks ++ (List.replicate n ' ' ++ rest)), index, line, column⟩ =
      quotedStretches stretch fuel (before ++ chars ++ b :: breaks) ⟨rest, index', line', n⟩ := by
  obtain ⟨index', line', hgap⟩ := readGap_breaks 0 (index + shown.length) line
    (column + shown.length) n hb hbreaks hrest
  refine ⟨index', line', ?_⟩
  have hend : (Cursor.mk (shown ++ (b :: breaks ++ (List.replicate n ' ' ++ rest))) index line
      column).atEnd = false := by
    simp [Cursor.atEnd]
  rw [quotedStretches_of_gap fuel before hcolumn hend h
      (by rw [Cursor.skipMany_append]; exact hgap),
    Gap.text_of_ne hne]

end

/-! ### Single quotes -/

/-- **A text that may stand between single quotes.** -/
structure IsFlowing (cs : List Char) : Prop where
  printable : ∀ c ∈ cs, isPrintable c = true
  noLineFeed : '\n' ∉ cs
  spaceBreak : hasNeighbours (fun a b => a == ' ' && isBreak b) cs = false
  breakSpace : hasNeighbours (fun a b => isBreak a && b == ' ') cs = false

theorem isFlowing_of_allowsSingle {cs : List Char} (h : allowsSingle cs = true)
    (hfeed : cs.contains '\n' = false) : IsFlowing cs := by
  have hprintable := isPrintable_of_needsDouble (needsDouble_of_allowsSingle h)
  simp only [allowsSingle, needsDouble, Bool.and_eq_true, Bool.not_eq_true',
    Bool.or_eq_false_iff] at h
  exact ⟨hprintable, by simpa using hfeed, h.1.2, h.2⟩

theorem IsFlowing.of_append {s t : List Char} (h : IsFlowing (s ++ t)) : IsFlowing t :=
  ⟨fun c hc => h.printable c (List.mem_append_right s hc),
    fun hmem => h.noLineFeed (List.mem_append_right s hmem), hasNeighbours_append h.spaceBreak,
    hasNeighbours_append h.breakSpace⟩

/-- Behind spaces no break follows. -/
theorem IsFlowing.startsOutside_of_spaces {s t : List Char} (h : IsFlowing (s ++ t)) (hne : s ≠ [])
    (hs : ∀ c ∈ s, c = ' ') (ht : StartsOutside (· == ' ') t) :
    StartsOutside isBlankOrBreak t := by
  cases t with
  | nil => exact startsOutside_nil _
  | cons c t =>
      obtain ⟨a, ha, hnot⟩ := exists_not_of_hasNeighbours_append hne h.spaceBreak
      have hspace : c ≠ ' ' := by simpa using startsOutside_cons.1 ht
      have hbreak : isBreak c = false := by simpa [hs a ha] using hnot
      obtain rfl | hkept | hc := space_or_isKept_or (h.printable c (by simp))
      · exact absurd rfl hspace
      · exact absurd hkept.isBreak (by rw [hbreak]; decide)
      · exact startsOutside_cons.2 hc

/-- Behind breaks no space follows. -/
theorem IsFlowing.startsOutside_of_breaks {s t : List Char} (h : IsFlowing (s ++ t)) (hne : s ≠ [])
    (hs : ∀ c ∈ s, isBreak c = true) (ht : StartsOutside isBreak t) :
    StartsOutside isBlankOrBreak t := by
  cases t with
  | nil => exact startsOutside_nil _
  | cons c t =>
      obtain ⟨a, ha, hnot⟩ := exists_not_of_hasNeighbours_append hne h.breakSpace
      have hspace : c ≠ ' ' := by simpa [hs a ha] using hnot
      obtain rfl | hkept | hc := space_or_isKept_or (h.printable c (by simp))
      · exact absurd rfl hspace
      · exact absurd hkept.isBreak (by rw [startsOutside_cons.1 ht]; decide)
      · exact startsOutside_cons.2 hc

/-- Such a text is a stretch, or a stretch and a gap in front of another such text. -/
theorem IsFlowing.cases {cs : List Char} (h : IsFlowing cs) :
    ∃ w rest, cs = w ++ rest ∧ (∀ c ∈ w, isBlankOrBreak c = false) ∧
      (rest = [] ∨ ∃ s t, rest = s ++ t ∧ s ≠ [] ∧
        ((∀ c ∈ s, c = ' ') ∨ ∀ c ∈ s, IsKept c ∧ c ≠ '\n') ∧ IsFlowing t ∧
        StartsOutside isBlankOrBreak t) := by
  obtain ⟨w, rest, rfl, hw, hrest⟩ := exists_stretch (fun c => ! isBlankOrBreak c) cs
  refine ⟨w, rest, rfl, fun c hc => by simpa using hw c hc, ?_⟩
  cases rest with
  | nil => exact Or.inl rfl
  | cons b rest =>
      have hb : isBlankOrBreak b = true := by simpa using startsOutside_cons.1 hrest
      have h : IsFlowing (b :: rest) := h.of_append
      obtain rfl | hkept | hb' := space_or_isKept_or (h.printable b List.mem_cons_self)
      · obtain ⟨spaces, t, rfl, hspaces, ht⟩ := exists_stretch (· == ' ') rest
        have hspaces : ∀ c ∈ ' ' :: spaces, c = ' ' := by simpa using hspaces
        rw [← List.cons_append] at h
        exact Or.inr ⟨' ' :: spaces, t, rfl, by simp, Or.inl hspaces, h.of_append,
          h.startsOutside_of_spaces (by simp) hspaces ht⟩
      · obtain ⟨breaks, t, rfl, hbreaks, ht⟩ := exists_stretch isBreak rest
        have hbreaks : ∀ c ∈ b :: breaks, isBreak c = true := by
          simpa [hkept.isBreak] using hbreaks
        rw [← List.cons_append] at h
        refine Or.inr ⟨b :: breaks, t, rfl, by simp, Or.inr fun c hc => ⟨?_, ?_⟩, h.of_append,
          h.startsOutside_of_breaks (by simp) hbreaks ht⟩
        · exact isKept_of_isBreak (h.printable c (List.mem_append_left t hc)) (hbreaks c hc)
        · rintro rfl
          exact h.noLineFeed (List.mem_append_left t hc)
      · rw [hb] at hb'
        cases hb'

/-- A stretch between single quotes: each quote is written twice. -/
def doubledQuotes (cs : List Char) : List Char :=
  cs.flatMap fun c => if c == '\'' then ['\'', '\''] else [c]

section

variable {indent : Nat}

theorem singleBody_append {s : List Char} (hs : ∀ c ∈ s, isBreak c = false) (t : List Char) :
    singleBody indent false (s ++ t) = doubledQuotes s ++ singleBody indent false t := by
  induction s with
  | nil => rfl
  | cons c s ih =>
      rw [List.cons_append, singleBody, if_neg (by simp [hs c List.mem_cons_self]),
        ih fun d hd => hs d (List.mem_cons_of_mem c hd), doubledQuotes, doubledQuotes,
        List.flatMap_cons]
      simp

theorem singleBody_spaces {s : List Char} (hs : ∀ c ∈ s, c = ' ') (t : List Char) :
    singleBody indent false (s ++ t) = s ++ singleBody indent false t := by
  have hdoubled : doubledQuotes s = s := by
    rw [List.eq_replicate_of_mem hs]
    simp [doubledQuotes, List.flatMap_replicate]
  rw [singleBody_append (fun c hc => by rw [hs c hc]; rfl), hdoubled]

theorem singleBody_breaks (atBreak : Bool) {b : Char} {bs : List Char}
    (hbs : ∀ c ∈ b :: bs, isBreak c = true) (t : List Char) :
    singleBody indent atBreak (b :: bs ++ t) = b :: bs ++ singleBody indent true t := by
  induction bs generalizing b atBreak with
  | nil => rw [List.cons_append, singleBody, if_pos (hbs b List.mem_cons_self)]; rfl
  | cons d bs ih =>
      rw [List.cons_append, singleBody, if_pos (hbs b List.mem_cons_self),
        ih true fun c hc => hbs c (List.mem_cons_of_mem b hc), ← List.cons_append]

/-- A line is indented before its first character, and before the closing quote. -/
theorem singleBody_line {t : List Char} (h : StartsOutside isBreak t) :
    singleBody indent true t = indentChars indent ++ singleBody indent false t := by
  cases t with
  | nil => rfl
  | cons c t => simp [singleBody, startsOutside_cons.1 h]

/-- What stands between quotes starts with a blank or a break only if the text does. -/
theorem startsOutside_singleBody {t : List Char} (h : StartsOutside isBlankOrBreak t)
    (tail : List Char) : StartsOutside isBlankOrBreak (singleBody indent false t ++ tail) := by
  cases t with
  | nil => exact startsOutside_cons.2 (by decide)
  | cons c t =>
      have hc := startsOutside_cons.1 h
      have hbreak := (isBlankOrBreak_eq_false_iff.1 hc).2
      by_cases hquote : c = '\''
      · subst hquote
        rw [singleBody, if_neg (by decide)]
        exact startsOutside_cons.2 (by decide)
      · simp [singleBody, hbreak, hquote, startsOutside_cons, hc]

end

theorem singleStretch_append {s : List Char} (hs : ∀ c ∈ s, isBlankOrBreak c = false)
    (rest : List Char) : singleStretch (doubledQuotes s ++ rest) =
      ⟨s ++ (singleStretch rest).chars, (doubledQuotes s).length + (singleStretch rest).length,
        (singleStretch rest).ending⟩ := by
  induction s with
  | nil => simp [doubledQuotes]
  | cons c s ih =>
      have hc := hs c List.mem_cons_self
      have hrest := ih fun d hd => hs d (List.mem_cons_of_mem c hd)
      by_cases hquote : c = '\''
      · have happend : doubledQuotes (c :: s) ++ rest =
            '\'' :: '\'' :: (doubledQuotes s ++ rest) := by
          simp [doubledQuotes, hquote]
        rw [happend, singleStretch, hrest]
        simp [Stretch.cons, doubledQuotes, hquote]
        omega
      · have happend : doubledQuotes (c :: s) ++ rest = c :: (doubledQuotes s ++ rest) := by
          simp [doubledQuotes, hquote]
        rw [happend, singleStretch, hrest, if_neg (by simpa using hquote), if_neg (by simp [hc])]
        · simp [Stretch.cons, doubledQuotes, hquote]
          omega
        · rintro _ h
          exact absurd h hquote

theorem singleStretch_quote {tail : List Char} (h : StartsOutside (· == '\'') tail) :
    singleStretch ('\'' :: tail) = ⟨[], 0, .quote⟩ := by
  cases tail with
  | nil => rfl
  | cons c tail =>
      have hc : c ≠ '\'' := by simpa using startsOutside_cons.1 h
      rw [singleStretch, if_pos (by decide)]
      rintro rest - h
      exact hc (List.cons.inj h).1

theorem singleStretch_gap {c : Char} (h : isBlankOrBreak c = true) (rest : List Char) :
    singleStretch (c :: rest) = ⟨[], 0, .gap⟩ := by
  have hquote : c ≠ '\'' := by
    rintro rfl
    exact absurd h (by decide)
  rw [singleStretch, if_neg (by simpa using hquote), if_pos h]
  rintro _ h'
  exact absurd h' hquote

/-- The stretches of a text between single quotes are read one after another. -/
theorem quotedStretches_single {indent : Nat} (hindent : 0 < indent) {tail : List Char}
    (htail : StartsOutside (· == '\'') tail) (cs before : List Char)
    (fuel index line column : Nat) (hcs : IsFlowing cs) (hcolumn : 0 < column)
    (hfuel : cs.length < fuel) :
    ∃ index' line' column', quotedStretches singleStretch fuel before
      ⟨singleBody indent false cs ++ tail, index, line, column⟩ =
      some (before ++ cs, ⟨tail, index', line', column'⟩) := by
  induction fuel generalizing cs before index line column with
  | zero => omega
  | succ fuel ih =>
      obtain ⟨w, rest, rfl, hw, hrest⟩ := hcs.cases
      rw [singleBody_append fun c hc => (isBlankOrBreak_eq_false_iff.1 (hw c hc)).2,
        List.append_assoc]
      obtain rfl | ⟨s, t, rfl, hne, hs, ht, hfront⟩ := hrest
      · have hstretch : singleStretch (doubledQuotes w ++ '\'' :: tail) =
            ⟨w, (doubledQuotes w).length, .quote⟩ := by
          rw [singleStretch_append hw, singleStretch_quote htail]
          simp
        show ∃ _ _ _, quotedStretches _ _ _ ⟨doubledQuotes w ++ '\'' :: tail, _, _, _⟩ = _
        rw [quotedStretches_of_quote fuel before hcolumn (by simp [Cursor.atEnd]) hstretch,
          Cursor.skipMany_append, Cursor.skip_of_not_isBreak (by decide), List.append_nil]
        exact ⟨_, _, _, rfl⟩
      · obtain ⟨b, bs, rfl⟩ := List.exists_cons_of_ne_nil hne
        have hstretch (hb : isBlankOrBreak b = true) (X : List Char) :
            singleStretch (doubledQuotes w ++ b :: X) = ⟨w, (doubledQuotes w).length, .gap⟩ := by
          rw [singleStretch_append hw, singleStretch_gap hb]
          simp
        simp only [List.length_append, List.length_cons] at hfuel
        obtain hs | hs := hs
        · -- spaces within a line
          obtain rfl := hs b List.mem_cons_self
          rw [singleBody_spaces hs, List.append_assoc,
            quotedStretches_of_spaces fuel before hcolumn hne hs
              (startsOutside_singleBody hfront tail) (hstretch (by decide) _)]
          simpa using ih t (before ++ w ++ ' ' :: bs) _ line _ ht
            (Nat.add_pos_left (Nat.add_pos_left hcolumn _) _) (by omega)
        · -- breaks, and the indentation of the line behind them
          obtain ⟨hkept, hfeed⟩ := hs b List.mem_cons_self
          rw [singleBody_breaks false fun c hc => (hs c hc).1.isBreak,
            singleBody_line (hfront.mono fun c hc => (isBlankOrBreak_eq_false_iff.1 hc).2),
            indentChars, List.append_assoc, List.append_assoc]
          obtain ⟨index', line', hread⟩ := quotedStretches_of_breaks fuel before indent hcolumn
            hkept hfeed (fun c hc => (hs c (List.mem_cons_of_mem b hc)).1)
            (startsOutside_singleBody hfront tail)
            (hstretch hkept.isBlankOrBreak _)
          rw [hread]
          simpa using ih t (before ++ w ++ b :: bs) index' line' indent ht hindent (by omega)

theorem length_le_singleBody (indent : Nat) (atBreak : Bool) (cs : List Char) :
    cs.length ≤ (singleBody indent atBreak cs).length := by
  induction cs generalizing atBreak with
  | nil => exact Nat.zero_le _
  | cons c cs ih =>
      have htrue := ih true
      have hfalse := ih false
      rw [singleBody]
      split
      · simpa using htrue
      · split <;> split <;> simp <;> omega

/-- **A text between single quotes is read back.** -/
theorem quotedScalar_single {indent : Nat} (hindent : 0 < indent) {cs tail : List Char}
    (hcs : IsFlowing cs) (htail : StartsOutside (· == '\'') tail) (index line column : Nat) :
    ∃ index' line' column', quotedScalar ⟨singleChars indent cs ++ tail, index, line, column⟩ =
      some (cs, ⟨tail, index', line', column'⟩) := by
  rw [quotedScalar, singleChars, List.cons_append, Cursor.holds_cons, if_pos (by decide),
    Cursor.skip_of_not_isBreak (by decide)]
  refine quotedStretches_single hindent htail cs [] _ _ line _ hcs (Nat.succ_pos column) ?_
  have := length_le_singleBody indent false cs
  simp
  omega

/-! ### Double quotes -/

theorem doubleStretch_letter {c l : Char} (h : letterOf? c = some l) (rest : List Char) :
    doubleStretch ('\\' :: l :: rest) = (doubleStretch rest).cons c 2 := by
  unfold letterOf? at h
  split at h <;> first | (cases h; done) | (obtain rfl := Option.some.inj h; rfl)

theorem ofHex?_padded {c : Char} {width : Nat} (h : c.toNat < Nat.pow 16 width) :
    ofHex? (Digits.padded Digits.capital width c.toNat) = some c := by
  have hletter : ∀ d < 16, Digits.value? 16 (Digits.capital d) = some d :=
    fun d => Digits.value?_capital
  rw [ofHex?, Digits.toNat_padded hletter, Nat.mod_eq_of_lt h,
    Digits.all_isDigit_padded hletter]
  have hvalid : c.toNat.isValidChar := c.valid
  rw [Nat.isValidChar] at hvalid
  rw [if_neg (by decide), if_neg (by omega), Char.ofNat_toNat]

/-- What has no letter is neither a quote nor a backslash nor a printable break. -/
theorem ne_of_letterOf?_eq_none {c : Char} (h : letterOf? c = none) :
    c ≠ '"' ∧ c ≠ '\\' ∧ ¬ IsKept c := by
  refine ⟨?_, ?_, ?_⟩
  · rintro rfl
    cases h
  · rintro rfl
    cases h
  · rintro (rfl | rfl | rfl) <;> cases h

theorem doubleStretch_cons {c : Char} (hquote : c ≠ '"') (hslash : c ≠ '\\')
    (h : isBlankOrBreak c = false) (rest : List Char) :
    doubleStretch (c :: rest) = (doubleStretch rest).cons c 1 := by
  rw [doubleStretch, if_neg (by simpa using hquote), if_neg (by simpa using hslash),
    if_neg (by simp [h])]
  all_goals
    intros
    contradiction

/-- **A character between double quotes is read back**, unless it is a space. -/
theorem doubleStretch_doubleChar {c : Char} (hspace : c ≠ ' ') (rest : List Char) :
    doubleStretch (doubleChar c ++ rest) = (doubleStretch rest).cons c (doubleChar c).length := by
  unfold doubleChar
  split
  next l hl => exact doubleStretch_letter hl rest
  next hl =>
    split
    next hprintable =>
      obtain ⟨hquote, hslash, hkept⟩ := ne_of_letterOf?_eq_none hl
      obtain rfl | h | h := space_or_isKept_or hprintable
      · exact absurd rfl hspace
      · exact absurd h hkept
      · exact doubleStretch_cons hquote hslash h rest
    next hnot =>
      split
      next hn =>
        show behind (ofHex? (Digits.padded Digits.capital 2 c.toNat)) 4 _ = _
        rw [ofHex?_padded (Nat.lt_of_le_of_lt hn (by decide))]
        rfl
      next hn =>
        split
        next hn' =>
          show behind (ofHex? (Digits.padded Digits.capital 4 c.toNat)) 6 _ = _
          rw [ofHex?_padded (Nat.lt_of_le_of_lt hn' (by decide))]
          rfl
        next hn' =>
          show behind (ofHex? (Digits.padded Digits.capital 8 c.toNat)) 10 _ = _
          rw [ofHex?_padded (Nat.lt_of_lt_of_le c.val.toNat_lt (by decide))]
          rfl

theorem doubleStretch_append {s : List Char} (hs : ∀ c ∈ s, c ≠ ' ') (rest : List Char) :
    doubleStretch (s.flatMap doubleChar ++ rest) =
      ⟨s ++ (doubleStretch rest).chars,
        (s.flatMap doubleChar).length + (doubleStretch rest).length,
        (doubleStretch rest).ending⟩ := by
  induction s with
  | nil => simp
  | cons c s ih =>
      rw [List.flatMap_cons, List.append_assoc, doubleStretch_doubleChar (hs c List.mem_cons_self),
        ih fun d hd => hs d (List.mem_cons_of_mem c hd), Stretch.cons]
      simp [Nat.add_assoc]

theorem doubleStretch_quote (tail : List Char) :
    doubleStretch ('"' :: tail) = ⟨[], 0, .quote⟩ := rfl

theorem doubleStretch_space (rest : List Char) : doubleStretch (' ' :: rest) = ⟨[], 0, .gap⟩ := rfl

theorem flatMap_doubleChar_spaces {s : List Char} (hs : ∀ c ∈ s, c = ' ') :
    s.flatMap doubleChar = s := by
  rw [List.eq_replicate_of_mem hs]
  exact List.flatMap_replicate.trans (by simp [doubleChar, letterOf?, isPrintable])

/-- Between double quotes only the space is written with a blank or a break in front. -/
theorem exists_doubleChar_eq_cons (c : Char) :
    ∃ d ds, doubleChar c = d :: ds ∧ (c ≠ ' ' → isBlankOrBreak d = false) := by
  unfold doubleChar
  split
  next l _ => exact ⟨_, _, rfl, fun _ => rfl⟩
  next hl =>
    split
    next hprintable =>
      refine ⟨c, [], rfl, fun hspace => ?_⟩
      obtain rfl | h | h := space_or_isKept_or hprintable
      · exact absurd rfl hspace
      · exact absurd h (ne_of_letterOf?_eq_none hl).2.2
      · exact h
    next hnot =>
      split
      · exact ⟨_, _, rfl, fun _ => rfl⟩
      · split <;> exact ⟨_, _, rfl, fun _ => rfl⟩

theorem startsOutside_doubleChars {t : List Char} (h : StartsOutside (· == ' ') t)
    (tail : List Char) :
    StartsOutside isBlankOrBreak (t.flatMap doubleChar ++ '"' :: tail) := by
  cases t with
  | nil => exact startsOutside_cons.2 (by decide)
  | cons c t =>
      obtain ⟨d, ds, hd, houtside⟩ := exists_doubleChar_eq_cons c
      rw [List.flatMap_cons, hd]
      exact startsOutside_cons.2 (houtside (by simpa using startsOutside_cons.1 h))

theorem length_le_doubleChars (cs : List Char) : cs.length ≤ (cs.flatMap doubleChar).length := by
  induction cs with
  | nil => exact Nat.zero_le _
  | cons c cs ih =>
      obtain ⟨d, ds, hd, -⟩ := exists_doubleChar_eq_cons c
      simp only [List.flatMap_cons, hd, List.length_append, List.length_cons]
      omega

/-- The stretches of a text between double quotes are read one after another, all of them in one
line. -/
theorem quotedStretches_double (tail cs before : List Char) (fuel index line column : Nat)
    (hcolumn : 0 < column) (hfuel : cs.length < fuel) :
    quotedStretches doubleStretch fuel before
      ⟨cs.flatMap doubleChar ++ '"' :: tail, index, line, column⟩ =
      some (before ++ cs, ⟨tail, index + (cs.flatMap doubleChar).length + 1, line,
        column + (cs.flatMap doubleChar).length + 1⟩) := by
  induction fuel generalizing cs before index line column with
  | zero => omega
  | succ fuel ih =>
      obtain ⟨w, rest, rfl, hw, hrest⟩ := exists_stretch (· != ' ') cs
      have hw : ∀ c ∈ w, c ≠ ' ' := fun c hc => by simpa using hw c hc
      rw [List.flatMap_append, List.append_assoc]
      cases rest with
      | nil =>
          have hstretch : doubleStretch (w.flatMap doubleChar ++ '"' :: tail) =
              ⟨w, (w.flatMap doubleChar).length, .quote⟩ := by
            rw [doubleStretch_append hw, doubleStretch_quote]
            simp
          show quotedStretches _ _ _ ⟨w.flatMap doubleChar ++ '"' :: tail, _, _, _⟩ = _
          rw [quotedStretches_of_quote fuel before hcolumn (by simp [Cursor.atEnd]) hstretch,
            Cursor.skipMany_append, Cursor.skip_of_not_isBreak (by decide), List.append_nil,
            List.flatMap_nil, List.append_nil]
      | cons b rest =>
          obtain rfl : b = ' ' := by simpa using startsOutside_cons.1 hrest
          obtain ⟨spaces, t, rfl, hspaces, ht⟩ := exists_stretch (· == ' ') rest
          have hspaces : ∀ c ∈ ' ' :: spaces, c = ' ' := by simpa using hspaces
          have hstretch (X : List Char) : doubleStretch (w.flatMap doubleChar ++ ' ' :: X) =
              ⟨w, (w.flatMap doubleChar).length, .gap⟩ := by
            rw [doubleStretch_append hw, doubleStretch_space]
            simp
          -- The spaces are written as they are, and the reader takes them for a gap.
          rw [← List.cons_append, List.flatMap_append, flatMap_doubleChar_spaces hspaces,
            List.append_assoc, quotedStretches_of_spaces fuel before hcolumn (by simp) hspaces
              (startsOutside_doubleChars ht tail) (hstretch _)]
          simp only [List.length_append, List.length_cons] at hfuel
          rw [ih t _ _ line _ (Nat.add_pos_left (Nat.add_pos_left hcolumn _) _) (by omega)]
          simp only [List.append_assoc, List.length_append, Nat.add_assoc]

/-- **A text between double quotes is read back**, and the reader stays in its line. -/
theorem quotedScalar_double (cs tail : List Char) (index line column : Nat) :
    quotedScalar ⟨doubleChars cs ++ tail, index, line, column⟩ =
      some (cs, ⟨tail, index + (doubleChars cs).length, line,
        column + (doubleChars cs).length⟩) := by
  have hlength : (doubleChars cs).length = 1 + (cs.flatMap doubleChar).length + 1 := by
    simp only [doubleChars, List.length_cons, List.length_append, List.length_nil]
    omega
  have hfuel := length_le_doubleChars cs
  rw [hlength, quotedScalar, doubleChars, List.append_assoc, List.cons_append, Cursor.holds_cons,
    if_neg (by decide), Cursor.skip_of_not_isBreak (by decide), List.singleton_append,
    quotedStretches_double tail cs [] _ _ line _ (Nat.succ_pos column) (by
      simp only [List.length_append, List.length_cons]
      omega)]
  simp only [List.nil_append, Nat.add_assoc, Nat.succ_eq_add_one]

end Yaml

end CaptureConfig

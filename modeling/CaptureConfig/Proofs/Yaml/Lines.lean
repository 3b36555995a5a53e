/-
**Scalars of whole lines read back.**

Below a bar a text is its lines, each of them indented, and the breaks that close it.  The sign says
how many of the latter belong to the text; a line feed that the printer adds so that the last line
has an end does not.  So what is printed is always a text that ends within a line, and some breaks
behind it, and the induction goes over the lines of the former.

Main definitions:

* `Yaml.IsLines` — the texts that may stand below a bar;
* `Yaml.lineEnd`, `Yaml.Chomp.close` — the breaks that close a text below a bar.

Main results:

* `Yaml.emptyLines_of_breaks` — empty lines, and the indentation behind them;
* `Yaml.contentLines_literal` — the lines of a text;
* `Yaml.linesScalar_literal` — **a text below a bar is read back**.
-/

import CaptureConfig.Proofs.Yaml.Cursor
import CaptureConfig.Yaml.Token.Lines

set_option relaxedAutoImplicit false
set_option autoImplicit false

namespace CaptureConfig

namespace Yaml

/-! ### Empty lines -/

section

variable {rest : List Char} {n indent : Nat}

/-- What a line goes on with behind its indentation: it is indented less than the scalar and
something else begins, or it is indented as far and is not empty. -/
def EndsIndentation (indent n : Nat) (rest : List Char) : Prop :=
  n < indent ∧ StartsOutside isBlankOrBreak rest ∨
    n = indent ∧ StartsOutside (fun c => c == '\t' || isBreak c) rest

theorem not_tab_of_isBlankOrBreak {c : Char} (h : isBlankOrBreak c = false) :
    (c == '\t' || isBreak c) = false := by
  obtain ⟨hblank, hbreak⟩ := isBlankOrBreak_eq_false_iff.1 h
  rw [(isBlank_eq_false_iff.1 hblank).2, hbreak]
  rfl

theorem EndsIndentation.not_isBreak (h : EndsIndentation indent n rest) :
    StartsOutside (fun c => c == '\t' || isBreak c) rest := by
  obtain ⟨-, h⟩ | ⟨-, h⟩ := h
  · exact h.mono fun _ => not_tab_of_isBlankOrBreak
  · exact h

/-- Where neither a tab nor a break is, the empty lines are over. -/
theorem holds_of_startsOutside (h : StartsOutside (fun c => c == '\t' || isBreak c) rest)
    (index line column : Nat) :
    (Cursor.mk rest index line column).holds '\t' = false ∧
      (Cursor.mk rest index line column).peek.any isBreak = false := by
  cases rest with
  | nil => exact ⟨rfl, rfl⟩
  | cons c rest => exact Bool.or_eq_false_iff.1 (startsOutside_cons.1 h)

/-- The indentation is passed over, and nothing behind it. -/
theorem EndsIndentation.min_length_run (h : EndsIndentation indent n rest) (index line : Nat) :
    min ((Cursor.mk (List.replicate n ' ' ++ rest) index line 0).run (· == ' ')).length
      (indent - 0) = n := by
  have hrun : (Cursor.mk (List.replicate n ' ' ++ rest) index line 0).run (· == ' ') =
      List.replicate n ' ' ++ (Cursor.mk rest index line 0).run (· == ' ') := by
    refine List.takeWhile_append_of_pos fun c hc => ?_
    rw [List.eq_of_mem_replicate hc]
    rfl
  rw [hrun, List.length_append, List.length_replicate]
  obtain ⟨hn, hrest⟩ | ⟨rfl, -⟩ := h
  · have hnil : (Cursor.mk rest index line 0).run (· == ' ') = [] := by
      cases rest with
      | nil => rfl
      | cons c rest =>
          have hc : c ≠ ' ' := by
            rintro rfl
            exact absurd (startsOutside_cons.1 hrest) (by decide)
          simp [Cursor.run, hc]
    rw [hnil]
    simp only [List.length_nil]
    omega
  · omega

/-- The indentation of a line that is not empty. -/
theorem emptyLines_of_indentation (h : EndsIndentation indent n rest) (hindent : 0 < indent)
    (fuel : Nat) (breaks : List Char) (widest index line : Nat) :
    emptyLines indent (fuel + 1) breaks widest
      ⟨List.replicate n ' ' ++ rest, index, line, 0⟩ =
      some (breaks, max widest n, ⟨rest, index + n, line, n⟩) := by
  have hskip : (Cursor.mk (List.replicate n ' ' ++ rest) index line 0).skipMany n =
      ⟨rest, index + n, line, n⟩ := by
    rw [Cursor.skipMany, List.drop_left' List.length_replicate, Nat.zero_add]
  have hbehind := holds_of_startsOutside h.not_isBreak (index + n) line n
  rw [emptyLines]
  simp only [Nat.ne_of_gt hindent, if_false, h.min_length_run index line, hskip, hbehind.1,
    hbehind.2, Bool.false_and, Bool.false_eq_true]

/-- **Empty lines, and the indentation behind them.** -/
theorem emptyLines_of_breaks (h : EndsIndentation indent n rest) (hindent : 0 < indent)
    (bs : List Char) (hbs : ∀ b ∈ bs, IsKept b) (fuel : Nat) (breaks : List Char)
    (widest index line : Nat) (hfuel : bs.length + n ≤ fuel) :
    ∃ widest' index' line', emptyLines indent fuel breaks widest
      ⟨bs ++ (List.replicate n ' ' ++ rest), index, line, 0⟩ =
      some (breaks ++ bs, widest', ⟨rest, index', line', n⟩) := by
  induction bs generalizing fuel breaks widest index line with
  | nil =>
      rw [List.append_nil, List.nil_append]
      cases fuel with
      | zero =>
          obtain rfl : n = 0 := by simpa using hfuel
          exact ⟨_, _, _, rfl⟩
      | succ fuel =>
          exact ⟨_, _, _, emptyLines_of_indentation h hindent fuel breaks widest index line⟩
  | cons b bs ih =>
      obtain ⟨fuel, rfl⟩ : ∃ k, fuel = k + 1 := ⟨fuel - 1, by simp at hfuel; omega⟩
      have hkept := hbs b List.mem_cons_self
      obtain ⟨widest', index', line', hread⟩ := ih (fun c hc => hbs c (List.mem_cons_of_mem b hc))
        fuel (breaks ++ [b]) (max widest 0) (index + 1) (line + 1) (by simp at hfuel; omega)
      refine ⟨widest', index', line', ?_⟩
      have hrun : (Cursor.mk (b :: (bs ++ (List.replicate n ' ' ++ rest))) index line 0).run
          (· == ' ') = [] := by
        simp [Cursor.run, hkept.isBreak]
      have htab : (b == '\t') = false := by
        obtain rfl | rfl | rfl := hkept <;> rfl
      rw [List.cons_append, emptyLines, hrun]
      simp only [List.length_nil, Nat.zero_min, ite_self, Cursor.skipMany, List.drop_zero,
        Nat.add_zero, Cursor.holds_cons, htab, Bool.false_and, Bool.false_eq_true, if_false,
        Cursor.peek_cons, Option.any_some, hkept.isBreak, if_true,
        Cursor.breakChars_of_isKept hkept, Cursor.skip_of_isBreak hkept.isBreak hkept.ne_return]
      simpa using hread

/-- The indentation of the first line, where none is given. -/
theorem emptyLines_zero (h : StartsOutside isBlankOrBreak rest) (fuel index line : Nat) :
    emptyLines 0 (fuel + 1) [] 0 ⟨List.replicate n ' ' ++ rest, index, line, 0⟩ =
      some ([], n, ⟨rest, index + n, line, n⟩) := by
  have hspaces : ∀ c ∈ List.replicate n ' ', (c == ' ' && ! isBreak c) = true := by
    intro c hc
    rw [List.eq_of_mem_replicate hc]
    rfl
  have hrest : StartsOutside (fun c => c == ' ' && ! isBreak c) rest := by
    refine h.mono fun c hc => ?_
    rw [(isBlank_eq_false_iff.1 (isBlankOrBreak_eq_false_iff.1 hc).1).1]
    rfl
  have hbehind := holds_of_startsOutside (h.mono fun _ => not_tab_of_isBlankOrBreak)
    (index + n) line n
  have hskip : (Cursor.mk (List.replicate n ' ' ++ rest) index line 0).skipWhile (· == ' ') =
      ⟨rest, index + n, line, n⟩ := by
    rw [Cursor.skipWhile_append hspaces hrest, List.length_replicate, Nat.zero_add]
  rw [emptyLines]
  rw [Cursor.skipWhile] at hskip
  simp only [if_true, hskip, hbehind.1, hbehind.2, Bool.false_and, Bool.false_eq_true, if_false,
    Nat.zero_max]

end

/-! ### Lines -/

section

variable {indent fuel index line : Nat} {leading trailing : List Char} {indented : Bool}

/-- A line that is indented less ends the scalar. -/
theorem contentLines_end {c : Cursor} (h : c.column ≠ indent) :
    contentLines false indent fuel leading trailing indented c =
      some ([], leading, trailing, c) := by
  cases fuel with
  | zero => rfl
  | succ fuel => rw [contentLines, if_neg fun hc => h hc.1]

/-- A line, its break, and the empty lines behind it. -/
theorem contentLines_line {l X breaks : List Char} {b : Char} {widest : Nat} {behind : Cursor}
    (hl : ∀ c ∈ l, isBreak c = false) (hb : IsKept b)
    (hempty : emptyLines indent fuel [] 0 ⟨X, index + l.length + 1, line + 1, 0⟩ =
      some (breaks, widest, behind)) {text last rest : List Char} {reached : Cursor}
    (hmore : contentLines false indent fuel [b] breaks ((l ++ b :: X).head?.any isBlank) behind =
      some (text, last, rest, reached)) :
    contentLines false indent (fuel + 1) leading trailing indented
      ⟨l ++ b :: X, index, line, indent⟩ =
      some (leading ++ trailing ++ l ++ text, last, rest, reached) := by
  have hend : (Cursor.mk (l ++ b :: X) index line indent).atEnd = false := by
    simp [Cursor.atEnd]
  have hl : ∀ c ∈ l, (true && ! isBreak c) = true := fun c hc => by simp [hl c hc]
  have hb' : StartsOutside (fun c => true && ! isBreak c) (b :: X) :=
    startsOutside_cons.2 (by simp [hb.isBreak])
  have hskip : (Cursor.mk (l ++ b :: X) index line indent).skipLine =
      ⟨b :: X, index + l.length, line, indent + l.length⟩ := Cursor.skipWhile_append hl hb'
  rw [contentLines, if_pos ⟨rfl, by simp [hend]⟩]
  simp only [Cursor.run_append hl hb', hskip, Cursor.skip_of_isBreak hb.isBreak hb.ne_return,
    Cursor.breakChars_of_isKept hb, hempty, Cursor.peek]
  simp only [Bool.false_and, Bool.false_eq_true, if_false, Option.bind_eq_bind, Option.bind_some,
    hmore, Option.pure_def]

end

section

variable {indent : Nat}

theorem literalBody_line {l : List Char} (hl : ∀ c ∈ l, isBreak c = false) (t : List Char) :
    literalBody indent false (l ++ t) = l ++ literalBody indent false t := by
  induction l with
  | nil => rfl
  | cons c l ih =>
      rw [List.cons_append, literalBody, if_neg (by simp [hl c List.mem_cons_self]),
        ih fun d hd => hl d (List.mem_cons_of_mem c hd)]
      rfl

theorem literalBody_breaks {bs : List Char} (hbs : ∀ c ∈ bs, isBreak c = true) (t : List Char) :
    literalBody indent true (bs ++ t) = bs ++ literalBody indent true t := by
  induction bs with
  | nil => rfl
  | cons b bs ih =>
      rw [List.cons_append, literalBody, if_pos (hbs b List.mem_cons_self),
        ih fun c hc => hbs c (List.mem_cons_of_mem b hc), ← List.cons_append]

theorem literalBody_of_breaks {bs : List Char} (hbs : ∀ c ∈ bs, isBreak c = true)
    (atBreak : Bool) : literalBody indent atBreak bs = bs := by
  induction bs generalizing atBreak with
  | nil => rfl
  | cons b bs ih =>
      rw [literalBody, if_pos (hbs b List.mem_cons_self),
        ih fun c hc => hbs c (List.mem_cons_of_mem b hc)]

/-- Breaks behind a text stand as they are. -/
theorem literalBody_append_breaks {bs : List Char} (hbs : ∀ c ∈ bs, isBreak c = true)
    (t : List Char) (atBreak : Bool) :
    literalBody indent atBreak (t ++ bs) = literalBody indent atBreak t ++ bs := by
  induction t generalizing atBreak with
  | nil => exact literalBody_of_breaks hbs atBreak
  | cons c t ih =>
      rw [List.cons_append, literalBody, literalBody]
      split <;> simp [ih]

/-- A line that is not empty is indented. -/
theorem literalBody_indented {t : List Char} (hne : t ≠ []) (h : StartsOutside isBreak t) :
    literalBody indent true t = indentChars indent ++ literalBody indent false t := by
  cases t with
  | nil => exact absurd rfl hne
  | cons c t => simp [literalBody, startsOutside_cons.1 h]

end

/-- **A text that starts and ends within a line.** -/
structure IsLines (text : List Char) : Prop where
  printable : ∀ c ∈ text, isPrintable c = true
  first : StartsOutside isBreak text
  last : ∃ c ∈ text.getLast?, isBreak c = false

theorem IsLines.ne_nil {text : List Char} (h : IsLines text) : text ≠ [] := by
  rintro rfl
  obtain ⟨c, hc, -⟩ := h.last
  exact absurd hc (by simp)

/-- Such a text is a line, or a line, some breaks and a further text. -/
theorem IsLines.cases {text : List Char} (h : IsLines text) :
    ∃ l more, text = l ++ more ∧ l ≠ [] ∧ (∀ c ∈ l, isBreak c = false) ∧
      (more = [] ∨ ∃ b bs text', more = b :: bs ++ text' ∧ (∀ c ∈ b :: bs, IsKept c) ∧
        IsLines text') := by
  obtain ⟨l, more, rfl, hl, hmore⟩ := exists_stretch (fun c => ! isBreak c) text
  have hl : ∀ c ∈ l, isBreak c = false := fun c hc => by simpa using hl c hc
  have hne : l ≠ [] := by
    rintro rfl
    obtain ⟨c, more, rfl⟩ := List.exists_cons_of_ne_nil h.ne_nil
    have hc : isBreak c = true := by simpa using startsOutside_cons.1 hmore
    exact absurd hc (by rw [startsOutside_cons.1 h.first]; decide)
  refine ⟨l, more, rfl, hne, hl, ?_⟩
  cases more with
  | nil => exact Or.inl rfl
  | cons b more =>
      obtain ⟨bs, text', rfl, hbs, htext⟩ := exists_stretch isBreak more
      have hbs : ∀ c ∈ b :: bs, isBreak c = true := by
        simpa [startsOutside_cons] using And.intro (startsOutside_cons.1 hmore) hbs
      rw [← List.cons_append] at h
      have hkept : ∀ c ∈ b :: bs, IsKept c := fun c hc =>
        isKept_of_isBreak (h.printable c (List.mem_append_right l (List.mem_append_left text' hc)))
          (hbs c hc)
      rw [← List.append_assoc] at h
      obtain ⟨c, hc, hnot⟩ := h.last
      have hlast : c ∈ text'.getLast? := by
        rw [List.getLast?_append] at hc
        cases hlast : text'.getLast? with
        | some d => rwa [hlast] at hc
        | none =>
            -- the text would end with a break
            rw [hlast, Option.none_or, List.getLast?_append,
              List.getLast?_eq_some_getLast (List.cons_ne_nil b bs), Option.some_or] at hc
            have := hbs c (Option.some.inj hc ▸ List.getLast_mem (List.cons_ne_nil b bs))
            exact absurd this (by rw [hnot]; decide)
      exact Or.inr ⟨b, bs, text', rfl, hkept,
        fun c hc => h.printable c (List.mem_append_right _ hc), htext, c, hlast, hnot⟩

/-- Such a text is indented as far as it should be, and is not empty. -/
theorem IsLines.endsIndentation {text : List Char} (h : IsLines text) (indent : Nat)
    (tail : List Char) :
    EndsIndentation indent indent (literalBody indent false text ++ tail) := by
  obtain ⟨c, t, rfl⟩ := List.exists_cons_of_ne_nil h.ne_nil
  have hbreak := startsOutside_cons.1 h.first
  have htab : c ≠ '\t' := by
    rintro rfl
    exact absurd (h.printable _ List.mem_cons_self) (by decide)
  refine Or.inr ⟨rfl, ?_⟩
  rw [literalBody, if_neg (by simp [hbreak])]
  exact startsOutside_cons.2 (by simp [htab, hbreak])

/-- **The lines of a text**, and the breaks that close it. -/
theorem contentLines_literal {indent n : Nat} {b : Char} {bs rest : List Char}
    (hn : n < indent) (hrest : StartsOutside isBlankOrBreak rest) (hbs : ∀ c ∈ b :: bs, IsKept c)
    {text : List Char} (h : IsLines text) (fuel : Nat) (leading trailing : List Char)
    (indented : Bool) (index line : Nat)
    (hfuel : (literalBody indent false text ++
      (b :: bs ++ (List.replicate n ' ' ++ rest))).length ≤ fuel) :
    ∃ index' line', contentLines false indent fuel leading trailing indented
      ⟨literalBody indent false text ++ (b :: bs ++ (List.replicate n ' ' ++ rest)), index, line,
        indent⟩ =
      some (leading ++ trailing ++ text, [b], bs, ⟨rest, index', line', n⟩) := by
  induction fuel generalizing text leading trailing indented index line with
  | zero => simp at hfuel
  | succ fuel ih =>
      obtain ⟨l, more, rfl, hne, hl, rfl | ⟨d, ds, text, rfl, hds, htext⟩⟩ := h.cases
      · -- the last line
        rw [literalBody_line hl] at hfuel ⊢
        obtain ⟨widest, index', line', hempty⟩ := emptyLines_of_breaks (Or.inl ⟨hn, hrest⟩)
          (Nat.zero_lt_of_lt hn) bs (fun c hc => hbs c (List.mem_cons_of_mem b hc)) fuel [] 0
          (index + l.length + 1) (line + 1) (by simp at hfuel; omega)
        refine ⟨index', line', ?_⟩
        rw [show literalBody indent false [] = [] from rfl, List.append_nil, List.cons_append,
          contentLines_line hl (hbs b List.mem_cons_self) hempty
            (contentLines_end (Nat.ne_of_lt hn))]
        simp
      · -- a line, and the next one behind some breaks
        have hbreaks : ∀ c ∈ d :: ds, isBreak c = true := fun c hc => (hds c hc).isBreak
        have hbody : literalBody indent false (l ++ (d :: ds ++ text)) ++
            (b :: bs ++ (List.replicate n ' ' ++ rest)) =
            l ++ d :: (ds ++ (List.replicate indent ' ' ++ (literalBody indent false text ++
              (b :: bs ++ (List.replicate n ' ' ++ rest))))) := by
          rw [literalBody_line hl, List.cons_append, literalBody,
            if_pos (hbreaks d List.mem_cons_self),
            literalBody_breaks fun c hc => hbreaks c (List.mem_cons_of_mem d hc),
            literalBody_indented htext.ne_nil htext.first, indentChars]
          simp
        rw [hbody] at hfuel ⊢
        simp only [List.length_append, List.length_cons, List.length_replicate] at hfuel
        obtain ⟨widest, index', line', hempty⟩ := emptyLines_of_breaks
          (htext.endsIndentation indent (b :: bs ++ (List.replicate n ' ' ++ rest)))
          (Nat.zero_lt_of_lt hn) ds (fun c hc => hds c (List.mem_cons_of_mem d hc)) fuel [] 0
          (index + l.length + 1) (line + 1) (by omega)
        obtain ⟨index'', line'', hread⟩ := ih htext [d] ds _ index' line'
          (by simp only [List.length_append, List.length_cons, List.length_replicate]; omega)
        refine ⟨index'', line'', ?_⟩
        rw [contentLines_line hl (hds d List.mem_cons_self) hempty hread]
        simp

/-! ### The sign and its marks -/

/-- The mark that says how many breaks at the end belong to a text. -/
def Chomp.mark : Chomp → List Char
  | .strip => ['-']
  | .clip => []
  | .keep => ['+']

/-- The marks of a text below a bar, and what they say. -/
def Marks (marks : List Char) (chomp : Chomp) (increment : Nat) : Prop :=
  ∃ m, marks = m ++ chomp.mark ∧ (m = [] ∧ increment = 0 ∨ m = ['2'] ∧ increment = 2)

theorem linesHeader_of_marks {marks : List Char} {chomp : Chomp} {increment : Nat}
    (h : Marks marks chomp increment) (X : List Char) (index line column : Nat) :
    ∃ index' line', linesHeader ⟨'|' :: (marks ++ '\n' :: X), index, line, column⟩ =
      some (⟨false, chomp, increment⟩, ⟨X, index', line', 0⟩) := by
  obtain ⟨m, rfl, ⟨rfl, rfl⟩ | ⟨rfl, rfl⟩⟩ := h <;> cases chomp <;> exact ⟨_, _, rfl⟩

theorem endMark_concat (init : List Char) (c : Char) :
    endMark (init ++ [c]) =
      if ! isBreak c then ['-']
      else if init.isEmpty || init.getLast?.any isBreak then ['+'] else [] := by
  rw [endMark, List.reverse_append]
  simp

/-! ### Scalars -/

/-- The line feed that the printer adds behind a text that ends within a line. -/
def lineEnd (cs : List Char) : List Char := if cs.getLast?.any isBreak then [] else ['\n']

/-- A text is some breaks, or some breaks, a text that starts and ends within a line, and further
breaks. -/
theorem breaks_or_lines {cs : List Char} (h : ∀ c ∈ cs, isPrintable c = true) :
    (∀ c ∈ cs, IsKept c) ∨ ∃ front text breaks, cs = front ++ (text ++ breaks) ∧
      (∀ c ∈ front, IsKept c) ∧ IsLines text ∧ ∀ c ∈ breaks, IsKept c := by
  obtain ⟨front, t, rfl, hfront, ht⟩ := exists_stretch isBreak cs
  have hfront : ∀ c ∈ front, IsKept c := fun c hc =>
    isKept_of_isBreak (h c (List.mem_append_left t hc)) (hfront c hc)
  obtain ⟨r, u, hreverse, hr, hu⟩ := exists_stretch isBreak t.reverse
  obtain rfl : t = u.reverse ++ r.reverse := by
    rw [← List.reverse_append, ← hreverse, List.reverse_reverse]
  have hbreaks : ∀ c ∈ r.reverse, IsKept c := fun c hc =>
    isKept_of_isBreak (h c (by simp at hc; simp [hc])) (hr c (List.mem_reverse.1 hc))
  cases u with
  | nil =>
      left
      intro c hc
      obtain hc | hc := List.mem_append.1 hc
      · exact hfront c hc
      · exact hbreaks c (by simpa using hc)
  | cons d u =>
      have hd := startsOutside_cons.1 hu
      refine Or.inr ⟨front, (d :: u).reverse, r.reverse, rfl, hfront, ⟨?_, ?_, d, ?_, hd⟩, hbreaks⟩
      · exact fun c hc => h c (List.mem_append_right front (List.mem_append_left _ hc))
      · exact ht.of_append
      · simp

/-- The breaks at the end of a text below a bar decide about its mark. -/
theorem endMark_append (front : List Char) {text breaks : List Char} (h : IsLines text)
    (hbreaks : ∀ c ∈ breaks, IsKept c) :
    breaks = [] ∧ endMark (front ++ (text ++ breaks)) = ['-'] ∨
      (∃ b, breaks = [b]) ∧ endMark (front ++ (text ++ breaks)) = [] ∨
      breaks ≠ [] ∧ endMark (front ++ (text ++ breaks)) = ['+'] := by
  obtain ⟨c, hc, hnot⟩ := h.last
  obtain ⟨init, rfl⟩ := List.getLast?_eq_some_iff.1 hc
  obtain rfl | ⟨breaks, b, rfl⟩ := List.eq_nil_or_concat breaks
  · left
    rw [List.append_nil, ← List.append_assoc, endMark_concat, hnot]
    exact ⟨rfl, rfl⟩
  · right
    have hb : isBreak b = true := (hbreaks b (by simp)).isBreak
    rw [List.concat_eq_append, ← List.append_assoc, ← List.append_assoc, endMark_concat, hb]
    obtain rfl | ⟨breaks, b', rfl⟩ := List.eq_nil_or_concat breaks
    · left
      exact ⟨⟨b, rfl⟩, by simp [hnot]⟩
    · right
      have hb' : isBreak b' = true := (hbreaks b' (by simp)).isBreak
      refine ⟨by simp, ?_⟩
      rw [List.concat_eq_append, ← List.append_assoc _ breaks, List.getLast?_concat]
      simp [hb']

theorem indentMark_of_isKept {b : Char} (h : IsKept b) (cs : List Char) :
    indentMark (b :: cs) = ['2'] := by
  rw [indentMark, h.isBreak, Bool.or_true, if_pos rfl]

/-- A text with as many of the breaks behind it as belong to it. -/
def Chomp.close (text leading trailing : List Char) : Chomp → List Char
  | .strip => text
  | .clip => text ++ leading
  | .keep => text ++ leading ++ trailing

/-- A scalar below a bar is its marks, its empty lines, and the other ones. -/
theorem linesScalar_of {block increment indent m n : Nat} {marks X Y Z : List Char} {chomp : Chomp}
    {breaks text leading trailing : List Char} (hmarks : Marks marks chomp increment)
    (hempty : ∀ i l, ∃ widest i' l',
      emptyLines (if increment = 0 then 0 else block + increment) X.length [] 0 ⟨X, i, l, 0⟩ =
        some (breaks, widest, ⟨Y, i', l', m⟩) ∧
      (if increment = 0 then max widest (block + 1) else block + increment) = indent)
    (hcontent : ∀ i l, ∃ i' l',
      contentLines false indent (Y.length + 1) [] breaks false ⟨Y, i, l, m⟩ =
        some (text, leading, trailing, ⟨Z, i', l', n⟩)) (index line column : Nat) :
    ∃ index' line', linesScalar block ⟨'|' :: (marks ++ '\n' :: X), index, line, column⟩ =
      some (chomp.close text leading trailing, ⟨Z, index', line', n⟩) := by
  obtain ⟨i₁, l₁, hheader⟩ := linesHeader_of_marks hmarks X index line column
  obtain ⟨widest, i₂, l₂, hempty, hindent⟩ := hempty i₁ l₁
  obtain ⟨i₃, l₃, hcontent⟩ := hcontent i₂ l₂
  refine ⟨i₃, l₃, ?_⟩
  have hgiven : (if increment = 0 then 0 else (max (block : Int) 0).toNat + increment) =
      if increment = 0 then 0 else block + increment := by
    split
    · rfl
    · omega
  have hindent' : (if (if increment = 0 then 0 else block + increment) = 0 then
      max widest (max ((block : Int) + 1).toNat 1) else
      if increment = 0 then 0 else block + increment) = indent := by
    rw [← hindent]
    by_cases h : increment = 0
    · rw [if_pos h, if_pos rfl, if_pos h]
      omega
    · rw [if_neg h, if_neg (by omega), if_neg h]
  rw [linesScalar, hheader]
  simp only [Option.bind_eq_bind, Option.bind_some, hgiven, hempty, hindent', hcontent]
  cases chomp <;> rfl

/-- A text of nothing but breaks is read back. -/
theorem linesScalar_breaks {block n : Nat} {b : Char} {bs X : List Char} (hn : n ≤ block)
    (hX : StartsOutside isBlankOrBreak X) (h : ∀ c ∈ b :: bs, IsKept c) (index line column : Nat) :
    ∃ index' line', linesScalar block
      ⟨literalChars (block + 2) (b :: bs) ++ (lineEnd (b :: bs) ++ (List.replicate n ' ' ++ X)),
        index, line, column⟩ = some (b :: bs, ⟨X, index', line', n⟩) := by
  have hbreaks : ∀ c ∈ b :: bs, isBreak c = true := fun c hc => (h c hc).isBreak
  have hmark : endMark (b :: bs) = ['+'] := by
    obtain h | ⟨init, c, heq⟩ := List.eq_nil_or_concat (b :: bs)
    · cases h
    · rw [heq, List.concat_eq_append] at hbreaks ⊢
      rw [endMark_concat, hbreaks c (by simp)]
      obtain rfl | ⟨init, d, rfl⟩ := List.eq_nil_or_concat init
      · rfl
      · simp [hbreaks d (by simp)]
  have hend : lineEnd (b :: bs) = [] := by
    rw [lineEnd, List.getLast?_eq_some_getLast (List.cons_ne_nil b bs), Option.any_some,
      hbreaks _ (List.getLast_mem _), if_pos rfl]
  have hbody : literalBody (block + 2) true (b :: bs) = b :: bs :=
    literalBody_of_breaks hbreaks true
  have hshape : literalChars (block + 2) (b :: bs) ++ (lineEnd (b :: bs) ++
      (List.replicate n ' ' ++ X)) =
      '|' :: (['2', '+'] ++ '\n' :: (b :: bs ++ (List.replicate n ' ' ++ X))) := by
    rw [literalChars, hbody, hend, hmark, indentMark_of_isKept (h b List.mem_cons_self)]
    simp
  rw [hshape]
  have hmarks : Marks ['2', '+'] .keep 2 :=
    ⟨['2'], rfl, Or.inr ⟨rfl, rfl⟩⟩
  have hempty (i l : Nat) : ∃ widest i' l', emptyLines (block + 2)
      (b :: bs ++ (List.replicate n ' ' ++ X)).length [] 0
      ⟨b :: bs ++ (List.replicate n ' ' ++ X), i, l, 0⟩ =
      some (b :: bs, widest, ⟨X, i', l', n⟩) ∧ block + 2 = block + 2 := by
    obtain ⟨widest, i', l', hempty⟩ := emptyLines_of_breaks
      (Or.inl (And.intro (show n < block + 2 by omega) hX)) (by omega) (b :: bs) h
      (b :: bs ++ (List.replicate n ' ' ++ X)).length [] 0 i l (by simp; omega)
    exact ⟨widest, i', l', hempty, rfl⟩
  have hcontent (i l : Nat) : ∃ i' l', contentLines false (block + 2) (X.length + 1) [] (b :: bs)
      false ⟨X, i, l, n⟩ = some ([], [], b :: bs, ⟨X, i', l', n⟩) :=
    ⟨i, l, contentLines_end (c := ⟨X, i, l, n⟩) (show n ≠ block + 2 by omega)⟩
  exact linesScalar_of hmarks hempty hcontent index line column

/-- What the printer makes of the breaks at the end of a text is what the reader makes of it. -/
theorem exists_chomp (front : List Char) {text breaks : List Char} (htext : IsLines text)
    (hbreaks : ∀ c ∈ breaks, IsKept c) :
    ∃ (chomp : Chomp) (b : Char) (bs : List Char),
      breaks ++ lineEnd (front ++ (text ++ breaks)) = b :: bs ∧
      (∀ c ∈ b :: bs, IsKept c) ∧
      chomp.close (front ++ text) [b] bs = front ++ (text ++ breaks) ∧
      endMark (front ++ (text ++ breaks)) = chomp.mark := by
  have hend (hne : breaks ≠ []) : lineEnd (front ++ (text ++ breaks)) = [] := by
    have hlast := (hbreaks _ (List.getLast_mem hne)).isBreak
    rw [lineEnd, List.getLast?_append, List.getLast?_append, List.getLast?_eq_some_getLast hne,
      Option.some_or, Option.some_or, Option.any_some, hlast, if_pos rfl]
  obtain ⟨rfl, hmark⟩ | ⟨⟨b, rfl⟩, hmark⟩ | ⟨hne, hmark⟩ := endMark_append front htext hbreaks
  · obtain ⟨c, hc, hnot⟩ := htext.last
    refine ⟨.strip, '\n', [], ?_, by simp [IsKept], by simp [Chomp.close], hmark⟩
    rw [lineEnd, List.getLast?_append, List.append_nil, Option.mem_def.1 hc, Option.some_or,
      Option.any_some, hnot]
    rfl
  · exact ⟨.clip, b, [], by rw [hend (by simp)]; rfl, hbreaks, by simp [Chomp.close], hmark⟩
  · obtain ⟨b, bs, rfl⟩ := List.exists_cons_of_ne_nil hne
    exact ⟨.keep, b, bs, by rw [hend hne, List.append_nil], hbreaks, by simp [Chomp.close], hmark⟩

/-- The printer says how far the lines are indented, unless the first of them shows it. -/
theorem exists_increment {front text : List Char} (breaks : List Char) (chomp : Chomp)
    (hfront : ∀ c ∈ front, IsKept c) (htext : IsLines text) :
    ∃ increment, Marks (indentMark (front ++ (text ++ breaks)) ++ chomp.mark) chomp increment ∧
      (increment = 0 ∧ front = [] ∧ StartsOutside isBlankOrBreak text ∨ increment = 2) := by
  cases front with
  | cons b front =>
      rw [List.cons_append, indentMark_of_isKept (hfront b List.mem_cons_self)]
      exact ⟨2, ⟨['2'], rfl, Or.inr ⟨rfl, rfl⟩⟩, Or.inr rfl⟩
  | nil =>
      obtain ⟨c, t, rfl⟩ := List.exists_cons_of_ne_nil htext.ne_nil
      have hbreak := startsOutside_cons.1 htext.first
      obtain rfl | hkept | hc := space_or_isKept_or (htext.printable c List.mem_cons_self)
      · exact ⟨2, ⟨['2'], rfl, Or.inr ⟨rfl, rfl⟩⟩, Or.inr rfl⟩
      · exact absurd hkept.isBreak (by rw [hbreak]; decide)
      · have hspace : (c == ' ') = false := by
          rw [beq_eq_false_iff_ne]
          rintro rfl
          exact absurd hc (by decide)
        have hmark : indentMark (c :: t ++ breaks) = [] := by
          rw [List.cons_append, indentMark, hspace, hbreak]
          rfl
        rw [List.nil_append, hmark]
        exact ⟨0, ⟨[], rfl, Or.inl ⟨rfl, rfl⟩⟩, Or.inl ⟨rfl, rfl, startsOutside_cons.2 hc⟩⟩

/-- The empty lines in front of a text with lines, and the indentation of its first line. -/
theorem emptyLines_front (block : Nat) {increment : Nat} {front text : List Char}
    (hfront : ∀ c ∈ front, IsKept c) (htext : IsLines text)
    (h : increment = 0 ∧ front = [] ∧ StartsOutside isBlankOrBreak text ∨ increment = 2)
    (tail : List Char) (fuel : Nat) (hfuel : front.length + (block + 2) ≤ fuel) (i l : Nat) :
    ∃ widest i' l',
      emptyLines (if increment = 0 then 0 else block + increment) fuel [] 0
        ⟨front ++ (List.replicate (block + 2) ' ' ++ (literalBody (block + 2) false text ++ tail)),
          i, l, 0⟩ =
        some (front, widest, ⟨literalBody (block + 2) false text ++ tail, i', l', block + 2⟩) ∧
      (if increment = 0 then max widest (block + 1) else block + increment) = block + 2 := by
  obtain ⟨rfl, rfl, hfirst⟩ | rfl := h
  · obtain ⟨fuel, rfl⟩ : ∃ k, fuel = k + 1 := ⟨fuel - 1, by omega⟩
    have hbody : StartsOutside isBlankOrBreak (literalBody (block + 2) false text ++ tail) := by
      obtain ⟨c, t, rfl⟩ := List.exists_cons_of_ne_nil htext.ne_nil
      rw [literalBody, if_neg (by rw [startsOutside_cons.1 htext.first]; decide)]
      exact startsOutside_cons.2 (startsOutside_cons.1 hfirst)
    refine ⟨block + 2, _, _, emptyLines_zero hbody fuel i l, ?_⟩
    rw [if_pos rfl]
    omega
  · obtain ⟨widest, i', l', hempty⟩ := emptyLines_of_breaks
      (htext.endsIndentation (block + 2) tail) (by omega) front hfront fuel [] 0 i l hfuel
    exact ⟨widest, i', l', hempty, rfl⟩

/-- A text with lines is read back. -/
theorem linesScalar_lines {block n : Nat} {front text breaks X : List Char} (hn : n ≤ block)
    (hX : StartsOutside isBlankOrBreak X) (hfront : ∀ c ∈ front, IsKept c) (htext : IsLines text)
    (hbreaks : ∀ c ∈ breaks, IsKept c) (index line column : Nat) :
    ∃ index' line', linesScalar block
      ⟨literalChars (block + 2) (front ++ (text ++ breaks)) ++
        (lineEnd (front ++ (text ++ breaks)) ++ (List.replicate n ' ' ++ X)), index, line, column⟩ =
      some (front ++ (text ++ breaks), ⟨X, index', line', n⟩) := by
  obtain ⟨chomp, b, bs, hclosing, hkept, hclose, hend⟩ := exists_chomp front htext hbreaks
  have hindented : StartsOutside isBreak (text ++ breaks) := by
    obtain ⟨c, t, rfl⟩ := List.exists_cons_of_ne_nil htext.ne_nil
    exact startsOutside_cons.2 (startsOutside_cons.1 htext.first)
  have hbody : literalBody (block + 2) true (front ++ (text ++ breaks)) =
      front ++
        (List.replicate (block + 2) ' ' ++ (literalBody (block + 2) false text ++ breaks)) := by
    rw [literalBody_breaks fun c hc => (hfront c hc).isBreak,
      literalBody_indented (by simp [htext.ne_nil]) hindented,
      literalBody_append_breaks fun c hc => (hbreaks c hc).isBreak]
    rfl
  obtain ⟨increment, hmarks, hincrement⟩ := exists_increment breaks chomp hfront htext
  -- Below the bar and its marks: empty lines, the lines of the text, and the breaks behind them.
  have hshape : literalChars (block + 2) (front ++ (text ++ breaks)) ++
      (lineEnd (front ++ (text ++ breaks)) ++ (List.replicate n ' ' ++ X)) =
      '|' :: ((indentMark (front ++ (text ++ breaks)) ++ chomp.mark) ++
        '\n' :: (front ++ (List.replicate (block + 2) ' ' ++ (literalBody (block + 2) false text ++
          (b :: bs ++ (List.replicate n ' ' ++ X)))))) := by
    rw [literalChars, hbody, hend, ← hclosing]
    simp
  have hread := linesScalar_of hmarks
    (fun i l => emptyLines_front block hfront htext hincrement
      (b :: bs ++ (List.replicate n ' ' ++ X)) _
      (by simp only [List.length_append, List.length_replicate]; omega) i l)
    (fun i l => contentLines_literal (show n < block + 2 by omega) hX hkept htext _ [] front false
      i l (Nat.le_succ _)) index line column
  rw [List.nil_append, hclose] at hread
  rw [hshape]
  exact hread

/-- **A text below a bar is read back.** -/
theorem linesScalar_literal {block n : Nat} {cs X : List Char} (hne : cs ≠ [])
    (hprintable : ∀ c ∈ cs, isPrintable c = true) (hn : n ≤ block)
    (hX : StartsOutside isBlankOrBreak X) (index line column : Nat) :
    ∃ index' line', linesScalar block
      ⟨literalChars (block + 2) cs ++ (lineEnd cs ++ (List.replicate n ' ' ++ X)),
        index, line, column⟩ = some (cs, ⟨X, index', line', n⟩) := by
  obtain h | ⟨front, text, breaks, rfl, hfront, htext, hbreaks⟩ := breaks_or_lines hprintable
  · obtain ⟨b, bs, rfl⟩ := List.exists_cons_of_ne_nil hne
    exact linesScalar_breaks hn hX h index line column
  · exact linesScalar_lines hn hX hfront htext hbreaks index line column

end Yaml

end CaptureConfig

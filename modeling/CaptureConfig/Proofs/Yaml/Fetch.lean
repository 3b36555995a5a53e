/-
**One token.**

What fetching a token comes to outside of brackets: blanks and breaks are passed over, blocks that
end are closed, and the character at the place reached says what the token is.  A scalar where a
mapping may begin is a key; behind a colon it is a value.

Main definitions:

* `Yaml.Stream.ready` — a state that has passed over what stands before a token;
* `Yaml.Stream.Opens` — how a line goes on behind its indentation.

Main results:

* `Yaml.Stream.skipIdle_spaces`, `Yaml.Stream.skipIdle_break` — what is passed over;
* `Yaml.Stream.fetch_of` — a token is what stands at the place reached;
* `Yaml.Stream.fetchAt_plain`, `Yaml.Stream.fetchAt_signed`, `Yaml.Stream.fetchAt_quote` — which
  characters begin which scalars.
-/

import CaptureConfig.Proofs.Yaml.Lines
import CaptureConfig.Proofs.Yaml.Plain
import CaptureConfig.Proofs.Yaml.Quoted
import CaptureConfig.Yaml.Token.Stream

set_option relaxedAutoImplicit false
set_option autoImplicit false

namespace CaptureConfig

namespace Yaml

namespace Stream

/-! ### What is passed over -/

/-- How a line goes on behind its indentation: not with a blank, a break, a comment or the mark of
the order of octets. -/
def Opens (t : List Char) : Prop :=
  StartsOutside (fun c => isBlankOrBreak c || c == '#' || c == byteOrderMark) t

section

variable {t : List Char} (inBrackets : Bool) (index line column fuel : Nat) (keyAllowed : Bool)

theorem opens_nil : Opens [] := startsOutside_nil _

theorem opens_cons {c : Char} {cs : List Char} :
    Opens (c :: cs) ↔ isBlankOrBreak c = false ∧ c ≠ '#' ∧ c ≠ byteOrderMark := by
  rw [Opens, startsOutside_cons]
  simp only [Bool.or_eq_false_iff, beq_eq_false_iff_ne, and_assoc, ne_eq]

theorem Opens.startsOutside (h : Opens t) : StartsOutside isBlankOrBreak t :=
  h.mono fun _ hc => (Bool.or_eq_false_iff.1 (Bool.or_eq_false_iff.1 hc).1).1

/-- Neither the mark of the order of octets nor a comment nor a break is passed over. -/
theorem Opens.holds (h : Opens t) :
    (Cursor.mk t index line column).holds byteOrderMark = false ∧
      (Cursor.mk t index line column).holds '#' = false ∧
      (Cursor.mk t index line column).peek.any isBreak = false := by
  cases t with
  | nil => exact ⟨rfl, rfl, rfl⟩
  | cons c t =>
      obtain ⟨hgap, hhash, hmark⟩ := opens_cons.1 h
      exact ⟨by simpa using hmark, by simpa using hhash, (isBlankOrBreak_eq_false_iff.1 hgap).2⟩

theorem holds_byteOrderMark_spaces (n : Nat) (h : Opens t) :
    (Cursor.mk (List.replicate n ' ' ++ t) index line column).holds byteOrderMark = false := by
  cases n with
  | zero => exact (h.holds _ _ _).1
  | succ n => rfl

/-- The spaces in front of a token. -/
theorem skipIdle_spaces (n : Nat) (h : Opens t) :
    skipIdle inBrackets (fuel + 1) keyAllowed ⟨List.replicate n ' ' ++ t, index, line, column⟩ =
      (keyAllowed, ⟨t, index + n, line, column + n⟩) := by
  have hspaces : ∀ c ∈ List.replicate n ' ',
      ((c == ' ' || ((inBrackets || ! keyAllowed) && c == '\t')) && ! isBreak c) = true := by
    intro c hc
    rw [List.eq_of_mem_replicate hc]
    rfl
  have hrest : StartsOutside
      (fun c => (c == ' ' || ((inBrackets || ! keyAllowed) && c == '\t')) && ! isBreak c) t := by
    intro c hc
    have := (isBlankOrBreak_eq_false_iff.1 (h.startsOutside c hc)).1
    simp only [isBlank, Bool.or_eq_false_iff] at this
    simp [this.1, this.2]
  have hskip : (Cursor.mk (List.replicate n ' ' ++ t) index line column).skipWhile
      (fun c => c == ' ' || ((inBrackets || ! keyAllowed) && c == '\t')) =
      ⟨t, index + n, line, column + n⟩ := by
    rw [Cursor.skipWhile_append hspaces hrest, List.length_replicate]
  have hmark := holds_byteOrderMark_spaces index line column n h
  have hholds : (Cursor.mk t (index + n) line (column + n)).holds '#' = false ∧ _ :=
    (h.holds _ _ _).2
  rw [skipIdle]
  simp only [hmark, hskip, hholds.1, hholds.2, Bool.false_eq_true, and_false, if_false]

/-- A line feed and the spaces of the next line; outside of brackets a key may begin there. -/
theorem skipIdle_lineFeed (n : Nat) (h : Opens t) : ∃ index' line',
    skipIdle inBrackets (fuel + 2) keyAllowed
      ⟨'\n' :: (List.replicate n ' ' ++ t), index, line, column⟩ =
      (keyAllowed || ! inBrackets, ⟨t, index', line', n⟩) := by
  refine ⟨index + 1 + n, line + 1, ?_⟩
  have hstay : (Cursor.mk ('\n' :: (List.replicate n ' ' ++ t)) index line column).skipWhile
      (fun c => c == ' ' || ((inBrackets || ! keyAllowed) && c == '\t')) =
      ⟨'\n' :: (List.replicate n ' ' ++ t), index, line, column⟩ :=
    Cursor.skipWhile_of_startsOutside (startsOutside_cons.2 (by simp))
  have hmark : ('\n' == byteOrderMark) = false := by decide
  have hfeed : ('\n' == '#') = false := by decide
  have hbreak : isBreak '\n' = true := by decide
  rw [skipIdle]
  simp only [Cursor.holds_cons, hmark, hstay, hfeed, Cursor.peek_cons, Option.any_some, hbreak,
    Bool.false_eq_true, and_false, if_false, if_true,
    Cursor.skip_of_isBreak hbreak (show '\n' ≠ '\r' by decide)]
  rw [skipIdle_spaces _ _ _ _ fuel _ n h, Nat.zero_add]

/-- A line feed and the spaces of the next line, outside of brackets. -/
theorem skipIdle_break (n : Nat) (h : Opens t) : ∃ index' line',
    skipIdle false (fuel + 2) keyAllowed
      ⟨'\n' :: (List.replicate n ' ' ++ t), index, line, column⟩ =
      (true, ⟨t, index', line', n⟩) := by
  obtain ⟨index', line', hidle⟩ := skipIdle_lineFeed false index line column fuel keyAllowed n h
  exact ⟨index', line', by rw [hidle, Bool.not_false, Bool.or_true]⟩

end

/-! ### From one token to the next -/

/-- A state that has passed over what stands before a token, and has closed the blocks that end
there. -/
def ready (s : Stream) (c : Cursor) (keyAllowed : Bool) (indent : Int) (outer : List Int)
    (notes : List Noted) : Stream :=
  { s with cursor := c, keyAllowed, indent, outer, notes }

theorem refreshKey_some {c : Cursor} {k : KeyBegun} (hline : c.line ≤ k.line)
    (hindex : c.index ≤ k.index + 1024) : refreshKey c (some k) = some (some k) := by
  have hstale : isStale c k = false := by
    simp only [isStale, Bool.or_eq_false_iff, decide_eq_false_iff_not]
    omega
  rw [refreshKey, hstale]
  rfl

/-- A key that can still be completed is kept. -/
theorem refresh_of {s : Stream} {k : Option KeyBegun} (hkeys : s.keys = [k])
    (h : refreshKey s.cursor k = some k) : s.refresh = some s := by
  obtain ⟨cursor, notes, found, noted, indent, outer, brackets, keyAllowed, keys⟩ := s
  obtain rfl : keys = [k] := hkeys
  simp only [refresh, List.mapM_cons, List.mapM_nil, h, Option.bind_eq_bind, Option.bind_some,
    Option.pure_def]

section

variable {s next : Stream} {c : Cursor} {keyAllowed : Bool} {k : Option KeyBegun} {indent : Int}
  {outer : List Int} {notes : List Noted}

/-- **A token is what stands at the place reached.** -/
theorem fetch_of (hbrackets : s.brackets = 0) (hkeys : s.keys = [k])
    (hidle : skipIdle false (s.cursor.rest.length + 1) s.keyAllowed s.cursor = (keyAllowed, c))
    (hkeep : refreshKey c k = some k)
    (hclose : closeTo c.column s.indent s.outer s.notes = (indent, outer, notes))
    (hat : (match c.peek with
      | none => (s.ready c keyAllowed indent outer notes).fetchEnd
      | some ch => (s.ready c keyAllowed indent outer notes).fetchAt ch) = some next)
    (hnext : next.refresh = some next) : s.fetch = some next := by
  obtain ⟨cursor, notes₀, found, noted, indent₀, outer₀, brackets, keyAllowed₀, keys⟩ := s
  obtain rfl : brackets = 0 := hbrackets
  obtain rfl : keys = [k] := hkeys
  rw [fetch]
  simp only [Nat.lt_irrefl, decide_false] at hidle ⊢
  rw [hidle]
  rw [refresh_of rfl hkeep]
  simp only [Option.bind_eq_bind, Option.bind_some, closeBlocks, Nat.lt_irrefl, if_false, hclose]
  rw [← hnext]
  cases hpeek : c.peek with
  | none =>
      rw [hpeek] at hat
      exact congrArg (Option.bind · refresh) hat
  | some ch =>
      rw [hpeek] at hat
      exact congrArg (Option.bind · refresh) hat

end

/-! ### What a character begins -/

section

variable {s : Stream} {ch : Char} {rest : List Char} {index line column : Nat}

theorem ne_of_isFrontIndicator (h : isFrontIndicator ch = false) {d : Char}
    (hd : isFrontIndicator d = true) : ch ≠ d := by
  rintro rfl
  rw [h] at hd
  cases hd

theorem fetchAt_colon (hrest : s.cursor.rest = ':' :: rest) (hcolumn : 0 < s.cursor.column)
    (hgap : isGap rest.head? = true) : s.fetchAt ':' = s.fetchValue := by
  have hnext : isGap s.cursor.peekNext = true := by
    rw [Cursor.peekNext, hrest]
    simpa [List.head?_eq_getElem?] using hgap
  rw [fetchAt, if_neg (by simp), Cursor.atMark_of_pos hcolumn]
  simp only [hnext]
  simp

theorem fetchAt_bar (hcolumn : 0 < s.cursor.column) (hbrackets : s.brackets = 0) :
    s.fetchAt '|' = s.fetchLines := by
  rw [fetchAt, if_neg (by simp), Cursor.atMark_of_pos hcolumn]
  simp [hbrackets]

theorem fetchAt_quote (hch : ch = '\'' ∨ ch = '"') (hmark : s.cursor.atMark = false) :
    s.fetchAt ch = s.fetchNode fun s =>
      (quotedScalar s.cursor).map fun (t, c) => (.scalar t .otherwise, c) := by
  rw [fetchAt, hmark]
  obtain rfl | rfl := hch <;> simp

/-- What begins a plain scalar: no indicator, or one with something right behind it; in brackets
the indicators of keys and values always are ones. -/
theorem fetchAt_of_begins (hgap : isBlankOrBreak ch = false) (hfront : isFrontIndicator ch = false)
    (hmark : s.cursor.atMark = false)
    (hnext : ch = '?' ∨ ch = ':' ∨ ch = '-' → isGap s.cursor.peekNext = false)
    (hbrackets : 0 < s.brackets → ch ≠ '?' ∧ ch ≠ ':') : s.fetchAt ch = s.fetchPlain := by
  have hne {d : Char} (hd : isFrontIndicator d = true) : ch ≠ d := ne_of_isFrontIndicator hfront hd
  have hbegins : beginsPlain (0 < s.brackets) ch s.cursor.peekNext = true := by
    by_cases hch : ch = '?' ∨ ch = ':' ∨ ch = '-'
    · obtain ⟨d, hd⟩ : ∃ d, s.cursor.peekNext = some d := by
        cases hpeek : s.cursor.peekNext with
        | none => exact absurd (hnext hch) (by rw [hpeek]; decide)
        | some d => exact ⟨d, rfl⟩
      have hgapNext := hnext hch
      have hblank : isBlank d = false := by
        rw [hd] at hgapNext
        exact (isBlankOrBreak_eq_false_iff.1 hgapNext).1
      obtain rfl | rfl | rfl := hch <;> simp [beginsPlain, hd, hblank]
      · exact ⟨Nat.le_zero.1 (Nat.not_lt.1 fun h => (hbrackets h).1 rfl), by
          simpa [hd] using hgapNext⟩
      · exact ⟨Nat.le_zero.1 (Nat.not_lt.1 fun h => (hbrackets h).2 rfl), by
          simpa [hd] using hgapNext⟩
    · simp only [not_or] at hch
      simp [beginsPlain, hgap, hfront, hch]
  have hitem : ¬ (ch = '-' ∧ isGap s.cursor.peekNext = true) := by
    rintro ⟨rfl, h⟩
    rw [hnext (by simp)] at h
    cases h
  have hkey : ¬ (ch = '?' ∧ (0 < s.brackets ∨ isGap s.cursor.peekNext = true)) := by
    rintro ⟨rfl, h | h⟩
    · exact (hbrackets h).1 rfl
    · rw [hnext (by simp)] at h
      cases h
  have hvalue : ¬ (ch = ':' ∧ (0 < s.brackets ∨ isGap s.cursor.peekNext = true)) := by
    rintro ⟨rfl, h | h⟩
    · exact (hbrackets h).2 rfl
    · rw [hnext (by simp)] at h
      cases h
  rw [fetchAt, hmark, if_neg fun h => hne (d := '%') (by decide) h.2, if_neg (by decide),
    if_neg (hne (by decide)), if_neg (hne (by decide)), if_neg (hne (by decide)),
    if_neg (hne (by decide)), if_neg (hne (by decide)), if_neg hitem,
    if_neg (by simpa using hkey), if_neg (by simpa using hvalue),
    if_neg (hne (by decide)), if_neg (hne (by decide)), if_neg (hne (by decide)),
    if_neg fun h => h.1.elim (hne (by decide)) (hne (by decide)),
    if_neg fun h => h.elim (hne (by decide)) (hne (by decide))]
  exact if_pos hbegins

theorem fetchAt_plain {cs tail : List Char} (hrest : s.cursor.rest = ch :: cs ++ tail)
    (hgap : isBlankOrBreak ch = false) (h : startsWithIndicator (ch :: cs) = false)
    (hmark : s.cursor.atMark = false) (hbrackets : s.brackets = 0) :
    s.fetchAt ch = s.fetchPlain := by
  simp only [startsWithIndicator, Bool.or_eq_false_iff] at h
  obtain ⟨hfront, hindicator⟩ := h
  refine fetchAt_of_begins hgap hfront hmark (fun hch => ?_) fun h => absurd h (by omega)
  have hcs : isGap cs.head? = false := by
    obtain rfl | rfl | rfl := hch <;> simpa using hindicator
  cases cs with
  | nil => cases hcs
  | cons d cs =>
      rw [Cursor.peekNext, hrest]
      exact hcs

/-- Words and numbers begin a plain scalar everywhere. -/
theorem fetchAt_signed {cs tail : List Char} (hrest : s.cursor.rest = ch :: cs ++ tail)
    (h : IsSigned (ch :: cs)) : s.fetchAt ch = s.fetchPlain := by
  have hmark : s.cursor.atMark = false := by
    have := h.atMark_append tail s.cursor.index s.cursor.line s.cursor.column
    rwa [← hrest] at this
  obtain ⟨c, w, hcs, hc, -⟩ := h
  have hc := isTame_of_isAlphanum hc
  obtain hcs | hcs := hcs
  · obtain ⟨rfl, rfl⟩ := List.cons.inj hcs
    obtain ⟨hgap, hfront, ⟨hquestion, hcolon, hminus⟩, -⟩ := hc
    exact fetchAt_of_begins hgap hfront hmark
      (fun h => (h.elim hquestion fun h => h.elim hcolon hminus).elim) fun _ => ⟨hquestion, hcolon⟩
  · obtain ⟨rfl, rfl⟩ := List.cons.inj hcs
    refine fetchAt_of_begins (by decide) (by decide) hmark (fun _ => ?_) fun _ => by decide
    rw [Cursor.peekNext, hrest]
    exact hc.1

end

end Stream

end Yaml

end CaptureConfig

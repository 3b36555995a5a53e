/-
**Tokens in brackets.**

A text that is written with brackets opens no blocks.  Every scalar and every bracket where a key
may begin is noted for one; nothing demands that key, so that notes that come to nothing are dropped
without harm.  A text in quotes becomes a key when its colon follows in the same line and within
1024 characters.

Main definitions:

* `Yaml.Stream.Bracketed` — a state without blocks;
* `Yaml.Stream.Tells` — what the notes of a state come to;
* `Yaml.Stream.Stands` — such a state right behind a token;
* `Yaml.Stream.Passes` — what is passed over in front of a token.

Main results:

* `Yaml.Stream.fetch_bracketed` — a token is what stands at the place reached;
* `Yaml.Stream.Stands.opening`, `Yaml.Stream.Stands.closing`, `Yaml.Stream.Stands.comma` — **brackets
  and commas**;
* `Yaml.Stream.Stands.quoted`, `Yaml.Stream.Stands.word` — **texts and words**;
* `Yaml.Stream.Stands.key`, `Yaml.Stream.Stands.lateColon` — **a key and its colon**;
* `Yaml.Stream.Stands.fetch_end` — the end of the text.
-/

import CaptureConfig.Json.Printer
import CaptureConfig.Proofs.Yaml.Stream

set_option relaxedAutoImplicit false
set_option autoImplicit false

namespace CaptureConfig

namespace Yaml

/-! ### Notes that come to nothing -/

/-- A place that has been noted and where no key is found. -/
theorem Settled.unfound {found : List KeyFound} {noted : Nat} {notes : List Noted}
    {ts : List Token} (h : Settled found noted notes ts) (hfound : ∀ k ∈ found, k.place < noted) :
    Settled found (noted + 1) (.keyMayBegin noted :: notes) ts := by
  intro later hlater
  -- A key found later is behind the next place, one found before is in front of this one.
  have hnone : (later ++ found).find? (fun k => k.place == noted) = none := by
    rw [List.find?_eq_none]
    intro k hk
    rw [beq_iff_eq]
    obtain hk | hk := List.mem_append.1 hk
    · exact Nat.ne_of_gt (hlater k hk)
    · exact Nat.ne_of_lt (hfound k hk)
  have hbefore := h later fun k hk => Nat.le_of_succ_le (hlater k hk)
  have htokens : KeyFound.tokens (later ++ found) noted = [] := by
    rw [KeyFound.tokens, hnone]
  rw [settle] at hbefore
  rw [List.reverse_cons, settle, List.flatMap_append, hbefore]
  simp [htokens]

namespace Stream

/-! ### Keys that are not demanded -/

/-- No key is demanded. -/
def AreOptional (keys : List (Option KeyBegun)) : Prop := ∀ k, some k ∈ keys → k.required = false

/-- A key that can still be completed at a place. -/
def age (c : Cursor) (k : Option KeyBegun) : Option KeyBegun := k.filter fun k => ! isStale c k

section

variable {keys : List (Option KeyBegun)} {k : Option KeyBegun}

theorem areOptional_nil : AreOptional [] := fun _ h => absurd h List.not_mem_nil

theorem areOptional_cons :
    AreOptional (k :: keys) ↔ (∀ k', k = some k' → k'.required = false) ∧ AreOptional keys := by
  simp only [AreOptional, List.mem_cons]
  constructor
  · intro h
    exact ⟨fun k' hk => h k' (.inl hk.symm), fun k' hk => h k' (.inr hk)⟩
  · rintro ⟨hk, h⟩ k' (hk' | hk')
    · exact hk k' hk'.symm
    · exact h k' hk'

theorem AreOptional.none_cons (h : AreOptional keys) : AreOptional (none :: keys) :=
  areOptional_cons.2 ⟨nofun, h⟩

theorem AreOptional.drop (h : AreOptional keys) (n : Nat) : AreOptional (keys.drop n) :=
  fun k hk => h k (List.mem_of_mem_drop hk)

theorem AreOptional.age (h : AreOptional keys) (c : Cursor) : AreOptional (keys.map (age c)) := by
  intro k hk
  obtain ⟨k', hk', hage⟩ := List.mem_map.1 hk
  obtain ⟨rfl, -⟩ := Option.filter_eq_some_iff.1 hage
  exact h k hk'

/-- A key that is not demanded is given up when it is too long or in another line. -/
theorem mapM_refreshKey (h : AreOptional keys) (c : Cursor) :
    keys.mapM (refreshKey c) = some (keys.map (Stream.age c)) := by
  induction keys with
  | nil => rfl
  | cons k keys ih =>
      obtain ⟨hk, hkeys⟩ := areOptional_cons.1 h
      have hrefresh : refreshKey c k = some (Stream.age c k) := by
        cases k with
        | none => rfl
        | some k =>
            have hrequired := hk k rfl
            cases hstale : isStale c k <;>
              simp [refreshKey, Stream.age, Option.filter_some, hstale, hrequired]
      rw [List.mapM_cons, hrefresh, ih hkeys]
      rfl

end

/-- A state without the keys that can no longer be completed. -/
def aged (s : Stream) : Stream := { s with keys := s.keys.map (age s.cursor) }

theorem refresh_eq_aged {s : Stream} (h : AreOptional s.keys) : s.refresh = some s.aged := by
  rw [refresh, mapM_refreshKey h]
  rfl

/-! ### States without blocks -/

/-- **A state without blocks**, where no key is demanded. -/
structure Bracketed (s : Stream) (depth : Nat) : Prop where
  brackets : s.brackets = depth
  indent : s.indent = -1
  outer : s.outer = []
  keys : AreOptional s.keys

/-- **What the notes of a state come to**; no key is waiting to be found. -/
structure Tells (s : Stream) (ts : List Token) : Prop where
  found : ∀ k ∈ s.found, k.place < s.noted
  settled : Settled s.found s.noted s.notes ts

section

variable {s : Stream} {depth : Nat} {ts : List Token}

theorem Bracketed.aged (h : Bracketed s depth) : Bracketed s.aged depth :=
  ⟨h.brackets, h.indent, h.outer, h.keys.age _⟩

/-- There are no blocks to be closed. -/
theorem Bracketed.closeBlocks_eq (h : Bracketed s depth) (column : Int) :
    s.closeBlocks column = s := by
  obtain ⟨cursor, notes, found, noted, indent, outer, brackets, keyAllowed, keys⟩ := s
  obtain rfl : indent = -1 := h.indent
  obtain rfl : outer = [] := h.outer
  rw [closeBlocks]
  split <;> rfl

theorem Bracketed.giveUpKey (h : Bracketed s depth) : ∃ keys, AreOptional keys ∧
    s.giveUpKey = some { s with keys } := by
  rw [Stream.giveUpKey]
  split
  next k rest heq =>
    have hkeys := h.keys
    rw [heq] at hkeys
    rw [if_neg (by simp [hkeys k List.mem_cons_self])]
    exact ⟨_, (areOptional_cons.1 hkeys).2.none_cons, rfl⟩
  next => exact ⟨s.keys, h.keys, rfl⟩

/-- Where a key may begin, its place is noted, and nothing demands that key. -/
theorem Bracketed.beginKey_of_allowed (h : Bracketed s depth) (hallowed : s.keyAllowed = true) :
    ∃ keys, AreOptional keys ∧ s.beginKey = some { s with
      keys := some ⟨false, s.noted, s.cursor.index, s.cursor.line, s.cursor.column⟩ :: keys
      noted := s.noted + 1
      notes := .keyMayBegin s.noted :: s.notes } := by
  obtain ⟨keys, hkeys, hgive⟩ := h.giveUpKey
  have hrequired : (s.brackets == 0 && s.indent == (s.cursor.column : Int)) = false := by
    rw [h.indent, Bool.and_eq_false_iff, beq_eq_false_iff_ne (b := (s.cursor.column : Int))]
    exact .inr (by omega)
  refine ⟨keys.drop 1, hkeys.drop 1, ?_⟩
  rw [Stream.beginKey, if_neg (by simp [hallowed]), hgive]
  simp only [Option.bind_eq_bind, Option.bind_some, Option.pure_def, hrequired]

/-- A place where a key may begin, and no key behind it. -/
theorem Bracketed.beginKey (h : Bracketed s depth) (hs : s.Tells ts) : ∃ s', s.beginKey = some s' ∧
    Bracketed s' depth ∧ s'.Tells ts ∧ s'.cursor = s.cursor := by
  cases hallowed : s.keyAllowed with
  | false => exact ⟨s, by rw [Stream.beginKey, hallowed]; rfl, h, hs, rfl⟩
  | true =>
      obtain ⟨keys, hkeys, hbegin⟩ := h.beginKey_of_allowed hallowed
      refine ⟨_, hbegin, ⟨h.brackets, h.indent, h.outer, ?_⟩, ⟨?_, ?_⟩, rfl⟩
      · exact areOptional_cons.2 ⟨fun k hk => Option.some.inj hk ▸ rfl, hkeys⟩
      · exact fun k hk => Nat.lt_succ_of_lt (hs.found k hk)
      · exact hs.settled.unfound hs.found

/-- A state that has passed over what stands before a token. -/
def facing (s : Stream) (c : Cursor) (keyAllowed : Bool) : Stream :=
  { s with cursor := c, keyAllowed }.aged

/-- **A token is what stands at the place reached.** -/
theorem fetch_bracketed {next : Stream} {c : Cursor} {keyAllowed : Bool} (h : Bracketed s depth)
    (hidle : skipIdle (0 < depth) (s.cursor.rest.length + 1) s.keyAllowed s.cursor =
      (keyAllowed, c))
    (hat : (match c.peek with
      | none => (s.facing c keyAllowed).fetchEnd
      | some ch => (s.facing c keyAllowed).fetchAt ch) = some next)
    (hnext : AreOptional next.keys) : s.fetch = some next.aged := by
  have hfacing : Bracketed (s.facing c keyAllowed) depth :=
    ⟨h.brackets, h.indent, h.outer, h.keys.age _⟩
  rw [← h.brackets] at hidle
  rw [fetch, hidle]
  simp only
  rw [refresh_eq_aged (s := { s with cursor := c, keyAllowed }) h.keys]
  -- Keys are looked through twice, before and behind the token; closing blocks does nothing.
  have hclose : ({ s with cursor := c, keyAllowed }.aged).closeBlocks c.column =
      s.facing c keyAllowed := hfacing.closeBlocks_eq c.column
  simp only [Option.bind_eq_bind, Option.bind_some, hclose]
  rw [← refresh_eq_aged hnext]
  cases hpeek : c.peek with
  | none =>
      rw [hpeek] at hat
      exact congrArg (Option.bind · refresh) hat
  | some ch =>
      rw [hpeek] at hat
      exact congrArg (Option.bind · refresh) hat

end

/-! ### Behind a token -/

/-- **A state right behind a token**, in front of a rest of the text. -/
structure Stands (s : Stream) (rest : List Char) (depth : Nat) (keyAllowed : Bool)
    (ts : List Token) : Prop extends Bracketed s depth, Tells s ts where
  rest : s.cursor.rest = rest
  keyAllowed : s.keyAllowed = keyAllowed

/-- What stands in front of a rest of the text is passed over, whether or not a key may begin
there. -/
def Passes (inBrackets : Bool) (X t : List Char) : Prop :=
  ∀ keyAllowed index line column, ∃ index' line' column',
    skipIdle inBrackets (X.length + 1) keyAllowed ⟨X, index, line, column⟩ =
      (keyAllowed, ⟨t, index', line', column'⟩)

section

variable {t : List Char}

theorem passes_spaces (inBrackets : Bool) (n : Nat) (h : Opens t) :
    Passes inBrackets (List.replicate n ' ' ++ t) t := fun keyAllowed index line column =>
  ⟨_, _, _, skipIdle_spaces inBrackets index line column _ keyAllowed n h⟩

theorem Opens.passes (inBrackets : Bool) (h : Opens t) : Passes inBrackets t t :=
  passes_spaces inBrackets 0 h

theorem passes_lineBreak (depth : Nat) (h : Opens t) :
    Passes true (Json.lineBreak depth ++ t) t := by
  intro keyAllowed index line column
  obtain ⟨index', line', hidle⟩ := skipIdle_lineFeed true index line column
    (List.replicate (2 * depth) ' ' ++ t).length keyAllowed (2 * depth) h
  rw [Bool.not_true, Bool.or_false] at hidle
  exact ⟨index', line', _, hidle⟩

end

section

variable {s : Stream} {X Y t : List Char} {depth depth' : Nat} {keyAllowed keyAllowed' : Bool}
  {ts ts' : List Token} {ch : Char}

/-- **One token**: it is fetched at the place where it begins. -/
theorem Stands.step (h : Stands s X depth keyAllowed ts) (hX : Passes (0 < depth) X (ch :: t))
    (hat : ∀ r : Stream, Stands r (ch :: t) depth keyAllowed ts →
      ∃ next, r.fetchAt ch = some next ∧ next.isDone = false ∧
        Stands next Y depth' keyAllowed' ts') :
    ∃ s', Reaches 1 s s' ∧ Stands s' Y depth' keyAllowed' ts' := by
  obtain ⟨index, line, column, hidle⟩ :=
    hX s.keyAllowed s.cursor.index s.cursor.line s.cursor.column
  rw [← h.rest] at hidle
  obtain ⟨next, hfetch, hdone, hnext⟩ := hat (s.facing ⟨ch :: t, index, line, column⟩ s.keyAllowed)
    ⟨⟨h.brackets, h.indent, h.outer, h.keys.age _⟩, ⟨h.found, h.settled⟩, rfl, h.keyAllowed⟩
  exact ⟨next.aged, .step (fetch_bracketed h.toBracketed hidle hfetch hnext.keys) hdone (.refl _),
    ⟨hnext.toBracketed.aged, ⟨hnext.found, hnext.settled⟩, hnext.rest, hnext.keyAllowed⟩⟩

/-- No mark between documents begins like that. -/
theorem Stands.atMark (h : Stands s (ch :: t) depth keyAllowed ts) (hch : ch ≠ '-' ∧ ch ≠ '.') :
    s.cursor.atMark = false := by
  have hmark : startsWithMark s.cursor.rest = false := by
    rw [h.rest]
    simp [startsWithMark, hch]
  rw [Cursor.atMark, hmark, Bool.and_false, Bool.false_and]

/-- The place behind one character. -/
theorem Stands.rest_skipMany (h : Stands s (ch :: t) depth keyAllowed ts) :
    (s.cursor.skipMany 1).rest = t := by
  rw [Cursor.skipMany, h.rest]
  rfl

theorem Tells.token (h : s.Tells ts) (token : Token) {s' : Stream}
    (hnotes : s'.notes = .token token :: s.notes) (hfound : s'.found = s.found)
    (hnoted : s'.noted = s.noted) : s'.Tells (ts ++ [token]) := by
  refine ⟨?_, ?_⟩
  · rw [hfound, hnoted]
    exact h.found
  · rw [hfound, hnoted, hnotes]
    exact h.settled.token token

/-- **An opening bracket.** -/
theorem Stands.opening {token : Token} (h : Stands s X depth keyAllowed ts)
    (hX : Passes (0 < depth) X (ch :: t))
    (hch : ch = '[' ∧ token = .openSequence ∨ ch = '\x7b' ∧ token = .openMapping) :
    ∃ s', Reaches 1 s s' ∧ Stands s' t (depth + 1) true (ts ++ [token]) := by
  refine h.step hX fun r hr => ?_
  obtain ⟨s', hbegin, hbracketed, htells, hcursor⟩ := hr.beginKey hr.toTells
  have hmark := hr.atMark (by obtain ⟨rfl, -⟩ | ⟨rfl, -⟩ := hch <;> decide)
  have hat : r.fetchAt ch = r.fetchOpen token := by
    rw [fetchAt, hmark]
    obtain ⟨rfl, rfl⟩ | ⟨rfl, rfl⟩ := hch <;> simp
  have hopen : r.fetchOpen token = some ({ s' with
      keys := none :: s'.keys, brackets := s'.brackets + 1, keyAllowed := true }.take 1 token) := by
    rw [fetchOpen, hbegin]
    rfl
  refine ⟨_, hat.trans hopen, ?_, ⟨?_, ?_, ?_, ?_⟩, htells.token token rfl rfl rfl, ?_, rfl⟩
  · obtain ⟨-, rfl⟩ | ⟨-, rfl⟩ := hch <;> rfl
  · exact congrArg (· + 1) hbracketed.brackets
  · exact hbracketed.indent
  · exact hbracketed.outer
  · exact hbracketed.keys.none_cons
  · exact hcursor ▸ hr.rest_skipMany

/-- **A closing bracket.** -/
theorem Stands.closing {token : Token} (h : Stands s X (depth + 1) keyAllowed ts)
    (hX : Passes true X (ch :: t))
    (hch : ch = ']' ∧ token = .closeSequence ∨ ch = '\x7d' ∧ token = .closeMapping) :
    ∃ s', Reaches 1 s s' ∧ Stands s' t depth false (ts ++ [token]) := by
  refine h.step hX fun r hr => ?_
  obtain ⟨keys, hkeys, hgive⟩ := hr.giveUpKey
  have hmark := hr.atMark (by obtain ⟨rfl, -⟩ | ⟨rfl, -⟩ := hch <;> decide)
  have hat : r.fetchAt ch = r.fetchClose token := by
    rw [fetchAt, hmark]
    obtain ⟨rfl, rfl⟩ | ⟨rfl, rfl⟩ := hch <;> simp
  have hclose : r.fetchClose token = some ({ r with
      keys := keys.drop 1, brackets := r.brackets - 1, keyAllowed := false }.take 1 token) := by
    have hbrackets : 0 < r.brackets := by rw [hr.brackets]; exact Nat.succ_pos depth
    rw [fetchClose, hgive]
    simp only [Option.bind_eq_bind, Option.bind_some, hbrackets, if_true, Option.pure_def]
  refine ⟨_, hat.trans hclose, ?_, ⟨?_, hr.indent, hr.outer, hkeys.drop 1⟩,
    hr.toTells.token token rfl rfl rfl, hr.rest_skipMany, rfl⟩
  · obtain ⟨-, rfl⟩ | ⟨-, rfl⟩ := hch <;> rfl
  · show r.brackets - 1 = depth
    rw [hr.brackets]
    rfl

/-- **A comma.** -/
theorem Stands.comma (h : Stands s X (depth + 1) keyAllowed ts) (hX : Passes true X (',' :: t)) :
    ∃ s', Reaches 1 s s' ∧ Stands s' t (depth + 1) true (ts ++ [.comma]) := by
  refine h.step hX fun r hr => ?_
  obtain ⟨keys, hkeys, hgive⟩ := hr.giveUpKey
  have hat : r.fetchAt ',' = r.fetchComma := by
    rw [fetchAt, hr.atMark (by decide)]
    simp
  have hcomma : r.fetchComma =
      some ({ r with keys, keyAllowed := true }.take 1 .comma) := by
    rw [fetchComma, hgive]
    rfl
  exact ⟨_, hat.trans hcomma, rfl, ⟨hr.brackets, hr.indent, hr.outer, hkeys⟩,
    hr.toTells.token .comma rfl rfl rfl, hr.rest_skipMany, rfl⟩

/-- **A text between double quotes** that is no key. -/
theorem Stands.quoted {cs : List Char} (h : Stands s X depth keyAllowed ts)
    (hX : Passes (0 < depth) X (doubleChars cs ++ t)) :
    ∃ s', Reaches 1 s s' ∧ Stands s' t depth false (ts ++ [.scalar cs .otherwise]) := by
  have hX : Passes (0 < depth) X ('"' :: (cs.flatMap doubleChar ++ ['"'] ++ t)) := hX
  refine h.step hX fun r hr => ?_
  obtain ⟨s', hbegin, hbracketed, htells, hcursor⟩ := hr.beginKey hr.toTells
  have hplace : s'.cursor =
      ⟨doubleChars cs ++ t, r.cursor.index, r.cursor.line, r.cursor.column⟩ := by
    rw [hcursor, ← show r.cursor.rest = doubleChars cs ++ t from hr.rest]
  have hfetch : r.fetchAt '"' =
      some ({ s' with keyAllowed := false }.goTo ⟨t, r.cursor.index + (doubleChars cs).length,
        r.cursor.line, r.cursor.column + (doubleChars cs).length⟩ (.scalar cs .otherwise)) := by
    rw [fetchAt_quote (.inr rfl) (hr.atMark (by decide)), fetchNode, hbegin]
    simp only [Option.bind_eq_bind, Option.bind_some, hplace, quotedScalar_double]
    rfl
  exact ⟨_, hfetch, rfl,
    ⟨hbracketed.brackets, hbracketed.indent, hbracketed.outer, hbracketed.keys⟩,
    htells.token _ rfl rfl rfl, rfl, rfl⟩

/-- **A word or a number**, as far as the reader of plain scalars goes. -/
theorem Stands.word {cs : List Char} (h : Stands s X (depth + 1) keyAllowed ts)
    (hX : Passes true X (cs ++ t)) (hcs : IsSigned cs)
    (hread : ∀ index line column, ∃ place, plainScalar true 0 ⟨cs ++ t, index, line, column⟩ =
      some ⟨cs, place, keyAllowed'⟩ ∧ place.rest = Y) :
    ∃ s', Reaches 1 s s' ∧ Stands s' Y (depth + 1) keyAllowed' (ts ++ [.scalar cs .plainly]) := by
  obtain ⟨ch, cs, rfl⟩ := List.exists_cons_of_ne_nil hcs.ne_nil
  have hX : Passes true X (ch :: (cs ++ t)) := hX
  refine h.step hX fun r hr => ?_
  obtain ⟨s', hbegin, hbracketed, htells, hcursor⟩ := hr.beginKey hr.toTells
  obtain ⟨place, hread, hplace⟩ := hread r.cursor.index r.cursor.line r.cursor.column
  have hcursor : s'.cursor =
      ⟨ch :: cs ++ t, r.cursor.index, r.cursor.line, r.cursor.column⟩ := by
    rw [hcursor, ← show r.cursor.rest = ch :: cs ++ t from hr.rest]
  have hplain : r.fetchPlain = some ({ s' with keyAllowed := keyAllowed' }.goTo place
      (.scalar (ch :: cs) .plainly)) := by
    rw [fetchPlain, hbegin]
    simp only [Option.bind_eq_bind, Option.bind_some]
    rw [hbracketed.brackets, hbracketed.indent, hcursor]
    exact congrArg (Option.bind · _) hread
  exact ⟨_, (fetchAt_signed hr.rest hcs).trans hplain, rfl,
    ⟨hbracketed.brackets, hbracketed.indent, hbracketed.outer, hbracketed.keys⟩,
    htells.token _ rfl rfl rfl, hplace, rfl⟩

end

/-! ### Keys -/

section

variable {s : Stream} {X t : List Char} {depth : Nat} {keyAllowed : Bool} {ts : List Token}

/-- The colon behind a key that can still be completed. -/
theorem Bracketed.fetch_colon {index line column : Nat} {k : KeyBegun}
    {keys : List (Option KeyBegun)} (h : Bracketed s (depth + 1))
    (hcursor : s.cursor = ⟨':' :: t, index, line, column⟩) (hkeys : s.keys = some k :: keys)
    (hstale : isStale s.cursor k = false) :
    ∃ keys', AreOptional keys' ∧ s.fetch = some
      ⟨⟨t, index + 1, line, column + 1⟩, .token .value :: s.notes, ⟨k.note, false⟩ :: s.found,
        s.noted, s.indent, s.outer, s.brackets, false, none :: keys'⟩ := by
  obtain ⟨cursor, notes, found, noted, indent, outer, brackets, allowed, keys₀⟩ := s
  obtain rfl : cursor = ⟨':' :: t, index, line, column⟩ := hcursor
  obtain rfl : keys₀ = some k :: keys := hkeys
  obtain rfl : brackets = depth + 1 := h.brackets
  have hidle := skipIdle_spaces true index line column (':' :: t).length allowed 0
    (show Opens (':' :: t) from opens_cons.2 (by decide))
  have hmark : (Cursor.mk (':' :: t) index line column).atMark = false := by
    simp [Cursor.atMark, startsWithMark]
  have hoptional := (areOptional_cons.1 h.keys).2.age ⟨':' :: t, index, line, column⟩
  have hage : age ⟨':' :: t, index, line, column⟩ (some k) = some k := by
    rw [age, Option.filter_some, hstale]
    rfl
  have hat : (facing ⟨⟨':' :: t, index, line, column⟩, notes, found, noted, indent, outer,
      depth + 1, allowed, some k :: keys⟩ ⟨':' :: t, index, line, column⟩ allowed).fetchAt ':' =
      some ⟨⟨t, index + 1, line, column + 1⟩, .token .value :: notes, ⟨k.note, false⟩ :: found,
        noted, indent, outer, depth + 1, false,
        none :: keys.map (age ⟨':' :: t, index, line, column⟩)⟩ := by
    rw [facing, Stream.aged, List.map_cons, hage, fetchAt, hmark]
    simp [fetchValue, fetchValueOf, openBlock, take, add, Cursor.skipMany]
  have hfetch := fetch_bracketed h hidle hat hoptional.none_cons
  exact ⟨_, hoptional.age _, hfetch⟩

/-- The colon behind a text that can no longer be a key. -/
theorem Bracketed.fetch_lateColon {index line column : Nat} {keys : List (Option KeyBegun)}
    (h : Bracketed s (depth + 1)) (hcursor : s.cursor = ⟨':' :: t, index, line, column⟩)
    (hkeys : s.keys = none :: keys) :
    ∃ keys', AreOptional keys' ∧ s.fetch = some
      ⟨⟨t, index + 1, line, column + 1⟩, .token .value :: s.notes, s.found, s.noted, s.indent,
        s.outer, s.brackets, false, none :: keys'⟩ := by
  obtain ⟨cursor, notes, found, noted, indent, outer, brackets, allowed, keys₀⟩ := s
  obtain rfl : cursor = ⟨':' :: t, index, line, column⟩ := hcursor
  obtain rfl : keys₀ = none :: keys := hkeys
  obtain rfl : brackets = depth + 1 := h.brackets
  have hidle := skipIdle_spaces true index line column (':' :: t).length allowed 0
    (show Opens (':' :: t) from opens_cons.2 (by decide))
  have hmark : (Cursor.mk (':' :: t) index line column).atMark = false := by
    simp [Cursor.atMark, startsWithMark]
  have hoptional := (areOptional_cons.1 h.keys).2.age ⟨':' :: t, index, line, column⟩
  have hat : (facing ⟨⟨':' :: t, index, line, column⟩, notes, found, noted, indent, outer,
      depth + 1, allowed, none :: keys⟩ ⟨':' :: t, index, line, column⟩ allowed).fetchAt ':' =
      some ⟨⟨t, index + 1, line, column + 1⟩, .token .value :: notes, found, noted, indent, outer,
        depth + 1, false, none :: keys.map (age ⟨':' :: t, index, line, column⟩)⟩ := by
    rw [facing, Stream.aged, List.map_cons, show age _ none = none from rfl, fetchAt, hmark]
    simp [fetchValue, openHere, openBlock, take, add, Cursor.skipMany]
  exact ⟨_, hoptional.age _, fetch_bracketed h hidle hat hoptional.none_cons⟩

/-- A state behind a text that has been noted for a key. -/
def behindText (s : Stream) (c : Cursor) (cs : List Char) (k : KeyBegun)
    (keys : List (Option KeyBegun)) : Stream :=
  ⟨c, .token (.scalar cs .otherwise) :: .keyMayBegin s.noted :: s.notes, s.found, s.noted + 1,
    s.indent, s.outer, s.brackets, false, some k :: keys⟩

/-- A text where a key may begin. -/
theorem Stands.fetch_text {cs : List Char} (h : Stands s X (depth + 1) true ts)
    (hX : Passes true X (doubleChars cs ++ t)) :
    ∃ index line column keys, AreOptional keys ∧
      s.fetch = some (s.behindText ⟨t, index + (doubleChars cs).length, line,
        column + (doubleChars cs).length⟩ cs ⟨false, s.noted, index, line, column⟩ keys).aged := by
  obtain ⟨index, line, column, hidle⟩ :=
    hX s.keyAllowed s.cursor.index s.cursor.line s.cursor.column
  rw [← h.rest] at hidle
  have hr : Bracketed (s.facing ⟨doubleChars cs ++ t, index, line, column⟩ s.keyAllowed)
      (depth + 1) := ⟨h.brackets, h.indent, h.outer, h.keys.age _⟩
  obtain ⟨keys, hkeys, hbegin⟩ := hr.beginKey_of_allowed h.keyAllowed
  have hmark : (Cursor.mk (doubleChars cs ++ t) index line column).atMark = false := by
    simp [Cursor.atMark, startsWithMark, doubleChars]
  have hat : (s.facing ⟨doubleChars cs ++ t, index, line, column⟩ s.keyAllowed).fetchAt '"' =
      some (s.behindText ⟨t, index + (doubleChars cs).length, line,
        column + (doubleChars cs).length⟩ cs ⟨false, s.noted, index, line, column⟩ keys) := by
    rw [fetchAt_quote (.inr rfl) hmark, fetchNode, hbegin]
    simp only [Option.bind_eq_bind, Option.bind_some]
    rw [show (s.facing ⟨doubleChars cs ++ t, index, line, column⟩ s.keyAllowed).cursor =
      ⟨doubleChars cs ++ t, index, line, column⟩ from rfl, quotedScalar_double]
    rfl
  exact ⟨index, line, column, keys, hkeys, fetch_bracketed h.toBracketed hidle hat
    (areOptional_cons.2 ⟨fun k hk => Option.some.inj hk ▸ rfl, hkeys⟩)⟩

/-- **A key and its colon.** -/
theorem Stands.key {cs : List Char} (h : Stands s X (depth + 1) true ts)
    (hX : Passes true X (doubleChars cs ++ ':' :: t)) (hlength : (doubleChars cs).length ≤ 1024) :
    ∃ s', Reaches 2 s s' ∧
      Stands s' t (depth + 1) false (ts ++ [.key, .scalar cs .otherwise, .value]) := by
  obtain ⟨index, line, column, keys, hkeys, hfirst⟩ := h.fetch_text hX
  -- The text is in one line and short enough, so that it still may be a key when the colon comes.
  have hstale : isStale
      ⟨':' :: t, index + (doubleChars cs).length, line, column + (doubleChars cs).length⟩
      ⟨false, s.noted, index, line, column⟩ = false := by
    simp only [isStale, Bool.or_eq_false_iff, decide_eq_false_iff_not]
    omega
  have hnext : Bracketed (s.behindText ⟨':' :: t, index + (doubleChars cs).length, line,
      column + (doubleChars cs).length⟩ cs ⟨false, s.noted, index, line, column⟩ keys)
      (depth + 1) :=
    ⟨h.brackets, h.indent, h.outer,
      areOptional_cons.2 ⟨fun k hk => Option.some.inj hk ▸ rfl, hkeys⟩⟩
  obtain ⟨keys', hkeys', hsecond⟩ := hnext.aged.fetch_colon rfl
    (by rw [Stream.aged, behindText, List.map_cons, age, Option.filter_some, hstale]; rfl) hstale
  refine ⟨_, .step hfirst rfl (.step hsecond rfl (.refl _)),
    ⟨h.brackets, h.indent, h.outer, hkeys'.none_cons⟩, ⟨?_, ?_⟩, rfl, rfl⟩
  · exact List.forall_mem_cons.2
      ⟨Nat.lt_succ_self _, fun k hk => Nat.lt_succ_of_lt (h.found k hk)⟩
  · have hsettled := h.settled.key false (.scalar cs .otherwise)
    rwa [keyTokens, if_neg (by decide), List.append_assoc] at hsettled

/-- **A text that is too long for a key, and its colon.** -/
theorem Stands.lateColon {cs : List Char} (h : Stands s X (depth + 1) true ts)
    (hX : Passes true X (doubleChars cs ++ ':' :: t)) (hlength : ¬ (doubleChars cs).length ≤ 1024) :
    ∃ s', Reaches 2 s s' ∧
      Stands s' t (depth + 1) false (ts ++ [.scalar cs .otherwise, .value]) := by
  obtain ⟨index, line, column, keys, hkeys, hfirst⟩ := h.fetch_text hX
  -- When the colon comes the place where the text begins has been given up.
  have hstale : isStale
      ⟨':' :: t, index + (doubleChars cs).length, line, column + (doubleChars cs).length⟩
      ⟨false, s.noted, index, line, column⟩ = true := by
    simp only [isStale, Bool.or_eq_true, decide_eq_true_eq]
    omega
  have hnext : Bracketed (s.behindText ⟨':' :: t, index + (doubleChars cs).length, line,
      column + (doubleChars cs).length⟩ cs ⟨false, s.noted, index, line, column⟩ keys)
      (depth + 1) :=
    ⟨h.brackets, h.indent, h.outer,
      areOptional_cons.2 ⟨fun k hk => Option.some.inj hk ▸ rfl, hkeys⟩⟩
  obtain ⟨keys', hkeys', hsecond⟩ := hnext.aged.fetch_lateColon rfl
    (by rw [Stream.aged, behindText, List.map_cons, age, Option.filter_some, hstale]; rfl)
  refine ⟨_, .step hfirst rfl (.step hsecond rfl (.refl _)),
    ⟨h.brackets, h.indent, h.outer, hkeys'.none_cons⟩, ⟨?_, ?_⟩, rfl, rfl⟩
  · exact fun k hk => Nat.lt_succ_of_lt (h.found k hk)
  · have hsettled := ((h.settled.unfound h.found).token (.scalar cs .otherwise)).token .value
    rwa [List.append_assoc] at hsettled

/-- **The end of the text.** -/
theorem Stands.fetch_end (h : Stands s X 0 keyAllowed ts) (hX : Passes false X []) :
    ∃ s', s.fetch = some s' ∧ s'.isDone = true ∧ s'.outcome true = ts ++ [.streamEnd] := by
  obtain ⟨index, line, column, hidle⟩ :=
    hX s.keyAllowed s.cursor.index s.cursor.line s.cursor.column
  rw [← h.rest] at hidle
  have hr (c : Cursor) :
      Bracketed { s.facing ⟨[], index, line, column⟩ s.keyAllowed with cursor := c } 0 :=
    ⟨h.brackets, h.indent, h.outer, h.keys.age _⟩
  obtain ⟨keys, hkeys, hgive⟩ := (hr _).giveUpKey
  have hend : (s.facing ⟨[], index, line, column⟩ s.keyAllowed).fetchEnd = some ({
      s.facing ⟨[], index, line, column⟩ s.keyAllowed with
      cursor := if column = 0 then ⟨[], index, line, column⟩ else ⟨[], index, line + 1, 0⟩
      keys, keyAllowed := false }.add .streamEnd) := by
    rw [fetchEnd]
    simp only [Option.bind_eq_bind]
    rw [(hr _).closeBlocks_eq]
    exact congrArg (Option.bind · _) hgive
  refine ⟨_, fetch_bracketed h.toBracketed hidle hend hkeys, rfl, ?_⟩
  exact (h.settled.token .streamEnd) [] nofun

end

end Stream

end Yaml

end CaptureConfig

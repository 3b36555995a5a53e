/-
**The tokens of nested blocks.**

The tokens of a document that is written in blocks are those of its keys and scalars, with the
beginning and the end of each block.  While the text is read, two things lag behind it: a key is
noted before it is known for one, and a block is closed only where the next line begins.  So what
holds between two lines is told by what the notes come to whatever is found later, and by what the
open blocks come to once they are closed to the column of the line.

Main definitions:

* `Yaml.Settled` — what notes come to whatever is found later;
* `Yaml.Stream.AtLine` — a state in front of a line;
* `Yaml.Stream.Behind` — a state behind a key and its colon;
* `Yaml.Stream.Reaches` — some tokens lead from one state to another;
* `Yaml.valueTokens`, `Yaml.entryTokens` — the tokens of a document.

Main results:

* `Yaml.Stream.AtLine.key` — a key and its colon;
* `Yaml.Stream.Behind.text` — a text in any style;
* `Yaml.Stream.AtLine.entries` — the entries of a block;
* `Yaml.tokens_print` — **the tokens of a printed document**.
-/

import CaptureConfig.Proofs.Yaml.Fetch
import CaptureConfig.Proofs.Yaml.Style
import CaptureConfig.Yaml.Printer

set_option relaxedAutoImplicit false
set_option autoImplicit false

namespace CaptureConfig

namespace Yaml

/-! ### Notes -/

/-- **What notes come to**, whatever is found later about places that have not been noted yet. -/
def Settled (found : List KeyFound) (noted : Nat) (notes : List Noted) (ts : List Token) : Prop :=
  ∀ later, (∀ k ∈ later, noted ≤ k.place) → settle (later ++ found) notes.reverse = ts

section

variable {found : List KeyFound} {noted : Nat} {notes : List Noted} {ts : List Token}

theorem settled_nil : Settled [] 0 [] [] := fun _ _ => rfl

/-- One more token. -/
theorem Settled.token (h : Settled found noted notes ts) (t : Token) :
    Settled found noted (.token t :: notes) (ts ++ [t]) := by
  intro later hlater
  rw [List.reverse_cons, settle, List.flatMap_append]
  exact congrArg (· ++ [t]) (h later hlater)

/-- The tokens of a key that begins a mapping or goes on with it. -/
def keyTokens (new : Bool) : List Token := if new then [.blockMapping, .key] else [.key]

/-- A place where a key did begin. -/
theorem Settled.key (h : Settled found noted notes ts) (new : Bool) (t : Token) :
    Settled (⟨noted, new⟩ :: found) (noted + 1)
      (.token .value :: .token t :: .keyMayBegin noted :: notes)
      (ts ++ keyTokens new ++ [t, .value]) := by
  intro later hlater
  -- To the notes before it, the key that is found here is one that is found later.
  have hbefore : settle (later ++ ⟨noted, new⟩ :: found) notes.reverse = ts := by
    have := h (later ++ [⟨noted, new⟩]) fun k hk => by
      obtain hk | hk := List.mem_append.1 hk
      · exact Nat.le_of_succ_le (hlater k hk)
      · exact Nat.le_of_eq (by rw [List.mem_singleton.1 hk])
    rwa [List.append_assoc] at this
  have hfind : (later ++ ⟨noted, new⟩ :: found).find? (fun k => k.place == noted) =
      some ⟨noted, new⟩ := by
    have hnone : later.find? (fun k => k.place == noted) = none := by
      rw [List.find?_eq_none]
      intro k hk
      have := hlater k hk
      simp only [beq_iff_eq]
      omega
    rw [List.find?_append, hnone, Option.none_or, List.find?_cons]
    simp
  have htokens : KeyFound.tokens (later ++ ⟨noted, new⟩ :: found) noted = keyTokens new := by
    rw [KeyFound.tokens, hfind]
    rfl
  simp only [List.reverse_cons, List.append_assoc, settle, List.flatMap_append] at hbefore ⊢
  rw [hbefore]
  simp [htokens]

end

/-! ### The tokens of a document -/

/-- How a text in a style is written, as far as it matters. -/
def Style.written : Style → Written
  | .plain => .plainly
  | .single => .otherwise
  | .double => .otherwise
  | .literal => .lineByLine

mutual

/-- **The tokens of a document**, or of a part of one. -/
def valueTokens : Doc → List Token
  | .text s => [.scalar s.toList (styleOf s.toList).written]
  | .number n => [.scalar (Digits.ofNat n) .plainly]
  | .flag b => [.scalar (if b then "true".toList else "false".toList) .plainly]
  | .block entries => .blockMapping :: (entryTokens entries ++ [.blockEnd])

/-- The tokens of the entries of a block. -/
def entryTokens : List (String × Doc) → List Token
  | [] => []
  | (k, d) :: rest =>
      .key :: .scalar k.toList .plainly :: .value :: (valueTokens d ++ entryTokens rest)

end

/-- **A text that is written plainly, and is short enough for a key.** -/
def IsKey (k : List Char) : Prop := styleOf k = .plain ∧ k.length ≤ 1024

instance (k : List Char) : Decidable (IsKey k) := inferInstanceAs (Decidable (_ ∧ _))

mutual

/-- **A document whose keys are keys, and whose blocks have entries.** -/
def IsKeyed : Doc → Prop
  | .block entries => entries ≠ [] ∧ AreKeyed entries
  | _ => True

/-- Entries of such a document. -/
def AreKeyed : List (String × Doc) → Prop
  | [] => True
  | (k, d) :: rest => IsKey k.toList ∧ IsKeyed d ∧ AreKeyed rest

end

namespace Stream

/-! ### States between tokens -/

/-- The blocks that a column does not leave stay open. -/
theorem closeTo_of_le {column indent : Int} {outer : List Int} {notes : List Noted}
    (h : indent ≤ column) : closeTo column indent outer notes = (indent, outer, notes) := by
  cases outer with
  | nil => rfl
  | cons i outer => rw [closeTo, if_neg (Int.not_lt.2 h)]

/-- **A state in front of a line** that starts in a column, once the blocks that end there are
closed: the innermost one is then in the column `indent`. -/
structure AtLine (s : Stream) (t : List Char) (column : Nat) (indent : Int) (outer : List Int)
    (ts : List Token) : Prop where
  idle : ∃ index line, skipIdle false (s.cursor.rest.length + 1) s.keyAllowed s.cursor =
    (true, ⟨t, index, line, column⟩)
  keys : s.keys = [none]
  brackets : s.brackets = 0
  blocks : ∃ notes, closeTo column s.indent s.outer s.notes = closeTo column indent outer notes ∧
    Settled s.found s.noted notes ts

/-- **A state behind a key and its colon**, in a block that stands in a column. -/
structure Behind (s : Stream) (rest : List Char) (indent : Nat) (outer : List Int)
    (ts : List Token) : Prop where
  cursor : ∃ index line column, s.cursor = ⟨rest, index, line, column⟩ ∧ indent < column
  keyAllowed : s.keyAllowed = false
  keys : s.keys = [none]
  brackets : s.brackets = 0
  indent : s.indent = indent
  outer : s.outer = outer
  settled : Settled s.found s.noted s.notes ts

/-- Some tokens lead from one state to another, and the text does not end there. -/
inductive Reaches : Nat → Stream → Stream → Prop
  | refl (s : Stream) : Reaches 0 s s
  | step {s s₁ s₂ : Stream} {n : Nat} (hfetch : s.fetch = some s₁) (hdone : s₁.isDone = false)
      (hrest : Reaches n s₁ s₂) : Reaches (n + 1) s s₂

theorem Reaches.trans {m n : Nat} {s s₁ s₂ : Stream} (h : Reaches m s s₁) (h' : Reaches n s₁ s₂) :
    Reaches (m + n) s s₂ := by
  induction h with
  | refl s => rwa [Nat.zero_add]
  | step hfetch hdone _ ih =>
      rw [Nat.succ_add]
      exact .step hfetch hdone (ih h')

theorem run_of_reaches {n : Nat} {s s' : Stream} (h : Reaches n s s') (fuel : Nat) :
    run (n + fuel) s = run fuel s' := by
  induction h with
  | refl s => rw [Nat.zero_add]
  | step hfetch hdone _ ih =>
      rw [Nat.succ_add, run, hfetch]
      simp only [hdone, Bool.false_eq_true, if_false]
      exact ih

/-! ### Keys -/

theorem opens_plain {cs : List Char} (h : styleOf cs = .plain) (tail : List Char) :
    Opens (cs ++ tail) := by
  obtain ⟨c, rest, rfl, hspace, hhash⟩ := (isPlain_of_styleOf h).head
  refine opens_cons.2 ⟨(isPlain_of_styleOf h).noGap c List.mem_cons_self hspace, hhash, ?_⟩
  rintro rfl
  exact absurd (isPrintable_of_styleOf_plain h _ List.mem_cons_self) (by decide)

theorem opens_of_isTame {cs : List Char} (hne : cs ≠ []) (h : ∀ c ∈ cs, IsTame c)
    (tail : List Char) : Opens (cs ++ tail) := by
  obtain ⟨c, rest, rfl⟩ := List.exists_cons_of_ne_nil hne
  have hc := h c List.mem_cons_self
  exact opens_cons.2 ⟨hc.1, hc.ne_hash, hc.2.2.2⟩

/-- A plain scalar is noted for a key where one may begin. -/
theorem fetchPlain_of_allowed {s : Stream} {p : Plain} (hkeys : s.keys = [none])
    (hbrackets : s.brackets = 0) (hallowed : s.keyAllowed = true)
    (hread : plainScalar false (s.indent + 1).toNat s.cursor = some p) :
    s.fetchPlain = some
      ⟨p.place, .token (.scalar p.text .plainly) :: .keyMayBegin s.noted :: s.notes, s.found,
        s.noted + 1, s.indent, s.outer, 0, p.endsLine,
        [some ⟨s.indent == s.cursor.column, s.noted, s.cursor.index, s.cursor.line,
          s.cursor.column⟩]⟩ := by
  obtain ⟨cursor, notes, found, noted, indent, outer, brackets, keyAllowed, keys⟩ := s
  obtain rfl : keys = [none] := hkeys
  obtain rfl : brackets = 0 := hbrackets
  obtain rfl : keyAllowed = true := hallowed
  exact (congrArg (Option.bind · _) hread).trans rfl

/-- Behind a colon a plain scalar is no key. -/
theorem fetchPlain_of_not_allowed {s : Stream} {p : Plain} (hbrackets : s.brackets = 0)
    (hallowed : s.keyAllowed = false)
    (hread : plainScalar false (s.indent + 1).toNat s.cursor = some p) :
    s.fetchPlain = some ({ s with keyAllowed := p.endsLine }.goTo p.place
      (.scalar p.text .plainly)) := by
  obtain ⟨cursor, notes, found, noted, indent, outer, brackets, keyAllowed, keys⟩ := s
  obtain rfl : brackets = 0 := hbrackets
  obtain rfl : keyAllowed = false := hallowed
  exact (congrArg (Option.bind · _) hread).trans rfl

theorem length_pos_of_isKey {k : List Char} (hk : IsKey k) : 0 < k.length := by
  obtain ⟨c, rest, rfl, -⟩ := (isPlain_of_styleOf hk.1).head
  exact Nat.succ_pos _

/-- A plain scalar where a key may begin. -/
theorem AtLine.fetch_key {s : Stream} {k X : List Char} {column : Nat} {indent : Int}
    {outer : List Int} {ts : List Token} (h : AtLine s (k ++ ':' :: X) column indent outer ts)
    (hk : IsKey k) (hindent : indent ≤ column) (hgap : isGap X.head? = true) :
    ∃ index line notes, Settled s.found s.noted notes ts ∧
      s.fetch = some
        ⟨⟨':' :: X, index + k.length, line, column + k.length⟩,
          .token (.scalar k .plainly) :: .keyMayBegin s.noted :: notes, s.found, s.noted + 1,
          indent, outer, 0, false,
          [some ⟨indent == column, s.noted, index, line, column⟩]⟩ := by
  obtain ⟨index, line, hidle⟩ := h.idle
  obtain ⟨notes, hclose, hsettled⟩ := h.blocks
  refine ⟨index, line, notes, hsettled, ?_⟩
  rw [closeTo_of_le hindent] at hclose
  have hplain := isPlain_of_styleOf hk.1
  obtain ⟨ch, cs, rfl, hspace, -⟩ := hplain.head
  have hmark : (Cursor.mk (ch :: cs ++ ':' :: X) index line column).atMark = false :=
    atMark_key (startsWithMark_of_styleOf hk.1)
  refine fetch_of h.brackets h.keys hidle rfl hclose ?_ (refresh_of rfl (refreshKey_some ?_ ?_))
  · have hat := fetchAt_plain
      (s := s.ready ⟨ch :: cs ++ ':' :: X, index, line, column⟩ true indent outer notes) rfl
      (hplain.noGap ch List.mem_cons_self hspace) (startsWithIndicator_of_styleOf hk.1) hmark
      h.brackets
    have hread := plainScalar_key hplain hmark (show (indent + 1).toNat ≤ column + 1 by omega) hgap
    refine hat.trans (Eq.trans (fetchPlain_of_allowed ?_ ?_ ?_ hread) rfl)
    · exact h.keys
    · exact h.brackets
    · rfl
  · exact Nat.le_refl _
  · exact Nat.add_le_add_left hk.2 index

/-- A key opens a block in its column, unless the innermost block stands there already. -/
theorem fetchValueOf_eq {s : Stream} {k : KeyBegun} (hkeys : s.keys = [some k])
    (hbrackets : s.brackets = 0) :
    s.fetchValueOf k =
      ⟨s.cursor.skipMany 1, .token .value :: s.notes,
        ⟨k.note, s.indent < k.column⟩ :: s.found, s.noted,
        if s.indent < k.column then k.column else s.indent,
        if s.indent < k.column then s.indent :: s.outer else s.outer, 0, false, [none]⟩ := by
  obtain ⟨cursor, notes, found, noted, indent, outer, brackets, keyAllowed, keys⟩ := s
  obtain rfl : keys = [some k] := hkeys
  obtain rfl : brackets = 0 := hbrackets
  by_cases h : indent < k.column <;> simp [fetchValueOf, openBlock, h, take, add]

/-- The colon behind a key. -/
theorem fetch_colon {s : Stream} {X : List Char} {index line column : Nat} {k : KeyBegun}
    (hcursor : s.cursor = ⟨':' :: X, index, line, column⟩) (hcolumn : 0 < column)
    (hkeys : s.keys = [some k]) (hbrackets : s.brackets = 0) (hallowed : s.keyAllowed = false)
    (hindent : s.indent ≤ column) (hgap : isGap X.head? = true) (hline : line ≤ k.line)
    (hindex : index ≤ k.index + 1024) : s.fetch = some (s.fetchValueOf k) := by
  obtain ⟨cursor, notes, found, noted, indent, outer, brackets, keyAllowed, keys⟩ := s
  obtain rfl : cursor = ⟨':' :: X, index, line, column⟩ := hcursor
  obtain rfl : keys = [some k] := hkeys
  obtain rfl : brackets = 0 := hbrackets
  obtain rfl : keyAllowed = false := hallowed
  have hidle := skipIdle_spaces false index line column (X.length + 1) false 0
    (show Opens (':' :: X) from opens_cons.2 (by decide))
  refine fetch_of rfl rfl hidle (refreshKey_some hline hindex) (closeTo_of_le hindent) ?_ ?_
  · exact (fetchAt_colon rfl hcolumn hgap).trans rfl
  · refine refresh_of (k := none) ?_ rfl
    rw [fetchValueOf_eq rfl rfl]

/-- **A key and its colon.** -/
theorem AtLine.key {s : Stream} {k X : List Char} {column : Nat} {indent : Int} {outer : List Int}
    {ts : List Token} (h : AtLine s (k ++ ':' :: X) column indent outer ts) (hk : IsKey k)
    (hindent : indent ≤ column) (hgap : isGap X.head? = true) :
    ∃ s', Reaches 2 s s' ∧
      Behind s' X column (if indent < column then indent :: outer else outer)
        (ts ++ keyTokens (indent < column) ++ [.scalar k .plainly, .value]) := by
  obtain ⟨index, line, notes, hsettled, hfetch⟩ := h.fetch_key hk hindent hgap
  have hlength := length_pos_of_isKey hk
  have hcolon := fetch_colon (s := ⟨⟨':' :: X, index + k.length, line, column + k.length⟩,
    .token (.scalar k .plainly) :: .keyMayBegin s.noted :: notes, s.found, s.noted + 1, indent,
    outer, 0, false, [some ⟨indent == column, s.noted, index, line, column⟩]⟩) rfl
    (by omega) rfl rfl rfl (show indent ≤ ((column + k.length : Nat) : Int) by omega) hgap
    (Nat.le_refl line) (Nat.add_le_add_left hk.2 index)
  rw [fetchValueOf_eq rfl rfl] at hcolon
  have hindent' : (if indent < column then (column : Int) else indent) = column := by
    split <;> omega
  refine ⟨_, .step hfetch rfl (.step hcolon rfl (.refl _)),
    ⟨⟨_, _, _, rfl, ?_⟩, rfl, rfl, rfl, hindent', rfl, ?_⟩⟩
  · show column < column + k.length + 1
    omega
  · exact hsettled.key (indent < column) (.scalar k .plainly)

/-! ### Values -/

section

variable {s : Stream} {indent n : Nat} {outer : List Int} {ts : List Token} {t : List Char}

/-- A state that has passed over the space behind a colon. -/
def atValue (s : Stream) (c : Cursor) (indent : Nat) (outer : List Int) : Stream :=
  ⟨c, s.notes, s.found, s.noted, indent, outer, 0, false, [none]⟩

/-- What begins behind a colon and a space is fetched where it begins. -/
theorem Behind.fetch {ch : Char} {rest : List Char}
    (h : Behind s (' ' :: ch :: rest) indent outer ts) (hopens : Opens (ch :: rest)) :
    ∃ index line column, indent < column ∧ ∀ next : Stream,
      fetchAt (s.atValue ⟨ch :: rest, index, line, column⟩ indent outer) ch = some next →
        next.keys = [none] → s.fetch = some next := by
  obtain ⟨⟨index, line, column, hcursor, hcolumn⟩, hallowed, hkeys, hbrackets, hindent, houter,
    -⟩ := h
  obtain ⟨cursor, notes, found, noted, indent₀, outer₀, brackets, keyAllowed, keys⟩ := s
  obtain rfl : cursor = ⟨' ' :: ch :: rest, index, line, column⟩ := hcursor
  obtain rfl : keys = [none] := hkeys
  obtain rfl : brackets = 0 := hbrackets
  obtain rfl : keyAllowed = false := hallowed
  obtain rfl : indent₀ = indent := hindent
  obtain rfl : outer₀ = outer := houter
  refine ⟨index + 1, line, column + 1, by omega, fun next hat hnext => ?_⟩
  have hidle := skipIdle_spaces false index line column ((' ' :: ch :: rest).length) false 1 hopens
  exact fetch_of rfl rfl hidle rfl
    (closeTo_of_le (show (indent : Int) ≤ ((column + 1 : Nat) : Int) by omega)) hat
    (refresh_of hnext rfl)

/-- A plain scalar behind a colon. -/
theorem Behind.plain {cs : List Char}
    (h : Behind s (' ' :: (cs ++ '\n' :: (List.replicate n ' ' ++ t))) indent outer ts)
    (hcs : IsPlain cs) (hfront : startsWithIndicator cs = false)
    (hopens : Opens (cs ++ '\n' :: (List.replicate n ' ' ++ t))) (hn : n ≤ indent)
    (ht : Opens t) :
    ∃ s', Reaches 1 s s' ∧ AtLine s' t n indent outer (ts ++ [.scalar cs .plainly]) := by
  obtain ⟨ch, rest, rfl, hspace, -⟩ := hcs.head
  obtain ⟨index, line, column, hcolumn, hfetch⟩ := h.fetch hopens
  obtain ⟨index', line', hread⟩ := plainScalar_line hcs index line (show 0 < column by omega)
    (show ((indent : Int) + 1).toNat ≤ column + 1 by omega)
    (show n < ((indent : Int) + 1).toNat by omega) ht.startsOutside
  have hat := fetchAt_plain (s := s.atValue
      ⟨ch :: rest ++ '\n' :: (List.replicate n ' ' ++ t), index, line, column⟩ indent outer) rfl
    (hcs.noGap ch List.mem_cons_self hspace) hfront
    (Cursor.atMark_of_pos (show 0 < column by omega)) rfl
  have hstep := hfetch _ (hat.trans (fetchPlain_of_not_allowed rfl rfl hread)) rfl
  refine ⟨_, .step hstep rfl (.refl _), ⟨_, _, skipIdle_spaces _ _ _ _ _ true 0 ht⟩, rfl, rfl, _, rfl,
    h.settled.token _⟩

/-- A quoted scalar behind a colon. -/
theorem Behind.quoted {q : Char} {cs body : List Char}
    (h : Behind s (' ' :: q :: (body ++ '\n' :: (List.replicate n ' ' ++ t))) indent outer ts)
    (hq : q = '\'' ∨ q = '"') (ht : Opens t)
    (hread : ∀ index line column, ∃ index' line' column', quotedScalar
      ⟨q :: (body ++ '\n' :: (List.replicate n ' ' ++ t)), index, line, column⟩ =
      some (cs, ⟨'\n' :: (List.replicate n ' ' ++ t), index', line', column'⟩)) :
    ∃ s', Reaches 1 s s' ∧ AtLine s' t n indent outer (ts ++ [.scalar cs .otherwise]) := by
  have hopens : Opens (q :: (body ++ '\n' :: (List.replicate n ' ' ++ t))) := by
    obtain rfl | rfl := hq <;> exact opens_cons.2 (by decide)
  obtain ⟨index, line, column, hcolumn, hfetch⟩ := h.fetch hopens
  obtain ⟨index', line', column', hread⟩ := hread index line column
  obtain ⟨index'', line'', hidle⟩ := skipIdle_break index' line' column'
    (List.replicate n ' ' ++ t).length false n ht
  have hat := fetchAt_quote (s := s.atValue
      ⟨q :: (body ++ '\n' :: (List.replicate n ' ' ++ t)), index, line, column⟩ indent outer) hq
    (Cursor.atMark_of_pos (show 0 < column by omega))
  have hnode : fetchNode (s.atValue
      ⟨q :: (body ++ '\n' :: (List.replicate n ' ' ++ t)), index, line, column⟩ indent outer)
      (fun s => (quotedScalar s.cursor).map fun r => (.scalar r.1 .otherwise, r.2)) =
      some ⟨⟨'\n' :: (List.replicate n ' ' ++ t), index', line', column'⟩,
        .token (.scalar cs .otherwise) :: s.notes, s.found, s.noted, indent, outer, 0, false,
        [none]⟩ :=
    Eq.trans (congrArg (fun r => Option.bind (Option.map _ r) _) hread) rfl
  refine ⟨_, .step (hfetch _ (hat.trans hnode) rfl) rfl (.refl _), ⟨_, _, hidle⟩, rfl, rfl, _, rfl,
    h.settled.token _⟩

/-- A scalar of whole lines behind a colon. -/
theorem Behind.lines {cs body : List Char}
    (h : Behind s (' ' :: '|' :: (body ++ (List.replicate n ' ' ++ t))) indent outer ts)
    (ht : Opens t)
    (hread : ∀ index line column, ∃ index' line', linesScalar indent
      ⟨'|' :: (body ++ (List.replicate n ' ' ++ t)), index, line, column⟩ =
      some (cs, ⟨t, index', line', n⟩)) :
    ∃ s', Reaches 1 s s' ∧ AtLine s' t n indent outer (ts ++ [.scalar cs .lineByLine]) := by
  obtain ⟨index, line, column, hcolumn, hfetch⟩ := h.fetch (opens_cons.2 (by decide))
  obtain ⟨index', line', hread⟩ := hread index line column
  have hat := fetchAt_bar (s := s.atValue
      ⟨'|' :: (body ++ (List.replicate n ' ' ++ t)), index, line, column⟩ indent outer)
    (show 0 < column by omega) rfl
  have hlines : fetchLines (s.atValue
      ⟨'|' :: (body ++ (List.replicate n ' ' ++ t)), index, line, column⟩ indent outer) =
      some ⟨⟨t, index', line', n⟩, .token (.scalar cs .lineByLine) :: s.notes, s.found, s.noted,
        indent, outer, 0, true, [none]⟩ :=
    Eq.trans (congrArg (fun r => Option.bind r _) hread) rfl
  refine ⟨_, .step (hfetch _ (hat.trans hlines) rfl) rfl (.refl _),
    ⟨_, _, skipIdle_spaces _ _ _ _ _ true 0 ht⟩, rfl, rfl, _, rfl, h.settled.token _⟩

/-- **A text in any style behind a colon.** -/
theorem Behind.text {text : String}
    (h : Behind s (valueChars indent (.text text) ++ (List.replicate n ' ' ++ t)) indent outer ts)
    (hn : n ≤ indent) (ht : Opens t) :
    ∃ s', Reaches 1 s s' ∧ AtLine s' t n indent outer (ts ++ valueTokens (.text text)) := by
  rw [valueChars, List.cons_append, List.append_assoc] at h
  rw [valueTokens]
  cases hstyle : styleOf text.toList with
  | plain =>
      have hend : endsLine text = false := by rw [endsLine, hstyle]; rfl
      rw [scalarChars, hstyle, hend] at h
      exact h.plain (isPlain_of_styleOf hstyle) (startsWithIndicator_of_styleOf hstyle)
        (opens_plain hstyle _) hn ht
  | single =>
      have hend : endsLine text = false := by rw [endsLine, hstyle]; rfl
      rw [scalarChars, hstyle, hend] at h
      refine h.quoted (Or.inl rfl) ht fun index line column => ?_
      exact quotedScalar_single (Nat.succ_pos _) (isFlowing_of_styleOf hstyle)
        (startsOutside_cons.2 (by decide)) index line column
  | double =>
      have hend : endsLine text = false := by rw [endsLine, hstyle]; rfl
      rw [scalarChars, hstyle, hend] at h
      refine h.quoted (Or.inr rfl) ht fun index line column => ?_
      exact ⟨_, _, _, quotedScalar_double text.toList _ index line column⟩
  | literal =>
      obtain ⟨hne, hprintable⟩ := isPrintable_of_styleOf hstyle
      have hend : (if endsLine text then [] else ['\n']) = lineEnd text.toList := by
        rw [endsLine, hstyle]
        rfl
      rw [scalarChars, hstyle, hend, ← List.append_assoc] at h
      refine h.lines ht fun index line column => ?_
      have hread := linesScalar_literal hne hprintable hn ht.startsOutside index line column
      rw [← List.append_assoc] at hread
      exact hread

/-- A number or a truth value behind a colon. -/
theorem Behind.word {cs : List Char}
    (h : Behind s (' ' :: (cs ++ ['\n']) ++ (List.replicate n ' ' ++ t)) indent outer ts)
    (hne : cs ≠ []) (hcs : ∀ c ∈ cs, IsTame c) (hn : n ≤ indent) (ht : Opens t) :
    ∃ s', Reaches 1 s s' ∧ AtLine s' t n indent outer (ts ++ [.scalar cs .plainly]) := by
  rw [List.cons_append, List.append_assoc] at h
  exact h.plain (isPlain_of_isTame hne hcs) (startsWithIndicator_of_isTame hne hcs)
    (opens_of_isTame hne hcs _) hn ht

end

/-! ### Blocks -/

/-- Within a number of tokens the front of a line is reached. -/
def ReachesLine (s : Stream) (bound : Nat) (t : List Char) (column : Nat) (indent : Int)
    (outer : List Int) (ts : List Token) : Prop :=
  ∃ m s', Reaches m s s' ∧ m ≤ bound ∧ AtLine s' t column indent outer ts

theorem Reaches.reachesLine {m bound : Nat} {s s' : Stream} {t : List Char} {column : Nat}
    {indent : Int} {outer : List Int} {ts : List Token} (h : Reaches m s s')
    (h' : ReachesLine s' bound t column indent outer ts) :
    ReachesLine s (m + bound) t column indent outer ts := by
  obtain ⟨m', s'', hreaches, hbound, hline⟩ := h'
  exact ⟨m + m', s'', h.trans hreaches, by omega, hline⟩

/-- The first line of a block below a key. -/
theorem Behind.atLine {s : Stream} {indent n : Nat} {outer : List Int} {ts : List Token}
    {t : List Char} (h : Behind s ('\n' :: (List.replicate n ' ' ++ t)) indent outer ts)
    (ht : Opens t) : AtLine s t n indent outer ts := by
  obtain ⟨⟨index, line, column, hcursor, -⟩, -, hkeys, hbrackets, hindent, houter, hsettled⟩ := h
  obtain ⟨index', line', hidle⟩ := skipIdle_break index line column
    (List.replicate n ' ' ++ t).length s.keyAllowed n ht
  refine ⟨⟨index', line', ?_⟩, hkeys, hbrackets, s.notes, by rw [hindent, houter], hsettled⟩
  rw [hcursor]
  exact hidle

/-- A line further out closes a block. -/
theorem AtLine.close {s : Stream} {t : List Char} {n column : Nat} {indent : Int}
    {outer : List Int} {ts : List Token} (h : AtLine s t n column (indent :: outer) ts)
    (hn : n < column) : AtLine s t n indent outer (ts ++ [.blockEnd]) := by
  obtain ⟨hidle, hkeys, hbrackets, notes, hclose, hsettled⟩ := h
  refine ⟨hidle, hkeys, hbrackets, .token .blockEnd :: notes, ?_, hsettled.token .blockEnd⟩
  rw [hclose, closeTo, if_pos (Int.ofNat_lt.2 hn)]

theorem ReachesLine.close {s : Stream} {bound n column : Nat} {t : List Char} {indent : Int}
    {outer : List Int} {ts : List Token}
    (h : ReachesLine s bound t n column (indent :: outer) ts) (hn : n < column) :
    ReachesLine s bound t n indent outer (ts ++ [.blockEnd]) := by
  obtain ⟨m, s', hreaches, hbound, hline⟩ := h
  exact ⟨m, s', hreaches, hbound, hline.close hn⟩

theorem ReachesLine.mono {s : Stream} {bound bound' n : Nat} {t : List Char} {indent : Int}
    {outer : List Int} {ts : List Token} (h : ReachesLine s bound t n indent outer ts)
    (hbound : bound ≤ bound') : ReachesLine s bound' t n indent outer ts := by
  obtain ⟨m, s', hreaches, hm, hline⟩ := h
  exact ⟨m, s', hreaches, by omega, hline⟩

/-- The entries of a block begin with their first key. -/
theorem entryChars_cons (column : Nat) {k : String} (hk : IsKey k.toList) (d : Doc)
    (rest : List (String × Doc)) (tail : List Char) :
    entryChars column ((k, d) :: rest) ++ tail =
      List.replicate column ' ' ++ (k.toList ++ ':' :: (valueChars column d ++
        (entryChars column rest ++ tail))) := by
  rw [entryChars, scalarChars, hk.1, indentChars]
  simp

/-- Behind a colon there is a space or a line feed. -/
theorem isGap_valueChars (column : Nat) (d : Doc) (tail : List Char) :
    isGap (valueChars column d ++ tail).head? = true := by
  cases d with
  | block entries => cases entries <;> rfl
  | _ => rfl

theorem keyTokens_eq (indent : Int) (column : Nat) :
    keyTokens (indent < column) = (if indent < column then [.blockMapping] else []) ++ [.key] := by
  by_cases h : indent < column <;> simp [keyTokens, h]

mutual

/-- **A value behind a colon**, and the next line. -/
theorem Behind.value : ∀ (d : Doc), IsKeyed d → ∀ {s : Stream} {indent n : Nat} {outer : List Int}
    {ts : List Token} {t : List Char},
    Behind s (valueChars indent d ++ (List.replicate n ' ' ++ t)) indent outer ts → n ≤ indent →
    Opens t →
    ReachesLine s (valueChars indent d).length t n indent outer (ts ++ valueTokens d)
  | .text text, _, s, indent, n, outer, ts, t, h, hn, ht => by
      obtain ⟨s', hreaches, hline⟩ := h.text hn ht
      exact ⟨1, s', hreaches, by simp [valueChars], hline⟩
  | .number m, _, s, indent, n, outer, ts, t, h, hn, ht => by
      obtain ⟨s', hreaches, hline⟩ := h.word (Digits.ofNat_ne_nil m)
        (fun c hc => isTame_of_isDigit (Digits.isDigit_of_mem_ofNat hc)) hn ht
      exact ⟨1, s', hreaches, by simp [valueChars], hline⟩
  | .flag b, _, s, indent, n, outer, ts, t, h, hn, ht => by
      obtain ⟨s', hreaches, hline⟩ := h.word (by cases b <;> decide)
        (isTame_of_all (by cases b <;> decide)) hn ht
      exact ⟨1, s', hreaches, by simp [valueChars], hline⟩
  | .block [], hd, _, _, _, _, _, _, _, _, _ => absurd rfl hd.1
  | .block ((k, d) :: rest), hd, s, indent, n, outer, ts, t, h, hn, ht => by
      obtain ⟨hk, hd, hrest⟩ := hd.2
      -- The first key opens the block, and the line behind the block closes it.
      rw [valueChars, List.cons_append, entryChars_cons _ hk] at h
      have hindent : (indent : Int) < ((indent + 2 : Nat) : Int) := by omega
      have hread := (h.atLine (opens_plain hk.1 _)).entries rest k d hk hd hrest
        (Int.le_of_lt hindent) (by omega) ht
      rw [if_pos hindent, if_pos hindent] at hread
      have hlength : k.toList.length + 1 + (valueChars (indent + 2) d).length +
          (entryChars (indent + 2) rest).length ≤
          (valueChars indent (.block ((k, d) :: rest))).length := by
        rw [valueChars, entryChars, scalarChars, hk.1]
        simp only [List.length_cons, List.length_append]
        omega
      have htokens : ts ++ valueTokens (.block ((k, d) :: rest)) =
          ts ++ [.blockMapping] ++ entryTokens ((k, d) :: rest) ++ [.blockEnd] := by
        simp [valueTokens]
      rw [htokens]
      exact (hread.close (by omega)).mono hlength
termination_by d => sizeOf d

/-- **The entries of a block**, and the next line. -/
theorem AtLine.entries : ∀ (rest : List (String × Doc)) (k : String) (d : Doc), IsKey k.toList →
    IsKeyed d → AreKeyed rest → ∀ {s : Stream} {column n : Nat} {indent : Int} {outer : List Int}
    {ts : List Token} {t : List Char},
    AtLine s (k.toList ++ ':' :: (valueChars column d ++
      (entryChars column rest ++ (List.replicate n ' ' ++ t)))) column indent outer ts →
    indent ≤ column → n ≤ column → Opens t →
    ReachesLine s (k.toList.length + 1 + (valueChars column d).length +
      (entryChars column rest).length) t n column
      (if indent < column then indent :: outer else outer)
      (ts ++ (if indent < column then [.blockMapping] else []) ++ entryTokens ((k, d) :: rest))
  | [], k, d, hk, hd, _, s, column, n, indent, outer, ts, t, h, hindent, hn, ht => by
      obtain ⟨s₁, hreaches, hbehind⟩ := h.key hk hindent (isGap_valueChars column d _)
      have hread := hreaches.reachesLine (hbehind.value d hd hn ht)
      rw [keyTokens_eq] at hread
      have hlength := length_pos_of_isKey hk
      have hread := hread.mono (show _ ≤ k.toList.length + 1 + (valueChars column d).length +
        (entryChars column []).length by omega)
      simpa [entryTokens] using hread
  | (l, e) :: rest, k, d, hk, hd, hrest, s, column, n, indent, outer, ts, t, h, hindent, hn,
      ht => by
      obtain ⟨hl, he, hrest⟩ := hrest
      -- Only the first key opens the block; the next one finds it open in its own column.
      obtain ⟨s₁, hreaches, hbehind⟩ := h.key hk hindent (isGap_valueChars column d _)
      rw [entryChars_cons _ hl] at hbehind
      obtain ⟨m, s₂, hreaches', hm, hline⟩ :=
        hbehind.value d hd (Nat.le_refl column) (opens_plain hl.1 _)
      have hread := (hreaches.trans hreaches').reachesLine
        (hline.entries rest l e hl he hrest (Int.le_refl _) hn ht)
      rw [if_neg (Int.lt_irrefl _), if_neg (Int.lt_irrefl _), keyTokens_eq] at hread
      have hlength := length_pos_of_isKey hk
      have hread := hread.mono (show _ ≤ k.toList.length + 1 + (valueChars column d).length +
        (entryChars column ((l, e) :: rest)).length by
          rw [entryChars, scalarChars, hl.1]
          simp only [List.length_cons, List.length_append]
          omega)
      simpa [entryTokens] using hread
termination_by rest _ d => sizeOf d + sizeOf rest + 1

end

/-! ### Whole documents -/

/-- At the end of a text the last block ends. -/
theorem AtLine.fetch_end {s : Stream} {ts : List Token} (h : AtLine s [] 0 0 [-1] ts) :
    ∃ s', s.fetch = some s' ∧ s'.isDone = true ∧
      s'.outcome true = ts ++ [.blockEnd, .streamEnd] := by
  obtain ⟨⟨index, line, hidle⟩, hkeys, hbrackets, notes, hclose, hsettled⟩ := h
  obtain ⟨cursor, notes₀, found, noted, indent, outer, brackets, keyAllowed, keys⟩ := s
  obtain rfl : keys = [none] := hkeys
  obtain rfl : brackets = 0 := hbrackets
  refine ⟨⟨⟨[], index, line, 0⟩, .token .streamEnd :: .token .blockEnd :: notes, found, noted, -1,
    [], 0, false, [none]⟩, ?_, rfl, ?_⟩
  · exact fetch_of rfl rfl hidle rfl hclose rfl (refresh_of rfl rfl)
  · have hts := ((hsettled.token .blockEnd).token .streamEnd) [] (fun k hk => absurd hk (by simp))
    rw [List.append_assoc] at hts
    exact hts

end Stream

/-- **The tokens of a printed document.** -/
theorem tokens_print {k : String} {d : Doc} {rest : List (String × Doc)}
    (h : IsKeyed (.block ((k, d) :: rest))) :
    tokens (entryChars 0 ((k, d) :: rest)) =
      valueTokens (.block ((k, d) :: rest)) ++ [.streamEnd] := by
  obtain ⟨hk, hd, hrest⟩ := h.2
  have hchars : entryChars 0 ((k, d) :: rest) =
      k.toList ++ ':' :: (valueChars 0 d ++ (entryChars 0 rest ++ [])) := by
    have hcons := Stream.entryChars_cons 0 hk d rest []
    rwa [List.append_nil] at hcons
  have hstart : Stream.AtLine (Stream.start (Cursor.start (entryChars 0 ((k, d) :: rest))))
      (k.toList ++ ':' :: (valueChars 0 d ++ (entryChars 0 rest ++ []))) 0 (-1) [] [] := by
    refine ⟨⟨0, 0, ?_⟩, rfl, rfl, [], rfl, settled_nil⟩
    rw [hchars]
    exact Stream.skipIdle_spaces _ _ _ _ _ true 0 (Stream.opens_plain hk.1 _)
  obtain ⟨m, s', hreaches, hm, hline⟩ :=
    hstart.entries rest k d hk hd hrest (by decide) (Nat.le_refl 0) Stream.opens_nil
  obtain ⟨s'', hfetch, hdone, houtcome⟩ := hline.fetch_end
  -- No token is shorter than a character, but for the end of the last block and of the text.
  have hfuel : (entryChars 0 ((k, d) :: rest)).length + 2 =
      m + ((entryChars 0 ((k, d) :: rest)).length + 1 - m + 1) := by
    have hlength : (entryChars 0 ((k, d) :: rest)).length =
        k.toList.length + 1 + (valueChars 0 d).length + (entryChars 0 rest).length := by
      rw [hchars]
      simp only [List.length_append, List.length_cons, List.length_nil]
      omega
    omega
  rw [tokens, hfuel, Stream.run_of_reaches hreaches, Stream.run, hfetch]
  simp only [hdone, if_true, houtcome]
  simp [valueTokens]

end Yaml

end CaptureConfig

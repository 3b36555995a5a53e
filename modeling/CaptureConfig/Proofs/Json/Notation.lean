/-
**What a text in strict notation denotes.**

The notation is told by relations between a text, what its front denotes, and what stands behind
that front: blanks, quoted texts, values, and the items and entries of collections.  They say
nothing about how a text is read.  What denotes a value is read as its tree; the induction is on the
way in which the text denotes the value, and the fuel lasts because each step that takes fuel is paid
for by a character, at the latest by a closing bracket.

Main definitions:

* `Json.Wide` — the values of the notation, their numbers as they are spelled;
* `Json.Wide.Spells` — **the values that the front of a text denotes**;
* `Json.Wide.IsSpelledBy` — the values that a whole text denotes, with blanks around them;
* `Json.Wide.tree` — the tree that a value is read as.

Main results:

* `Json.Wide.Spells.value_eq`, `Json.Wide.document_of_isSpelledBy` — **what denotes a value is read as
  its tree**.
-/

import CaptureConfig.Json.Printer
import CaptureConfig.Json.Reader
import CaptureConfig.Proofs.Json.Number
import CaptureConfig.Proofs.Json.Quoted

set_option relaxedAutoImplicit false
set_option autoImplicit false

namespace CaptureConfig

namespace Json

/-! ### The notation -/

/-- Blanks at the front of a text, and what stands behind them. -/
inductive Blanks : List Char → List Char → Prop
  /-- No further blank. -/
  | done (cs : List Char) : Blanks cs cs
  /-- One more blank. -/
  | more {c : Char} {cs rest : List Char} (hc : isBlank c = true) (h : Blanks cs rest) :
      Blanks (c :: cs) rest

/-- A key and the colon behind it, with blanks around both. -/
inductive SpellsKey : List Char → String → List Char → Prop
  | intro {cs ds es rest : List Char} {k : String} (before : Blanks cs ('"' :: ds))
      (key : SpellsText ds k.toList es) (after : Blanks es (':' :: rest)) : SpellsKey cs k rest

/-- **A value of the notation.**  Its numbers may be of any kind, and its objects may repeat keys. -/
inductive Wide where
  | null
  | bool (b : Bool)
  | number (l : Literal)
  | text (s : String)
  | array (items : List Wide)
  | object (entries : List (String × Wide))

namespace Wide

mutual

/-- **The values that the front of a text denotes**: the text, the value, and what stands behind
it. -/
inductive Spells : List Char → Wide → List Char → Prop
  | null (rest : List Char) : Spells ("null".toList ++ rest) .null rest
  | bool (b : Bool) (rest : List Char) : Spells (boolChars b ++ rest) (.bool b) rest
  | number (l : Literal) (rest : List Char) : Spells (l.chars ++ rest) (.number l) rest
  | text {cs rest : List Char} {s : String} (h : SpellsText cs s.toList rest) :
      Spells ('"' :: cs) (.text s) rest
  /-- An array without items. -/
  | emptyArray {cs rest : List Char} (h : Blanks cs (']' :: rest)) :
      Spells ('[' :: cs) (.array []) rest
  | array {cs rest : List Char} {vs : List Wide} (h : SpellsItems cs vs rest) :
      Spells ('[' :: cs) (.array vs) rest
  /-- An object without entries. -/
  | emptyObject {cs rest : List Char} (h : Blanks cs ('\x7d' :: rest)) :
      Spells ('\x7b' :: cs) (.object []) rest
  | object {cs rest : List Char} {es : List (String × Wide)} (h : SpellsEntries cs es rest) :
      Spells ('\x7b' :: cs) (.object es) rest

/-- Items up to the closing bracket. -/
inductive SpellsItems : List Char → List Wide → List Char → Prop
  /-- The last item, and the bracket. -/
  | last {cs ds es rest : List Char} {v : Wide} (before : Blanks cs ds) (h : Spells ds v es)
      (after : Blanks es (']' :: rest)) : SpellsItems cs [v] rest
  /-- An item, a comma, and further items. -/
  | more {cs ds es fs rest : List Char} {v : Wide} {vs : List Wide} (before : Blanks cs ds)
      (h : Spells ds v es) (after : Blanks es (',' :: fs)) (tail : SpellsItems fs vs rest) :
      SpellsItems cs (v :: vs) rest

/-- Entries up to the closing bracket. -/
inductive SpellsEntries : List Char → List (String × Wide) → List Char → Prop
  /-- The last entry, and the bracket. -/
  | last {cs ds es fs rest : List Char} {k : String} {v : Wide} (key : SpellsKey cs k ds)
      (before : Blanks ds es) (h : Spells es v fs) (after : Blanks fs ('\x7d' :: rest)) :
      SpellsEntries cs [(k, v)] rest
  /-- An entry, a comma, and further entries. -/
  | more {cs ds es fs gs rest : List Char} {k : String} {v : Wide} {vs : List (String × Wide)}
      (key : SpellsKey cs k ds) (before : Blanks ds es) (h : Spells es v fs)
      (after : Blanks fs (',' :: gs)) (tail : SpellsEntries gs vs rest) :
      SpellsEntries cs ((k, v) :: vs) rest

end

/-- **The values that a whole text denotes**, with blanks around them. -/
inductive IsSpelledBy (v : Wide) (s : String) : Prop
  | intro {cs rest : List Char} (before : Blanks s.toList cs) (h : Spells cs v rest)
      (after : Blanks rest []) : IsSpelledBy v s

end Wide

/-! ### The tree of a value -/

/-- **What a number is read as**, unless it is beyond the range of the format. -/
def Literal.tree (l : Literal) : Tree Atom := l.numeral.value?.elim .unreadable .scalar

namespace Wide

mutual

/-- **The tree that a value is read as.** -/
def tree : Wide → Tree Atom
  | .null => .scalar .null
  | .bool b => .scalar (.bool b)
  | .number l => l.tree
  | .text s => .scalar (.text s)
  | .array items => .seq .none (itemTrees items) true
  | .object entries => .map .none (entryTrees entries) true

/-- The trees of items. -/
def itemTrees : List Wide → List (Tree Atom)
  | [] => []
  | v :: rest => v.tree :: itemTrees rest

/-- The trees of entries. -/
def entryTrees : List (String × Wide) → List (Tree Atom × Tree Atom)
  | [] => []
  | (k, v) :: rest => (.scalar (.text k), v.tree) :: entryTrees rest

end

end Wide

/-! ### Blanks -/

/-- Something other than a number goes on behind blanks, if it does without them. -/
theorem Blanks.endsNumber {cs rest : List Char} (h : Blanks cs rest) (hrest : EndsNumber rest) :
    EndsNumber cs := by
  cases h with
  | done => exact hrest
  | more hc =>
      rintro c ⟨⟩
      simp only [isBlank, Bool.or_eq_true, beq_iff_eq] at hc
      obtain ((rfl | rfl) | rfl) | rfl := hc <;> decide

section

variable {cs rest : List Char}

theorem Blanks.length_le (h : Blanks cs rest) : rest.length ≤ cs.length := by
  induction h with
  | done => exact Nat.le_refl _
  | more _ _ ih => exact Nat.le_succ_of_le ih

/-- Blanks make no difference to what is behind all blanks. -/
theorem Blanks.skipBlanks_eq (h : Blanks cs rest) : skipBlanks cs = skipBlanks rest := by
  induction h with
  | done => rfl
  | more hc _ ih => rw [← ih, skipBlanks, List.dropWhile_cons_of_pos hc, skipBlanks]

theorem Blanks.value_eq (h : Blanks cs rest) (fuel : Nat) : value fuel cs = value fuel rest := by
  cases fuel with
  | zero => rfl
  | succ fuel => rw [value, value, h.skipBlanks_eq]

theorem Blanks.next_eq (h : Blanks cs rest) (bracket : Char) :
    next bracket cs = next bracket rest := by
  rw [next, next, h.skipBlanks_eq]

theorem skipBlanks_of_not_isBlank (h : ∀ c ∈ cs.head?, isBlank c = false) : skipBlanks cs = cs := by
  cases cs with
  | nil => rfl
  | cons c cs => rw [skipBlanks, List.dropWhile_cons_of_neg (by simp [h c rfl])]

end

/-- The text starts with neither a blank nor a bracket of a given kind. -/
def StartsWithout (brackets : List Char) (cs : List Char) : Prop :=
  ∀ c ∈ cs.head?, isBlank c = false ∧ c ∉ brackets

theorem StartsWithout.not_isBlank {brackets cs : List Char} (h : StartsWithout brackets cs) :
    ∀ c ∈ cs.head?, isBlank c = false := fun c hc => (h c hc).1

theorem SpellsKey.length_lt {cs rest : List Char} {k : String} (h : SpellsKey cs k rest) :
    rest.length < cs.length := by
  obtain ⟨before, key, after⟩ := h
  have hbefore := before.length_le
  have hkey := key.length_lt
  have hafter := after.length_le
  simp only [List.length_cons] at hbefore hafter
  omega

theorem SpellsKey.exists_skipBlanks_eq {cs rest : List Char} {k : String}
    (h : SpellsKey cs k rest) : ∃ ds, skipBlanks cs = '"' :: ds := by
  obtain ⟨before, -, -⟩ := h
  exact ⟨_, before.skipBlanks_eq⟩

/-! ### Steps of the reader -/

section

variable (fuel : Nat) {cs : List Char}

theorem value_atom (h : StartsWithout ['[', ']', '\x7b', '\x7d'] cs) :
    value (fuel + 1) cs = atom cs := by
  rw [value, skipBlanks_of_not_isBlank h.not_isBlank]
  split
  next => exact absurd (h '[' rfl).2 (by decide)
  next => exact absurd (h '\x7b' rfl).2 (by decide)
  next => rfl

/-- An array that is not closed at once. -/
theorem value_array (h : StartsWithout [']', '\x7d'] (skipBlanks cs)) :
    value (fuel + 1) ('[' :: cs) =
      (.seq .none (items fuel cs).1 (items fuel cs).2.isSome, (items fuel cs).2) := by
  rw [value, skipBlanks_of_not_isBlank (by rintro c ⟨⟩; decide)]
  simp only
  split
  next heq => exact absurd (h ']' (by rw [heq]; rfl)).2 (by decide)
  next => rfl

/-- An object that is not closed at once. -/
theorem value_object (h : StartsWithout [']', '\x7d'] (skipBlanks cs)) :
    value (fuel + 1) ('\x7b' :: cs) =
      (.map .none (entries fuel cs).1 (entries fuel cs).2.isSome, (entries fuel cs).2) := by
  rw [value, skipBlanks_of_not_isBlank (by rintro c ⟨⟩; decide)]
  simp only
  split
  next heq => exact absurd (h '\x7d' (by rw [heq]; rfl)).2 (by decide)
  next => rfl

/-- A collection that is closed at once. -/
theorem value_emptyArray {rest : List Char} (h : Blanks cs (']' :: rest)) :
    value (fuel + 1) ('[' :: cs) = (.seq .none [] true, some rest) := by
  rw [value, skipBlanks_of_not_isBlank (by rintro c ⟨⟩; decide)]
  simp only [h.skipBlanks_eq]
  rfl

theorem value_emptyObject {rest : List Char} (h : Blanks cs ('\x7d' :: rest)) :
    value (fuel + 1) ('\x7b' :: cs) = (.map .none [] true, some rest) := by
  rw [value, skipBlanks_of_not_isBlank (by rintro c ⟨⟩; decide)]
  simp only [h.skipBlanks_eq]
  rfl

/-- An item with others behind it. -/
theorem items_of_more {t : Tree Atom} {rest rest' : List Char}
    (hvalue : value fuel cs = (t, some rest)) (hnext : next ']' rest = .more rest') :
    items (fuel + 1) cs = (t :: (items fuel rest').1, (items fuel rest').2) := by
  rw [items, hvalue]
  simp only [hnext]

/-- The last item. -/
theorem items_of_closed {t : Tree Atom} {rest rest' : List Char}
    (hvalue : value fuel cs = (t, some rest)) (hnext : next ']' rest = .closed rest') :
    items (fuel + 1) cs = ([t], some rest') := by
  rw [items, hvalue]
  simp only [hnext]

/-- The key of an entry and the colon behind it. -/
theorem SpellsKey.entries_eq {ds : List Char} {k : String} (h : SpellsKey cs k ds) :
    entries (fuel + 1) cs =
      match value fuel ds with
      | (t, none) => ([(.scalar (.text k), t)], none)
      | (t, some rest) =>
          match next '\x7d' rest with
          | .wrong => ([(.scalar (.text k), t)], none)
          | .closed rest => ([(.scalar (.text k), t)], some rest)
          | .more rest =>
              ((.scalar (.text k), t) :: (entries fuel rest).1, (entries fuel rest).2) := by
  obtain ⟨before, key, after⟩ := h
  rw [entries, before.skipBlanks_eq, skipBlanks_of_not_isBlank (by rintro c ⟨⟩; decide)]
  simp only [quotedText, key.unquote?_eq]
  rw [after.skipBlanks_eq, skipBlanks_of_not_isBlank (by rintro c ⟨⟩; decide)]
  rfl

/-- An entry with others behind it. -/
theorem entries_of_more {t : Tree Atom} {k : String} {ds rest rest' : List Char}
    (hkey : SpellsKey cs k ds) (hvalue : value fuel ds = (t, some rest))
    (hnext : next '\x7d' rest = .more rest') :
    entries (fuel + 1) cs =
      ((.scalar (.text k), t) :: (entries fuel rest').1, (entries fuel rest').2) := by
  rw [hkey.entries_eq, hvalue]
  simp only [hnext]

/-- The last entry. -/
theorem entries_of_closed {t : Tree Atom} {k : String} {ds rest rest' : List Char}
    (hkey : SpellsKey cs k ds) (hvalue : value fuel ds = (t, some rest))
    (hnext : next '\x7d' rest = .closed rest') :
    entries (fuel + 1) cs = ([(.scalar (.text k), t)], some rest') := by
  rw [hkey.entries_eq, hvalue]
  simp only [hnext]

end

theorem value_text {cs rest : List Char} {s : String} (h : SpellsText cs s.toList rest)
    (fuel : Nat) : value (fuel + 1) ('"' :: cs) = (.scalar (.text s), some rest) := by
  rw [value_atom fuel (by rintro c ⟨⟩; decide), atom, if_pos rfl, quotedText, h.unquote?_eq]

/-! ### Numbers -/

theorem ne_of_sign_or_digit {c d : Char} (hc : c = '-' ∨ Digits.isDigit 10 c = true)
    (hd : d ≠ '-' ∧ Digits.isDigit 10 d = false) : c ≠ d := by
  rintro rfl
  obtain rfl | hc := hc
  · exact hd.1 rfl
  · exact absurd hc (by rw [hd.2]; decide)

namespace Literal

variable (l : Literal)

theorem length_chars_pos : 0 < l.chars.length := by
  obtain ⟨c, cs, hcons, -⟩ := l.exists_chars_eq_cons
  rw [hcons]
  exact Nat.succ_pos _

theorem startsWithout_append (rest : List Char) :
    StartsWithout ['[', ']', '\x7b', '\x7d'] (l.chars ++ rest) := by
  obtain ⟨c, cs, hcons, hc⟩ := l.exists_chars_eq_cons
  rw [hcons]
  rintro d ⟨⟩
  have hne {d : Char} := ne_of_sign_or_digit (d := d) hc
  constructor
  · simp only [isBlank, Bool.or_eq_false_iff, beq_eq_false_iff_ne]
    exact ⟨⟨⟨hne (by decide), hne (by decide)⟩, hne (by decide)⟩, hne (by decide)⟩
  · simp only [List.mem_cons, List.not_mem_nil, or_false, not_or]
    exact ⟨hne (by decide), hne (by decide), hne (by decide), hne (by decide)⟩

/-- **A number is read wherever it stands.** -/
theorem value_append {rest : List Char} (h : EndsNumber rest) (fuel : Nat) :
    value (fuel + 1) (l.chars ++ rest) = (l.tree, some rest) := by
  have hnumber : numberAtom (l.chars ++ rest) = (l.tree, some rest) := by
    rw [numberAtom, l.numeral?_append h]
    rfl
  rw [value_atom fuel (l.startsWithout_append rest)]
  obtain ⟨c, cs, hcons, hc⟩ := l.exists_chars_eq_cons
  have hne {d : Char} := ne_of_sign_or_digit (d := d) hc
  rw [hcons, List.cons_append] at hnumber
  rw [hcons, List.cons_append, atom, if_neg (hne (by decide)), if_neg (hne (by decide)),
    if_neg (hne (by decide)), if_neg (hne (by decide)), if_pos hc, hnumber]

end Literal

/-! ### Values -/

namespace Wide

mutual

/-- What denotes a value takes at least one character. -/
theorem Spells.length_lt {cs rest : List Char} {v : Wide} :
    Spells cs v rest → rest.length < cs.length
  | .null rest => by
      rw [List.length_append]
      exact Nat.lt_add_of_pos_left (by decide)
  | .bool b rest => by
      rw [List.length_append]
      exact Nat.lt_add_of_pos_left (by cases b <;> decide)
  | .number l rest => by
      rw [List.length_append]
      exact Nat.lt_add_of_pos_left l.length_chars_pos
  | .text h => Nat.lt_succ_of_lt h.length_lt
  | .emptyArray h => Nat.lt_succ_of_lt h.length_le
  | .array h => Nat.lt_succ_of_lt h.length_lt
  | .emptyObject h => Nat.lt_succ_of_lt h.length_le
  | .object h => Nat.lt_succ_of_lt h.length_lt

theorem SpellsItems.length_lt {cs rest : List Char} {vs : List Wide} :
    SpellsItems cs vs rest → rest.length < cs.length
  | .last before h after =>
      Nat.lt_of_lt_of_le (Nat.lt_trans after.length_le h.length_lt) before.length_le
  | .more before h after tail =>
      Nat.lt_of_lt_of_le (Nat.lt_trans tail.length_lt (Nat.lt_trans after.length_le h.length_lt))
        before.length_le

theorem SpellsEntries.length_lt {cs rest : List Char} {vs : List (String × Wide)} :
    SpellsEntries cs vs rest → rest.length < cs.length
  | .last key before h after =>
      Nat.lt_trans (Nat.lt_of_lt_of_le (Nat.lt_trans after.length_le h.length_lt) before.length_le)
        key.length_lt
  | .more key before h after tail =>
      Nat.lt_trans (Nat.lt_of_lt_of_le (Nat.lt_trans tail.length_lt
        (Nat.lt_trans after.length_le h.length_lt)) before.length_le) key.length_lt

end

/-- What denotes a value starts with neither a blank nor a closing bracket. -/
theorem Spells.startsWithout {cs rest : List Char} {v : Wide} (h : Spells cs v rest) :
    StartsWithout [']', '\x7d'] cs := by
  cases h with
  | number l =>
      intro c hc
      obtain ⟨hblank, hnot⟩ := l.startsWithout_append rest c hc
      refine ⟨hblank, fun hmem => hnot ?_⟩
      simp only [List.mem_cons, List.not_mem_nil, or_false] at hmem ⊢
      obtain h | h := hmem
      · exact Or.inr (Or.inl h)
      · exact Or.inr (Or.inr (Or.inr h))
  | bool b => cases b <;> (rintro c ⟨⟩; decide)
  | null => rintro c ⟨⟩; decide
  | text => rintro c ⟨⟩; decide
  | emptyArray => rintro c ⟨⟩; decide
  | array => rintro c ⟨⟩; decide
  | emptyObject => rintro c ⟨⟩; decide
  | object => rintro c ⟨⟩; decide

/-- The first item does not start with the bracket that would close the array at once. -/
theorem SpellsItems.startsWithout {cs rest : List Char} {vs : List Wide}
    (h : SpellsItems cs vs rest) : StartsWithout [']', '\x7d'] (skipBlanks cs) := by
  cases h with
  | last before h after =>
      rw [before.skipBlanks_eq, skipBlanks_of_not_isBlank h.startsWithout.not_isBlank]
      exact h.startsWithout
  | more before h after tail =>
      rw [before.skipBlanks_eq, skipBlanks_of_not_isBlank h.startsWithout.not_isBlank]
      exact h.startsWithout

theorem SpellsEntries.startsWithout {cs rest : List Char} {vs : List (String × Wide)}
    (h : SpellsEntries cs vs rest) : StartsWithout [']', '\x7d'] (skipBlanks cs) := by
  obtain ⟨ds, hds⟩ : ∃ ds, skipBlanks cs = '"' :: ds := by
    cases h with
    | last key => exact key.exists_skipBlanks_eq
    | more key => exact key.exists_skipBlanks_eq
  rw [hds]
  rintro c ⟨⟩
  decide

mutual

/-- **What denotes a value is read as its tree**, and what stands behind it is left. -/
theorem Spells.value_eq {cs rest : List Char} {v : Wide} : Spells cs v rest → ∀ (fuel : Nat),
    EndsNumber rest → cs.length ≤ fuel + rest.length →
    value fuel cs = (v.tree, some rest)
  | h, 0, _, hfuel => by
      -- Without fuel there would be no character to denote the value.
      have := h.length_lt
      omega
  | .null rest, fuel + 1, _, _ => value_atom fuel (by rintro c ⟨⟩; decide)
  | .bool b rest, fuel + 1, _, _ => by
      cases b <;> exact value_atom fuel (by rintro c ⟨⟩; decide)
  | .number l rest, fuel + 1, hrest, _ => l.value_append hrest fuel
  | .text h, fuel + 1, _, _ => value_text h fuel
  | .emptyArray h, fuel + 1, _, _ => value_emptyArray fuel h
  | .emptyObject h, fuel + 1, _, _ => value_emptyObject fuel h
  | .array h, fuel + 1, _, hfuel => by
      rw [List.length_cons] at hfuel
      rw [value_array fuel h.startsWithout, h.items_eq fuel (by omega), tree]
      rfl
  | .object h, fuel + 1, _, hfuel => by
      rw [List.length_cons] at hfuel
      rw [value_object fuel h.startsWithout, h.entries_eq fuel (by omega), tree]
      rfl

/-- Items are read up to the closing bracket. -/
theorem SpellsItems.items_eq {cs rest : List Char} {vs : List Wide} :
    SpellsItems cs vs rest → ∀ (fuel : Nat), cs.length ≤ fuel + rest.length →
    items fuel cs = (itemTrees vs, some rest)
  | h, 0, hfuel => by
      have := h.length_lt
      omega
  | .last before h after, fuel + 1, hfuel => by
      have hbefore := before.length_le
      have hafter := after.length_le
      rw [List.length_cons] at hafter
      have hvalue := h.value_eq fuel
        (after.endsNumber (endsNumber_cons (by decide) _)) (by omega)
      rw [← before.value_eq fuel] at hvalue
      exact items_of_closed fuel hvalue (after.next_eq ']')
  | .more before h after tail, fuel + 1, hfuel => by
      have hbefore := before.length_le
      have hlength := h.length_lt
      have hafter := after.length_le
      have htail := tail.length_lt
      rw [List.length_cons] at hafter
      have hvalue := h.value_eq fuel
        (after.endsNumber (endsNumber_cons (by decide) _)) (by omega)
      rw [← before.value_eq fuel] at hvalue
      -- The comma pays for the step to the further items.
      rw [items_of_more fuel hvalue (after.next_eq ']'), tail.items_eq fuel (by omega),
        itemTrees]

/-- Entries are read up to the closing bracket. -/
theorem SpellsEntries.entries_eq {cs rest : List Char} {es : List (String × Wide)} :
    SpellsEntries cs es rest → ∀ (fuel : Nat), cs.length ≤ fuel + rest.length →
    entries fuel cs = (entryTrees es, some rest)
  | h, 0, hfuel => by
      have := h.length_lt
      omega
  | .last key before h after, fuel + 1, hfuel => by
      have hkey := key.length_lt
      have hbefore := before.length_le
      have hafter := after.length_le
      rw [List.length_cons] at hafter
      have hvalue := h.value_eq fuel
        (after.endsNumber (endsNumber_cons (by decide) _)) (by omega)
      rw [← before.value_eq fuel] at hvalue
      exact entries_of_closed fuel key hvalue (after.next_eq '\x7d')
  | .more key before h after tail, fuel + 1, hfuel => by
      have hkey := key.length_lt
      have hbefore := before.length_le
      have hlength := h.length_lt
      have hafter := after.length_le
      have htail := tail.length_lt
      rw [List.length_cons] at hafter
      have hvalue := h.value_eq fuel
        (after.endsNumber (endsNumber_cons (by decide) _)) (by omega)
      rw [← before.value_eq fuel] at hvalue
      rw [entries_of_more fuel key hvalue (after.next_eq '\x7d'),
        tail.entries_eq fuel (by omega), entryTrees]

end

/-- **A text that denotes a value is read as its tree**, as far down as is read. -/
theorem document_of_isSpelledBy {v : Wide} {s : String} (h : v.IsSpelledBy s) (u : Uses) :
    document u s = ⟨limit deepest u v.tree, true⟩ := by
  obtain ⟨before, h, after⟩ := h
  have hlength := before.length_le
  have hread := h.value_eq (s.toList.length + 1) (after.endsNumber endsNumber_nil) (by omega)
  rw [← before.value_eq] at hread
  rw [document, hread]
  simp only [Option.any_some, after.skipBlanks_eq]
  rfl

end Wide

end Json

end CaptureConfig

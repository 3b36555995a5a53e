/-
**What a text of attributes denotes.**

The notation is told by relations between a text, what its front denotes, and what stands behind that
front: the key of an entry with the sign behind it, the mark between two entries, values, and the
items and entries of collections.  A body is a list of attributes, each in a line of its own.  The
relations say nothing about how a text is read.  Keys are names, and an object holds each of them once.

Main definitions:

* `Hcl.Spells` — **the values that the front of a text denotes**;
* `Hcl.SpellsBody` — the attributes that a whole text denotes;
* `Hcl.IsSpelledBy` — the values that a whole text denotes as its attributes;
* `Hcl.IsSayable` — the values that the notation has texts for;
* `Hcl.StartsPart` — texts with something else in front than what stands around values and keys.

Main results:

* `Hcl.Spells.startsPart`, `Hcl.SpellsKey.startsPart` — what values and keys begin with;
* `Hcl.Spells.length_lt` — a value takes part of the text.
-/

import CaptureConfig.Json.Printer
import CaptureConfig.Proofs.Hcl.Blank
import CaptureConfig.Proofs.Hcl.Quoted
import CaptureConfig.Proofs.Number.Digits

set_option relaxedAutoImplicit false
set_option autoImplicit false

namespace CaptureConfig

namespace Hcl

/-! ### The notation -/

/-- A break at the front of a text, and what stands behind it. -/
inductive Break : List Char → List Char → Prop
  | newline (rest : List Char) : Break ('\n' :: rest) rest
  /-- A return in front of the break belongs to it. -/
  | returned (rest : List Char) : Break ('\r' :: '\n' :: rest) rest

/-- The key of an entry and the sign behind it, with blanks around the sign. -/
inductive SpellsKey : List Char → String → List Char → Prop
  | intro {ds es rest : List Char} {k : String} (before : Blanks false ds ('=' :: es))
      (after : Blanks false es rest) : SpellsKey (k.toList ++ ds) k rest

/-- The mark behind an entry: a comma, or the end of the line. -/
inductive Separates : List Char → List Char → Prop
  | comma (rest : List Char) : Separates (',' :: rest) rest
  | lineBreak {cs rest : List Char} (h : Break cs rest) : Separates cs rest

mutual

/-- **The values that the front of a text denotes**: the text, the value, and what stands behind
it. -/
inductive Spells : List Char → Json → List Char → Prop
  | null (rest : List Char) : Spells ("null".toList ++ rest) .null rest
  | bool (b : Bool) (rest : List Char) : Spells (Json.boolChars b ++ rest) (.bool b) rest
  | number (n : Nat) (rest : List Char) : Spells (Digits.ofNat n ++ rest) (.number n) rest
  | text {cs rest : List Char} {s : String} (h : SpellsText cs s.toList rest) :
      Spells ('"' :: cs) (.text s) rest
  | array {cs rest : List Char} {vs : List Json} (h : SpellsItems cs vs rest) :
      Spells ('[' :: cs) (.array vs) rest
  | object {cs rest : List Char} {es : List (String × Json)} (h : SpellsEntries cs es rest) :
      Spells ('\x7b' :: cs) (.object es) rest

/-- Items up to the closing bracket; the last one may have a comma behind it. -/
inductive SpellsItems : List Char → List Json → List Char → Prop
  /-- The bracket. -/
  | closed {cs rest : List Char} (h : Blanks true cs (']' :: rest)) : SpellsItems cs [] rest
  /-- The last item, and the bracket. -/
  | last {cs ds es rest : List Char} {v : Json} (before : Blanks true cs ds) (h : Spells ds v es)
      (after : Blanks true es (']' :: rest)) : SpellsItems cs [v] rest
  /-- An item, a comma, and further items. -/
  | more {cs ds es fs rest : List Char} {v : Json} {vs : List Json} (before : Blanks true cs ds)
      (h : Spells ds v es) (after : Blanks true es (',' :: fs)) (tail : SpellsItems fs vs rest) :
      SpellsItems cs (v :: vs) rest

/-- Entries up to the closing bracket. -/
inductive SpellsEntries : List Char → List (String × Json) → List Char → Prop
  /-- The bracket. -/
  | closed {cs rest : List Char} (h : Blanks true cs ('\x7d' :: rest)) : SpellsEntries cs [] rest
  /-- The last entry, and the bracket in the same line. -/
  | last {cs ds es fs rest : List Char} {k : String} {v : Json} (before : Blanks true cs ds)
      (key : SpellsKey ds k es) (h : Spells es v fs) (after : Blanks false fs ('\x7d' :: rest)) :
      SpellsEntries cs [(k, v)] rest
  /-- An entry, the mark behind it, and further entries. -/
  | more {cs ds es fs gs hs rest : List Char} {k : String} {v : Json} {vs : List (String × Json)}
      (before : Blanks true cs ds) (key : SpellsKey ds k es) (h : Spells es v fs)
      (after : Blanks false fs gs) (mark : Separates gs hs) (tail : SpellsEntries hs vs rest) :
      SpellsEntries cs ((k, v) :: vs) rest

end

/-- The end of a line, or of the text. -/
inductive EndsLine : List Char → List Char → Prop
  | ended {cs : List Char} (h : Blanks false cs []) : EndsLine cs []
  | lineBreak {cs ds rest : List Char} (h : Blanks false cs ds) (hbreak : Break ds rest) :
      EndsLine cs rest

/-- **The attributes that a whole text denotes**, each in a line of its own. -/
inductive SpellsBody : List Char → List (String × Json) → Prop
  | ended {cs : List Char} (h : Blanks true cs []) : SpellsBody cs []
  /-- An attribute, and further ones. -/
  | more {cs ds es fs gs : List Char} {k : String} {v : Json} {vs : List (String × Json)}
      (before : Blanks true cs ds) (key : SpellsKey ds k es) (h : Spells es v fs)
      (after : EndsLine fs gs) (tail : SpellsBody gs vs) : SpellsBody cs ((k, v) :: vs)

/-- **The values that a whole text denotes as its attributes.** -/
inductive IsSpelledBy : Json → String → Prop
  | intro {es : List (String × Json)} {s : String} (h : SpellsBody s.toList es) :
      IsSpelledBy (.object es) s

/-! ### Values that there are texts for -/

/-- A name that can be the key of an entry; in front of one that begins a loop it could not stand. -/
structure IsKey (k : String) : Prop where
  isName : isName k.toList = true
  ne_for : k ≠ "for"

mutual

/-- **The values that the notation has texts for**: their numbers are not negative and fit 64 bits,
and the keys of their objects are distinct names. -/
def IsSayable : Json → Prop
  | .number i => 0 ≤ i ∧ i < (Nat.pow 2 64 : Int)
  | .array items => ItemsAreSayable items
  | .object entries => (entries.map Prod.fst).Nodup ∧ EntriesAreSayable entries
  | _ => True

/-- There are texts for all items. -/
def ItemsAreSayable : List Json → Prop
  | [] => True
  | v :: rest => IsSayable v ∧ ItemsAreSayable rest

/-- There are texts for all entries. -/
def EntriesAreSayable : List (String × Json) → Prop
  | [] => True
  | (k, v) :: rest => IsKey k ∧ IsSayable v ∧ EntriesAreSayable rest

end

/-! ### What values and keys begin with -/

/-- The characters that stand before, between or behind values and keys. -/
def marks : List Char := [' ', '\t', '\n', '\r', '/', '#', '=', '!', '-', ']', '\x7d']

/-- Another character than these is in front. -/
def StartsPart (cs : List Char) : Prop := ∃ c ds, cs = c :: ds ∧ c ∉ marks

/-- A character of a class without marks is no mark. -/
theorem not_mem_marks {p : Char → Bool} (hp : marks.all (! p ·) = true) {c : Char}
    (hc : p c = true) : c ∉ marks := by
  intro hmem
  have hnot := List.all_eq_true.1 hp c hmem
  rw [hc] at hnot
  cases hnot

section

variable {cs ds rest : List Char} {k : String} {v : Json}

theorem StartsPart.startsClear (h : StartsPart cs) (acrossLines : Bool) :
    StartsClear acrossLines cs := by
  obtain ⟨c, ds, rfl, hmark⟩ := h
  rintro c ⟨⟩
  refine ⟨?_, ?_, ?_⟩
  · rw [Bool.eq_false_iff, Ne, isBlank_iff]
    rintro ((rfl | rfl) | ⟨-, rfl | rfl⟩) <;> exact hmark (by decide)
  · rintro rfl
    exact hmark (by decide)
  · rintro rfl
    exact hmark (by decide)

/-- A value begins with a bracket, a quote, a digit or one of three words. -/
theorem Spells.startsPart (h : Spells cs v rest) : StartsPart cs := by
  cases h with
  | null => exact ⟨_, _, rfl, by decide⟩
  | bool b => cases b <;> exact ⟨_, _, rfl, by decide⟩
  | number n =>
      obtain ⟨d, ds, hcons, hd⟩ := Digits.exists_ofNat_eq_cons n
      rw [hcons]
      exact ⟨d, _, rfl, not_mem_marks (by decide) hd⟩
  | text => exact ⟨_, _, rfl, by decide⟩
  | array => exact ⟨_, _, rfl, by decide⟩
  | object => exact ⟨_, _, rfl, by decide⟩

/-- A key begins with the first character of a name. -/
theorem SpellsKey.startsPart (h : SpellsKey cs k rest) (hk : IsKey k) : StartsPart cs := by
  have hname := hk.isName
  obtain ⟨before, after⟩ := h
  cases hchars : k.toList with
  | nil =>
      rw [hchars] at hname
      cases hname
  | cons d ds =>
      rw [hchars] at hname
      exact ⟨d, _, rfl, not_mem_marks (by decide) (Bool.and_eq_true_iff.1 hname).1⟩

/-! ### How much values and keys take -/

theorem SpellsKey.length_lt (h : SpellsKey cs k rest) : rest.length < cs.length := by
  obtain ⟨before, after⟩ := h
  have hbefore := before.length_le
  have hafter := after.length_le
  simp only [List.length_cons, List.length_append] at hbefore ⊢
  omega

theorem Separates.length_lt (h : Separates cs rest) : rest.length < cs.length := by
  cases h with
  | comma => exact Nat.lt_succ_self _
  | lineBreak h =>
      cases h with
      | newline => exact Nat.lt_succ_self _
      | returned => exact Nat.lt_succ_of_lt (Nat.lt_succ_self _)

end

theorem EndsLine.length_le {cs rest : List Char} (h : EndsLine cs rest) :
    rest.length ≤ cs.length := by
  cases h with
  | ended => exact Nat.zero_le _
  | lineBreak h hbreak =>
      exact Nat.le_trans (Nat.le_of_lt (Separates.lineBreak hbreak).length_lt) h.length_le

mutual

theorem Spells.length_lt {cs rest : List Char} {v : Json} :
    Spells cs v rest → rest.length < cs.length
  | .null rest => by
      simp only [List.length_append]
      exact Nat.lt_add_of_pos_left (by decide)
  | .bool b rest => by
      rw [List.length_append]
      exact Nat.lt_add_of_pos_left (by cases b <;> decide)
  | .number n rest => by
      rw [List.length_append]
      exact Nat.lt_add_of_pos_left (List.length_pos_iff.2 (Digits.ofNat_ne_nil n))
  | .text h => Nat.lt_succ_of_lt h.length_lt
  | .array h => Nat.lt_succ_of_lt h.length_lt
  | .object h => Nat.lt_succ_of_lt h.length_lt

theorem SpellsItems.length_lt {cs rest : List Char} {vs : List Json} :
    SpellsItems cs vs rest → rest.length < cs.length
  | .closed h => h.length_le
  | .last before h after => by
      have hbefore := before.length_le
      have hvalue := h.length_lt
      have hafter := after.length_le
      simp only [List.length_cons] at hafter
      omega
  | .more before h after tail => by
      have hbefore := before.length_le
      have hvalue := h.length_lt
      have hafter := after.length_le
      have htail := tail.length_lt
      simp only [List.length_cons] at hafter
      omega

theorem SpellsEntries.length_lt {cs rest : List Char} {es : List (String × Json)} :
    SpellsEntries cs es rest → rest.length < cs.length
  | .closed h => h.length_le
  | .last before key h after => by
      have hbefore := before.length_le
      have hkey := key.length_lt
      have hvalue := h.length_lt
      have hafter := after.length_le
      simp only [List.length_cons] at hafter
      omega
  | .more before key h after mark tail => by
      have hbefore := before.length_le
      have hkey := key.length_lt
      have hvalue := h.length_lt
      have hafter := after.length_le
      have hmark := mark.length_lt
      have htail := tail.length_lt
      omega

end

end Hcl

end CaptureConfig

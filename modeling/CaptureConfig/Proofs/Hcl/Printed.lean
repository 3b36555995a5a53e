/-
**The printed form of attributes.**

Attributes are printed in lines of their own, and so are the entries of objects, two spaces further
in for each level; the items of an array stand in one line.  Each entry is printed with the break in
front of it, which is at once the mark behind the entry before.

Main definitions:

* `Hcl.print` — the printed form of the attributes of an object.

Main results:

* `Hcl.spells_chars_append` — a printed value denotes that value, whatever stands behind it;
* `Hcl.isSpelledBy_print` — **the printed form of an object denotes it**.
-/

import CaptureConfig.Proofs.Hcl.Notation

set_option relaxedAutoImplicit false
set_option autoImplicit false

namespace CaptureConfig

namespace Hcl

open Json

/-! ### Printing -/

/-- A text between quotes. -/
def quoted (s : String) : List Char :=
  '"' :: ((Expr.doubled s.toList).flatMap Expr.quotedChar ++ ['"'])

/-- A key and the sign behind it. -/
def assigned (k : String) : List Char := k.toList ++ [' ', '=', ' ']

mutual

/-- The characters of a value that stands `depth` levels in. -/
def chars (depth : Nat) : Json → List Char
  | .null => "null".toList
  | .bool b => boolChars b
  | .number i => Digits.ofInt i
  | .text s => quoted s
  | .array [] => ['[', ']']
  | .array (v :: rest) => '[' :: (chars depth v ++ itemChars depth rest ++ [']'])
  | .object entries => '\x7b' :: (entryChars (depth + 1) entries ++ lineBreak depth ++ ['\x7d'])

/-- The characters of the items behind the first. -/
def itemChars (depth : Nat) : List Json → List Char
  | [] => []
  | v :: rest => ',' :: ' ' :: (chars depth v ++ itemChars depth rest)

/-- The characters of entries, each with the break in front of it. -/
def entryChars (depth : Nat) : List (String × Json) → List Char
  | [] => []
  | (k, v) :: rest => lineBreak depth ++ assigned k ++ chars depth v ++ entryChars depth rest

end

/-- The characters of attributes. -/
def bodyChars : List (String × Json) → List Char
  | [] => []
  | (k, v) :: rest => assigned k ++ chars 0 v ++ '\n' :: bodyChars rest

/-- **The printed form of the attributes of an object.** -/
def print (entries : List (String × Json)) : String := String.ofList (bodyChars entries)

/-! ### Parts -/

theorem blanks_replicate_append (n : Nat) (cs : List Char) :
    Blanks true (List.replicate n ' ' ++ cs) cs := by
  induction n with
  | zero => exact .done cs
  | succ n ih => exact .more (by decide) ih

theorem blanks_space (acrossLines : Bool) (cs : List Char) : Blanks acrossLines (' ' :: cs) cs :=
  .more (by cases acrossLines <;> decide) (.done cs)

theorem spellsKey_assigned_append (k : String) (rest : List Char) :
    SpellsKey (assigned k ++ rest) k rest := by
  rw [assigned, List.append_assoc]
  exact ⟨blanks_space false _, blanks_space false _⟩

theorem Blanks.trans {acrossLines : Bool} {cs ds rest : List Char} (h : Blanks acrossLines cs ds)
    (h' : Blanks acrossLines ds rest) : Blanks acrossLines cs rest := by
  induction h with
  | done => exact h'
  | more hc _ ih => exact .more hc (ih h')

/-- Blanks in front of items make no difference. -/
theorem SpellsItems.behind {cs ds rest : List Char} {vs : List Json}
    (hblanks : Blanks true cs ds) (h : SpellsItems ds vs rest) : SpellsItems cs vs rest := by
  cases h with
  | closed h => exact .closed (hblanks.trans h)
  | last before h after => exact .last (hblanks.trans before) h after
  | more before h after tail => exact .more (hblanks.trans before) h after tail

/-- Blanks in front of entries make no difference. -/
theorem SpellsEntries.behind {cs ds rest : List Char} {es : List (String × Json)}
    (hblanks : Blanks true cs ds) (h : SpellsEntries ds es rest) : SpellsEntries cs es rest := by
  cases h with
  | closed h => exact .closed (hblanks.trans h)
  | last before key h after => exact .last (hblanks.trans before) key h after
  | more before key h after mark tail => exact .more (hblanks.trans before) key h after mark tail

/-! ### Values -/

mutual

/-- **A printed value denotes that value**, whatever stands behind it. -/
theorem spells_chars_append : ∀ (v : Json) (depth : Nat) (rest : List Char), IsSayable v →
    Spells (chars depth v ++ rest) v rest
  | .null, _, rest, _ => .null rest
  | .bool b, _, rest, _ => by
      rw [chars]
      exact .bool b rest
  | .number i, _, rest, hv => by
      obtain ⟨n, rfl⟩ := Int.eq_ofNat_of_zero_le hv.1
      rw [chars]
      exact .number n rest
  | .text s, _, rest, _ => by
      rw [chars, quoted, List.cons_append, List.append_assoc]
      exact .text (spellsText_doubled s.toList rest)
  | .array [], _, rest, _ => .array (.closed (.done _))
  | .array (v :: vs), depth, rest, hv => by
      have hitems := spellsItems_itemChars_append vs v depth rest hv
        fun rest => spells_chars_append v depth rest hv.1
      rw [chars, List.cons_append, List.append_assoc, List.append_assoc]
      exact .array hitems
  | .object es, depth, rest, hv => by
      obtain ⟨cs, hcs, hentries⟩ := exists_entryChars_append es (depth + 1) depth rest hv.2
      rw [chars, List.cons_append, List.append_assoc, List.append_assoc]
      exact .object (hcs ▸ hentries.behind (.more (by decide) (.done cs)))

/-- Printed items up to the closing bracket; the first of them is told of before. -/
theorem spellsItems_itemChars_append : ∀ (vs : List Json) (v : Json) (depth : Nat)
    (rest : List Char), ItemsAreSayable (v :: vs) →
    (∀ rest, Spells (chars depth v ++ rest) v rest) →
    SpellsItems (chars depth v ++ (itemChars depth vs ++ ']' :: rest)) (v :: vs) rest
  | [], _, _, _, _, hv => .last (.done _) (hv _) (.done _)
  | w :: vs, _, depth, rest, hvs, hv => by
      have htail := spellsItems_itemChars_append vs w depth rest hvs.2
        fun rest => spells_chars_append w depth rest hvs.2.1
      rw [itemChars, List.cons_append, List.cons_append, List.append_assoc]
      exact .more (.done _) (hv _) (.done _) (htail.behind (blanks_space true _))

/-- Printed entries up to the closing bracket begin with a break. -/
theorem exists_entryChars_append : ∀ (es : List (String × Json)) (depth d : Nat)
    (rest : List Char), EntriesAreSayable es →
    ∃ cs, entryChars depth es ++ (lineBreak d ++ '\x7d' :: rest) = '\n' :: cs ∧
      SpellsEntries cs es rest
  | [], _, d, rest, _ => ⟨_, rfl, .closed (blanks_replicate_append _ _)⟩
  | (k, v) :: es, depth, d, rest, hes => by
      obtain ⟨cs, hcs, htail⟩ := exists_entryChars_append es depth d rest hes.2.2
      have hvalue := spells_chars_append v depth ('\n' :: cs) hes.2.1
      refine ⟨List.replicate (2 * depth) ' ' ++ (assigned k ++ (chars depth v ++ '\n' :: cs)), ?_,
        .more (blanks_replicate_append _ _) (spellsKey_assigned_append k _) hvalue (.done _)
          (.lineBreak (.newline cs)) htail⟩
      rw [entryChars, List.append_assoc, List.append_assoc, List.append_assoc, hcs]
      rfl

end

/-- Printed attributes denote their entries. -/
theorem spellsBody_bodyChars : ∀ es : List (String × Json), EntriesAreSayable es →
    SpellsBody (bodyChars es) es
  | [], _ => .ended (.done [])
  | (k, v) :: es, hes => by
      have hvalue := spells_chars_append v 0 ('\n' :: bodyChars es) hes.2.1
      rw [bodyChars, List.append_assoc]
      exact .more (.done _) (spellsKey_assigned_append k _) hvalue
        (.lineBreak (.done _) (.newline _)) (spellsBody_bodyChars es hes.2.2)

/-- **The printed form of an object denotes it.** -/
theorem isSpelledBy_print {es : List (String × Json)} (h : IsSayable (.object es)) :
    IsSpelledBy (.object es) (print es) := by
  refine ⟨?_⟩
  rw [print, String.toList_ofList]
  exact spellsBody_bodyChars es h.2

end Hcl

end CaptureConfig

/-
**The printed form denotes what is printed.**

A value is printed in lines, each item and each entry in one of its own, or in one line without any
blanks.  The breaks that are printed are blanks, and each item and each entry is printed with the comma
behind it or the break before the closing bracket.  The induction is on the value.

Main definitions:

* `Json.Spacing` — in lines, or without blanks;
* `Json.Wide.print` — the printed form of a value with numbers of any kind.

Main results:

* `Json.Wide.spells_chars_append` — a printed value denotes that value, whatever stands behind it;
* `Json.Wide.isSpelledBy_print`, `Json.isSpelledBy_print` — **the printed form of a value denotes it**.
-/

import CaptureConfig.Proofs.Json.Grammar

set_option relaxedAutoImplicit false
set_option autoImplicit false

namespace CaptureConfig

namespace Json

/-! ### Spacing -/

/-- How much room is left between the parts of a value. -/
inductive Spacing where
  /-- Each item and each entry in a line of its own. -/
  | lines
  /-- No blanks at all. -/
  | tight
  deriving DecidableEq, Repr

namespace Spacing

/-- What stands before an item, an entry or a closing bracket. -/
def gap : Spacing → (depth : Nat) → List Char
  | lines, depth => lineBreak depth
  | tight, _ => []

/-- What stands behind a key. -/
def colon : Spacing → List Char
  | lines => [':', ' ']
  | tight => [':']

end Spacing

/-! ### Values with numbers of any kind -/

namespace Wide

mutual

/-- The characters of a value that stands `depth` levels in. -/
def chars (sp : Spacing) (depth : Nat) : Wide → List Char
  | .null => "null".toList
  | .bool b => boolChars b
  | .number l => l.chars
  | .text s => quoted s
  | .array [] => ['[', ']']
  | .array (v :: rest) =>
      '[' :: (sp.gap (depth + 1) ++ chars sp (depth + 1) v ++ itemChars sp (depth + 1) rest ++
        sp.gap depth ++ [']'])
  | .object [] => ['\x7b', '\x7d']
  | .object ((k, v) :: rest) =>
      '\x7b' :: (sp.gap (depth + 1) ++ quoted k ++ sp.colon ++ chars sp (depth + 1) v ++
        entryChars sp (depth + 1) rest ++ sp.gap depth ++ ['\x7d'])

/-- The characters of the items behind the first. -/
def itemChars (sp : Spacing) (depth : Nat) : List Wide → List Char
  | [] => []
  | v :: rest => ',' :: (sp.gap depth ++ chars sp depth v ++ itemChars sp depth rest)

/-- The characters of the entries behind the first. -/
def entryChars (sp : Spacing) (depth : Nat) : List (String × Wide) → List Char
  | [] => []
  | (k, v) :: rest =>
      ',' :: (sp.gap depth ++ quoted k ++ sp.colon ++ chars sp depth v ++ entryChars sp depth rest)

end

/-- **The printed form of a value.** -/
def print (sp : Spacing) (v : Wide) : String := String.ofList (chars sp 0 v)

end Wide

/-! ### Blanks and texts -/

theorem blanks_replicate_append (n : Nat) (cs : List Char) :
    Blanks (List.replicate n ' ' ++ cs) cs := by
  induction n with
  | zero => exact .done cs
  | succ n ih => exact .more (by decide) ih

theorem Spacing.blanks_gap_append (sp : Spacing) (depth : Nat) (cs : List Char) :
    Blanks (sp.gap depth ++ cs) cs := by
  cases sp with
  | lines => exact .more (by decide) (blanks_replicate_append _ cs)
  | tight => exact .done cs

/-- Behind the colon there may be a space. -/
theorem Spacing.exists_colon_append (sp : Spacing) (cs : List Char) :
    ∃ ds, sp.colon ++ cs = ':' :: ds ∧ Blanks ds cs := by
  cases sp with
  | lines => exact ⟨' ' :: cs, rfl, .more (by decide) (.done cs)⟩
  | tight => exact ⟨cs, rfl, .done cs⟩

theorem quoted_append (s : String) (rest : List Char) :
    quoted s ++ rest = '"' :: (s.toList.flatMap escape ++ '"' :: rest) := by
  simp [quoted]

/-- A key stands behind a gap. -/
theorem spellsKey_quoted_append (sp : Spacing) (depth : Nat) (k : String) (rest : List Char) :
    SpellsKey (sp.gap depth ++ (quoted k ++ ':' :: rest)) k rest := by
  rw [quoted_append]
  exact ⟨sp.blanks_gap_append depth _, spellsText_flatMap_escape k.toList _, .done _⟩

/-! ### Printing -/

namespace Wide

variable (sp : Spacing)

mutual

/-- **A printed value denotes that value**, whatever stands behind it. -/
theorem spells_chars_append : ∀ (v : Wide) (depth : Nat) (rest : List Char),
    Spells (chars sp depth v ++ rest) v rest
  | .null, _, rest => .null rest
  | .bool b, _, rest => by
      rw [chars]
      exact .bool b rest
  | .number l, _, rest => by
      rw [chars]
      exact .number l rest
  | .text s, _, rest => by
      rw [chars, quoted_append]
      exact .text (spellsText_flatMap_escape s.toList rest)
  | .array [], _, rest => .emptyArray (.done _)
  | .object [], _, rest => .emptyObject (.done _)
  | .array (v :: vs), depth, rest => by
      have hitems := spellsItems_itemChars_append vs v (depth + 1) depth rest
        (spells_chars_append v (depth + 1))
      simp only [chars, List.cons_append, List.nil_append, List.append_assoc]
      exact .array hitems
  | .object ((k, v) :: es), depth, rest => by
      have hentries := spellsEntries_entryChars_append es k v (depth + 1) depth rest
        (spells_chars_append v (depth + 1))
      simp only [chars, List.cons_append, List.nil_append, List.append_assoc]
      exact .object hentries

/-- Printed items up to the closing bracket; the first of them is told of before. -/
theorem spellsItems_itemChars_append : ∀ (vs : List Wide) (v : Wide) (depth d : Nat)
    (rest : List Char), (∀ rest, Spells (chars sp depth v ++ rest) v rest) →
    SpellsItems (sp.gap depth ++ (chars sp depth v ++ (itemChars sp depth vs ++
      (sp.gap d ++ ']' :: rest)))) (v :: vs) rest
  | [], _, depth, d, _, hv =>
      .last (sp.blanks_gap_append depth _) (hv _) (sp.blanks_gap_append d _)
  | w :: vs, _, depth, d, rest, hv => by
      have htail := spellsItems_itemChars_append vs w depth d rest (spells_chars_append w depth)
      simp only [itemChars, List.cons_append, List.append_assoc]
      exact .more (sp.blanks_gap_append depth _) (hv _) (.done _) htail

/-- Printed entries up to the closing bracket; the value of the first is told of before. -/
theorem spellsEntries_entryChars_append : ∀ (es : List (String × Wide)) (k : String) (v : Wide)
    (depth d : Nat) (rest : List Char), (∀ rest, Spells (chars sp depth v ++ rest) v rest) →
    SpellsEntries (sp.gap depth ++ (quoted k ++ (sp.colon ++ (chars sp depth v ++
      (entryChars sp depth es ++ (sp.gap d ++ '\x7d' :: rest)))))) ((k, v) :: es) rest
  | [], k, v, depth, d, rest, hv => by
      obtain ⟨ds, hds, hblanks⟩ := sp.exists_colon_append (chars sp depth v ++
        (entryChars sp depth [] ++ (sp.gap d ++ '\x7d' :: rest)))
      rw [hds]
      exact .last (spellsKey_quoted_append sp depth k ds) hblanks (hv _)
        (sp.blanks_gap_append d _)
  | (l, w) :: es, k, v, depth, d, rest, hv => by
      obtain ⟨ds, hds, hblanks⟩ := sp.exists_colon_append (chars sp depth v ++
        (entryChars sp depth ((l, w) :: es) ++ (sp.gap d ++ '\x7d' :: rest)))
      have htail := spellsEntries_entryChars_append es l w depth d rest
        (spells_chars_append w depth)
      rw [hds]
      simp only [entryChars, List.cons_append, List.append_assoc] at hblanks
      exact .more (spellsKey_quoted_append sp depth k ds) hblanks (hv _) (.done _) htail

end

/-- **The printed form of a value denotes it.** -/
theorem isSpelledBy_print (v : Wide) : v.IsSpelledBy (v.print sp) := by
  have h := spells_chars_append sp v 0 []
  rw [List.append_nil] at h
  refine ⟨?_, h, .done []⟩
  rw [print, String.toList_ofList]
  exact .done _

end Wide

/-! ### Values with whole numbers -/

mutual

theorem chars_toWide : ∀ (v : Json) (depth : Nat), v.toWide.chars .lines depth = chars depth v
  | .null, _ => rfl
  | .bool _, _ => rfl
  | .number i, _ => Literal.chars_ofInt i
  | .text _, _ => rfl
  | .array [], _ => rfl
  | .array (v :: rest), depth => by
      rw [toWide, itemsToWide, Wide.chars, chars_toWide v, itemChars_itemsToWide rest, chars]
      rfl
  | .object [], _ => rfl
  | .object ((k, v) :: rest), depth => by
      rw [toWide, entriesToWide, Wide.chars, chars_toWide v, entryChars_entriesToWide rest, chars]
      rfl

theorem itemChars_itemsToWide : ∀ (items : List Json) (depth : Nat),
    Wide.itemChars .lines depth (itemsToWide items) = itemChars depth items
  | [], _ => rfl
  | v :: rest, depth => by
      rw [itemsToWide, Wide.itemChars, chars_toWide v, itemChars_itemsToWide rest, itemChars]
      rfl

theorem entryChars_entriesToWide : ∀ (entries : List (String × Json)) (depth : Nat),
    Wide.entryChars .lines depth (entriesToWide entries) = entryChars depth entries
  | [], _ => rfl
  | (k, v) :: rest, depth => by
      rw [entriesToWide, Wide.entryChars, chars_toWide v, entryChars_entriesToWide rest, entryChars]
      rfl

end

theorem print_toWide (v : Json) : v.toWide.print .lines = v.print := by
  rw [Wide.print, chars_toWide, print]

/-- **The printed form of a value denotes it.** -/
theorem isSpelledBy_print (v : Json) : v.IsSpelledBy v.print := by
  rw [isSpelledBy_iff, ← print_toWide]
  exact v.toWide.isSpelledBy_print .lines

end Json

end CaptureConfig

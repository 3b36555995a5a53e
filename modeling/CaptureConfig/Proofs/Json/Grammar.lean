/-
**Texts with whole numbers.**

What is printed holds no other numbers than whole ones.  The texts that denote such a value are those
that denote it among the values with numbers of any kind, and if its numbers fit 64 bits it is read as
the tree with these numbers.

Main definitions:

* `Json.Spells` — **the values that the front of a text denotes**;
* `Json.IsSpelledBy` — the values that a whole text denotes, with blanks around them;
* `Json.toWide` — a value among those with numbers of any kind;
* `Json.tree` — the tree that a value is read as;
* `Json.Fits` — the numbers of a value fit 64 bits.

Main results:

* `Json.spells_iff` — the texts of a value are its texts among all values;
* `Json.tree_ofInt`, `Json.tree_toWide` — **a number is read back**, and so is what holds it.
-/

import CaptureConfig.Proofs.Json.Notation

set_option relaxedAutoImplicit false
set_option autoImplicit false

namespace CaptureConfig

namespace Json

/-! ### The notation -/

mutual

/-- **The values that the front of a text denotes**: the text, the value, and what stands behind
it.  A number is written with its digits alone. -/
inductive Spells : List Char → Json → List Char → Prop
  | null (rest : List Char) : Spells ("null".toList ++ rest) .null rest
  | bool (b : Bool) (rest : List Char) : Spells (boolChars b ++ rest) (.bool b) rest
  | number (i : Int) (rest : List Char) : Spells (Digits.ofInt i ++ rest) (.number i) rest
  | text {cs rest : List Char} {s : String} (h : SpellsText cs s.toList rest) :
      Spells ('"' :: cs) (.text s) rest
  /-- An array without items. -/
  | emptyArray {cs rest : List Char} (h : Blanks cs (']' :: rest)) :
      Spells ('[' :: cs) (.array []) rest
  | array {cs rest : List Char} {vs : List Json} (h : SpellsItems cs vs rest) :
      Spells ('[' :: cs) (.array vs) rest
  /-- An object without entries. -/
  | emptyObject {cs rest : List Char} (h : Blanks cs ('\x7d' :: rest)) :
      Spells ('\x7b' :: cs) (.object []) rest
  | object {cs rest : List Char} {es : List (String × Json)} (h : SpellsEntries cs es rest) :
      Spells ('\x7b' :: cs) (.object es) rest

/-- Items up to the closing bracket. -/
inductive SpellsItems : List Char → List Json → List Char → Prop
  /-- The last item, and the bracket. -/
  | last {cs ds es rest : List Char} {v : Json} (before : Blanks cs ds) (h : Spells ds v es)
      (after : Blanks es (']' :: rest)) : SpellsItems cs [v] rest
  /-- An item, a comma, and further items. -/
  | more {cs ds es fs rest : List Char} {v : Json} {vs : List Json} (before : Blanks cs ds)
      (h : Spells ds v es) (after : Blanks es (',' :: fs)) (tail : SpellsItems fs vs rest) :
      SpellsItems cs (v :: vs) rest

/-- Entries up to the closing bracket. -/
inductive SpellsEntries : List Char → List (String × Json) → List Char → Prop
  /-- The last entry, and the bracket. -/
  | last {cs ds es fs rest : List Char} {k : String} {v : Json} (key : SpellsKey cs k ds)
      (before : Blanks ds es) (h : Spells es v fs) (after : Blanks fs ('\x7d' :: rest)) :
      SpellsEntries cs [(k, v)] rest
  /-- An entry, a comma, and further entries. -/
  | more {cs ds es fs gs rest : List Char} {k : String} {v : Json} {vs : List (String × Json)}
      (key : SpellsKey cs k ds) (before : Blanks ds es) (h : Spells es v fs)
      (after : Blanks fs (',' :: gs)) (tail : SpellsEntries gs vs rest) :
      SpellsEntries cs ((k, v) :: vs) rest

end

/-- **The values that a whole text denotes**, with blanks around them. -/
inductive IsSpelledBy (v : Json) (s : String) : Prop
  | intro {cs rest : List Char} (before : Blanks s.toList cs) (h : Spells cs v rest)
      (after : Blanks rest []) : IsSpelledBy v s

/-! ### Among all values -/

mutual

/-- **The value among those with numbers of any kind.** -/
def toWide : Json → Wide
  | .null => .null
  | .bool b => .bool b
  | .number i => .number (.ofInt i)
  | .text s => .text s
  | .array items => .array (itemsToWide items)
  | .object entries => .object (entriesToWide entries)

/-- The items among those with numbers of any kind. -/
def itemsToWide : List Json → List Wide
  | [] => []
  | v :: rest => v.toWide :: itemsToWide rest

/-- The entries among those with numbers of any kind. -/
def entriesToWide : List (String × Json) → List (String × Wide)
  | [] => []
  | (k, v) :: rest => (k, v.toWide) :: entriesToWide rest

end

mutual

theorem Spells.toWide {cs rest : List Char} {v : Json} :
    Spells cs v rest → Wide.Spells cs v.toWide rest
  | .null rest => .null rest
  | .bool b rest => .bool b rest
  | .number i rest => Literal.chars_ofInt i ▸ .number (.ofInt i) rest
  | .text h => .text h
  | .emptyArray h => .emptyArray h
  | .array h => .array h.toWide
  | .emptyObject h => .emptyObject h
  | .object h => .object h.toWide

theorem SpellsItems.toWide {cs rest : List Char} {vs : List Json} :
    SpellsItems cs vs rest → Wide.SpellsItems cs (itemsToWide vs) rest
  | .last before h after => .last before h.toWide after
  | .more before h after tail => .more before h.toWide after tail.toWide

theorem SpellsEntries.toWide {cs rest : List Char} {es : List (String × Json)} :
    SpellsEntries cs es rest → Wide.SpellsEntries cs (entriesToWide es) rest
  | .last key before h after => .last key before h.toWide after
  | .more key before h after tail => .more key before h.toWide after tail.toWide

end

mutual

theorem spells_of_toWide {cs rest : List Char} {w : Wide} :
    Wide.Spells cs w rest → ∀ v : Json, v.toWide = w → Spells cs v rest
  | .null rest, v, hv => by
      cases v <;> cases hv
      exact .null rest
  | .bool b rest, v, hv => by
      cases v <;> cases hv
      exact .bool _ rest
  | .number l rest, v, hv => by
      cases v <;> cases hv
      rw [Literal.chars_ofInt]
      exact .number _ rest
  | .text h, v, hv => by
      cases v <;> cases hv
      exact .text h
  | .emptyArray h, v, hv => by
      cases v with
      | array items =>
          cases items with
          | nil => exact .emptyArray h
          | cons => cases hv
      | _ => cases hv
  | .array h, v, hv => by
      cases v with
      | array items => exact .array (spellsItems_of_toWide h items (Wide.array.inj hv))
      | _ => cases hv
  | .emptyObject h, v, hv => by
      cases v with
      | object entries =>
          cases entries with
          | nil => exact .emptyObject h
          | cons => cases hv
      | _ => cases hv
  | .object h, v, hv => by
      cases v with
      | object entries => exact .object (spellsEntries_of_toWide h entries (Wide.object.inj hv))
      | _ => cases hv

theorem spellsItems_of_toWide {cs rest : List Char} {ws : List Wide} :
    Wide.SpellsItems cs ws rest → ∀ vs : List Json, itemsToWide vs = ws → SpellsItems cs vs rest
  | .last before h after, vs, hvs => by
      cases vs with
      | nil => cases hvs
      | cons v vs =>
          obtain ⟨hv, hvs⟩ := List.cons.inj hvs
          cases vs with
          | nil => exact .last before (spells_of_toWide h v hv) after
          | cons => cases hvs
  | .more before h after tail, vs, hvs => by
      cases vs with
      | nil => cases hvs
      | cons v vs =>
          obtain ⟨hv, hvs⟩ := List.cons.inj hvs
          exact .more before (spells_of_toWide h v hv) after (spellsItems_of_toWide tail vs hvs)

theorem spellsEntries_of_toWide {cs rest : List Char} {fs : List (String × Wide)} :
    Wide.SpellsEntries cs fs rest → ∀ es : List (String × Json), entriesToWide es = fs →
      SpellsEntries cs es rest
  | .last key before h after, es, hes => by
      cases es with
      | nil => cases hes
      | cons e es =>
          obtain ⟨k, v⟩ := e
          obtain ⟨he, htail⟩ := List.cons.inj hes
          obtain ⟨rfl, hv⟩ := Prod.mk.inj he
          cases es with
          | nil => exact .last key before (spells_of_toWide h v hv) after
          | cons => cases htail
  | .more key before h after tail, es, hes => by
      cases es with
      | nil => cases hes
      | cons e es =>
          obtain ⟨k, v⟩ := e
          obtain ⟨he, htail⟩ := List.cons.inj hes
          obtain ⟨rfl, hv⟩ := Prod.mk.inj he
          exact .more key before (spells_of_toWide h v hv) after
            (spellsEntries_of_toWide tail es htail)

end

/-- **The texts of a value are its texts among all values.** -/
theorem spells_iff {cs rest : List Char} {v : Json} :
    Spells cs v rest ↔ Wide.Spells cs v.toWide rest :=
  ⟨Spells.toWide, fun h => spells_of_toWide h v rfl⟩

theorem isSpelledBy_iff {v : Json} {s : String} : v.IsSpelledBy s ↔ v.toWide.IsSpelledBy s :=
  ⟨fun ⟨before, h, after⟩ => ⟨before, h.toWide, after⟩,
    fun ⟨before, h, after⟩ => ⟨before, spells_iff.2 h, after⟩⟩

/-! ### Numbers -/

/-- A number that fits 64 bits, with or without sign. -/
def FitsWord (i : Int) : Prop := -(Nat.pow 2 63 : Int) ≤ i ∧ i < (Nat.pow 2 64 : Int)

/-- A number that fits 64 bits is whole. -/
theorem int?_ofInt {i : Int} (h : FitsWord i) : (Literal.ofInt i).numeral.int? = some i := by
  cases i with
  | ofNat n =>
      have hn : n < Nat.pow 2 64 := Int.ofNat_lt.1 h.2
      simp [Literal.ofInt, Literal.ofNat, Literal.numeral, Numeral.int?, Numeral.isPlain, Digits.toNat_ofNat, hn]
  | negSucc n =>
      have hn : n + 1 ≤ Nat.pow 2 63 := by
        have := h.1
        rw [Int.negSucc_eq] at this
        omega
      simp [Literal.ofInt, Literal.ofNat, Literal.numeral, Numeral.int?, Numeral.isPlain, Digits.toNat_ofNat, hn, Int.negSucc_eq]

/-- A number that does not fit is none. -/
theorem int?_ofInt_eq_none {i : Int} (h : ¬ FitsWord i) : (Literal.ofInt i).numeral.int? = none := by
  cases i with
  | ofNat n =>
      have hn : ¬ n < Nat.pow 2 64 := by
        intro hn
        exact h ⟨Int.le_trans (by decide) (Int.natCast_nonneg n), Int.ofNat_lt.2 hn⟩
      simp [Literal.ofInt, Literal.ofNat, Literal.numeral, Numeral.int?, Numeral.isPlain, Digits.toNat_ofNat, hn]
  | negSucc n =>
      have hn : ¬ n + 1 ≤ Nat.pow 2 63 := by
        intro hn
        refine h ⟨?_, Int.lt_trans (Int.negSucc_lt_zero n) (by decide)⟩
        rw [Int.negSucc_eq]
        omega
      simp [Literal.ofInt, Literal.ofNat, Literal.numeral, Numeral.int?, Numeral.isPlain, Digits.toNat_ofNat, hn]

/-- **A number is read back.** -/
theorem tree_ofInt {i : Int} (h : FitsWord i) : (Literal.ofInt i).tree = .scalar (.int i) := by
  rw [Literal.tree, Numeral.value?, int?_ofInt h]
  rfl

/-! ### The tree of a value -/

mutual

/-- **The tree that a value is read as.** -/
def tree : Json → Tree Atom
  | .null => .scalar .null
  | .bool b => .scalar (.bool b)
  | .number i => .scalar (.int i)
  | .text s => .scalar (.text s)
  | .array items => .seq .none (itemTrees items) true
  | .object entries => .map .none (entryTrees entries) true

/-- The trees of items. -/
def itemTrees : List Json → List (Tree Atom)
  | [] => []
  | v :: rest => v.tree :: itemTrees rest

/-- The trees of entries. -/
def entryTrees : List (String × Json) → List (Tree Atom × Tree Atom)
  | [] => []
  | (k, v) :: rest => (.scalar (.text k), v.tree) :: entryTrees rest

end

mutual

/-- **The numbers of a value fit 64 bits.** -/
def Fits : Json → Prop
  | .number i => FitsWord i
  | .array items => ItemsFit items
  | .object entries => EntriesFit entries
  | _ => True

/-- The numbers of items fit 64 bits. -/
def ItemsFit : List Json → Prop
  | [] => True
  | v :: rest => v.Fits ∧ ItemsFit rest

/-- The numbers of entries fit 64 bits. -/
def EntriesFit : List (String × Json) → Prop
  | [] => True
  | (_, v) :: rest => v.Fits ∧ EntriesFit rest

end

/-! ### Reading -/

mutual

/-- A value whose numbers fit is read as its tree. -/
theorem tree_toWide : ∀ v : Json, v.Fits → v.toWide.tree = v.tree
  | .null, _ => rfl
  | .bool _, _ => rfl
  | .number _, h => tree_ofInt h
  | .text _, _ => rfl
  | .array items, h => by rw [toWide, Wide.tree, itemTrees_itemsToWide items h, tree]
  | .object entries, h => by rw [toWide, Wide.tree, entryTrees_entriesToWide entries h, tree]

theorem itemTrees_itemsToWide : ∀ items : List Json, ItemsFit items →
    Wide.itemTrees (itemsToWide items) = itemTrees items
  | [], _ => rfl
  | v :: rest, h => by
      rw [itemsToWide, Wide.itemTrees, tree_toWide v h.1, itemTrees_itemsToWide rest h.2, itemTrees]

theorem entryTrees_entriesToWide : ∀ entries : List (String × Json), EntriesFit entries →
    Wide.entryTrees (entriesToWide entries) = entryTrees entries
  | [], _ => rfl
  | (_, v) :: rest, h => by
      rw [entriesToWide, Wide.entryTrees, tree_toWide v h.1, entryTrees_entriesToWide rest h.2,
        entryTrees]

end

end Json

end CaptureConfig

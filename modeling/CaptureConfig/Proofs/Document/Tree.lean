/-
**The tree of a document.**

Both notations denote trees that differ in their scalars only: how a text, a number and a truth
value is spelled is up to the notation, and everything else is the same.  A spelling is lawful when
the notation takes each scalar for what was spelled.  The value of a tree without a schema then does
not depend on the notation.

Main definitions:

* `Doc.Spelling`, `Doc.Spelling.Lawful` — how a notation spells scalars;
* `Doc.tree` — the tree of a document in a spelling;
* `Doc.value` — the value of a document without a schema;
* `Doc.IsUsed` — a document is used as a whole;
* `Tree.depth` — how deep collections are nested.

Main results:

* `Doc.keep_tree` — **the value of a document's tree does not depend on the spelling**;
* `Doc.hasNull_value`, `Doc.repeatedKey?_value` — such a value holds no null and no key twice.
-/

import CaptureConfig.Document.Doc
import CaptureConfig.Schema.Reader

set_option relaxedAutoImplicit false
set_option autoImplicit false

namespace CaptureConfig

/-! ### Depth -/

namespace Tree

variable {σ : Type}

mutual

/-- **How deep collections are nested.** -/
def depth : Tree σ → Nat
  | .seq _ items _ => itemsDepth items + 1
  | .map _ entries _ => entriesDepth entries + 1
  | _ => 0

/-- How deep collections are nested in items. -/
def itemsDepth : List (Tree σ) → Nat
  | [] => 0
  | t :: rest => max (depth t) (itemsDepth rest)

/-- How deep collections are nested in entries. -/
def entriesDepth : List (Tree σ × Tree σ) → Nat
  | [] => 0
  | (k, t) :: rest => max (max (depth k) (depth t)) (entriesDepth rest)

end

end Tree

/-! ### Values -/

namespace Value

mutual

/-- Null stands somewhere in a value. -/
def hasNull : Value → Bool
  | .null => true
  | .seq items => hasNullItem items
  | .map entries => hasNullEntry entries
  | _ => false

/-- Null stands somewhere in items. -/
def hasNullItem : List Value → Bool
  | [] => false
  | v :: rest => hasNull v || hasNullItem rest

/-- Null stands somewhere in entries. -/
def hasNullEntry : List (Value × Value) → Bool
  | [] => false
  | (k, v) :: rest => hasNull k || hasNull v || hasNullEntry rest

end

/-- Entries under distinct texts hold no key twice, nor one that stands before them. -/
theorem repeatedInEntries?_texts (entries : List (String × Value)) (before : List Value)
    (hnodup : (entries.map Prod.fst).Nodup)
    (hbefore : ∀ e ∈ entries, before.any (same (.text e.1)) = false)
    (hvalues : ∀ e ∈ entries, e.2.repeatedKey? = none) :
    repeatedInEntries? before (entries.map fun e => (.text e.1, e.2)) = none := by
  induction entries generalizing before with
  | nil => rfl
  | cons e rest ih =>
      obtain ⟨k, v⟩ := e
      obtain ⟨hk, hnodup⟩ := List.nodup_cons.1 hnodup
      obtain ⟨hkbefore, hbefore⟩ := List.forall_mem_cons.1 hbefore
      obtain ⟨hv, hvalues⟩ := List.forall_mem_cons.1 hvalues
      have hrest : ∀ e ∈ rest, (text k :: before).any (same (.text e.1)) = false := by
        intro e he
        have hne : (e.1 == k) = false := by
          rw [beq_eq_false_iff_ne]
          rintro rfl
          exact hk (List.mem_map.2 ⟨e, he, rfl⟩)
        rw [List.any_cons, hbefore e he, same, hne]
        rfl
      rw [List.map_cons, repeatedInEntries?, repeatedKey?, hkbefore, hv, ih _ hnodup hrest hvalues]
      · rfl
      all_goals simp

end Value

namespace Doc

/-! ### Documents -/

mutual

/-- **The numbers of a document fit 64 bits.** -/
def Fits : Doc → Prop
  | .number n => n < Nat.pow 2 64
  | .block entries => EntriesFit entries
  | _ => True

/-- The numbers of entries fit 64 bits. -/
def EntriesFit : List (String × Doc) → Prop
  | [] => True
  | (_, d) :: rest => Fits d ∧ EntriesFit rest

end

mutual

/-- **No block holds a key twice.** -/
def IsDistinct : Doc → Prop
  | .block entries => (entries.map Prod.fst).Nodup ∧ AreDistinct entries
  | _ => True

/-- No block in entries holds a key twice. -/
def AreDistinct : List (String × Doc) → Prop
  | [] => True
  | (_, d) :: rest => IsDistinct d ∧ AreDistinct rest

end

mutual

/-- **The value of a document without a schema.** -/
def value : Doc → Value
  | .text s => .text s
  | .number n => .int n
  | .flag b => .bool b
  | .block entries => .map (entryValues entries)

/-- The values of entries. -/
def entryValues : List (String × Doc) → List (Value × Value)
  | [] => []
  | (k, d) :: rest => (.text k, value d) :: entryValues rest

end

mutual

/-- **A document is used as a whole**, where only parts of trees are used. -/
def IsUsed : Uses → Doc → Prop
  | u, .block entries => u.isNothing = false ∧ AreUsed u entries
  | u, _ => u.isNothing = false

/-- The entries of a document are used as a whole. -/
def AreUsed : Uses → List (String × Doc) → Prop
  | _, [] => True
  | u, (k, d) :: rest => IsUsed (u.ofKey (some k)) d ∧ AreUsed u rest

end

mutual

theorem isUsed_everything : ∀ d : Doc, IsUsed .everything d
  | .text _ => rfl
  | .number _ => rfl
  | .flag _ => rfl
  | .block entries => ⟨rfl, areUsed_everything entries⟩

theorem areUsed_everything : ∀ entries, AreUsed .everything entries
  | [] => trivial
  | (_, d) :: rest => ⟨isUsed_everything d, areUsed_everything rest⟩

end

/-- How a notation spells texts, numbers and truth values. -/
structure Spelling (σ : Type) where
  text : String → σ
  number : Nat → σ
  flag : Bool → σ

/-- **A notation takes each scalar for what was spelled.** -/
structure Spelling.Lawful {σ : Type} [Scalar σ] (sp : Spelling σ) : Prop where
  text? : ∀ s, Scalar.text? (sp.text s) = some s
  integer? : ∀ n, n < Nat.pow 2 64 → Scalar.integer? (sp.number n) = some (n : Int)
  truth? : ∀ b, Scalar.truth? (sp.flag b) = some b
  isNull_text : ∀ s, Scalar.isNull (sp.text s) = .ok false
  isNull_number : ∀ n, Scalar.isNull (sp.number n) = .ok false
  isNull_flag : ∀ b, Scalar.isNull (sp.flag b) = .ok false
  value_text : ∀ s, Scalar.value (sp.text s) = .ok (.text s)
  value_number : ∀ n, n < Nat.pow 2 64 → Scalar.value (sp.number n) = .ok (.int n)
  value_flag : ∀ b, Scalar.value (sp.flag b) = .ok (.bool b)

section

variable {σ : Type} (sp : Spelling σ)

mutual

/-- **The tree of a document in a spelling.** -/
def tree : Doc → Tree σ
  | .text s => .scalar (sp.text s)
  | .number n => .scalar (sp.number n)
  | .flag b => .scalar (sp.flag b)
  | .block entries => .map .none (entryTrees entries) true

/-- The trees of entries. -/
def entryTrees : List (String × Doc) → List (Tree σ × Tree σ)
  | [] => []
  | (k, d) :: rest => (.scalar (sp.text k), tree d) :: entryTrees rest

end

theorem entryTrees_eq_map (entries : List (String × Doc)) :
    entryTrees sp entries =
      (entries.map fun e => (e.1, e.2.tree sp)).map fun e => (.scalar (sp.text e.1), e.2) := by
  induction entries with
  | nil => rfl
  | cons e rest ih => rw [entryTrees, ih]; rfl

mutual

/-- **The value of a document's tree does not depend on the spelling.** -/
theorem keep_tree [Scalar σ] (hsp : sp.Lawful) :
    ∀ d : Doc, d.Fits → (d.tree sp).keep = .ok d.value
  | .text s, _ => by rw [tree, Tree.keep, hsp.value_text s]; rfl
  | .number n, h => by rw [tree, Tree.keep, hsp.value_number n h]; rfl
  | .flag b, _ => by rw [tree, Tree.keep, hsp.value_flag b]; rfl
  | .block entries, h => by
      rw [tree, Tree.keep, keepEntries_entryTrees hsp entries h]
      rfl

/-- The values of entries do not depend on the spelling. -/
theorem keepEntries_entryTrees [Scalar σ] (hsp : sp.Lawful) :
    ∀ entries, EntriesFit entries →
      Tree.keepEntries (entryTrees sp entries) = .ok (entryValues entries)
  | [], _ => rfl
  | (k, d) :: rest, h => by
      rw [entryTrees, Tree.keepEntries, Tree.keep, hsp.value_text k, keep_tree hsp d h.1,
        keepEntries_entryTrees hsp rest h.2]
      rfl

end

end

mutual

/-- No value of a document is null. -/
theorem hasNull_value : ∀ d : Doc, d.value.hasNull = false
  | .text _ => rfl
  | .number _ => rfl
  | .flag _ => rfl
  | .block entries => hasNullEntry_entryValues entries

theorem hasNullEntry_entryValues : ∀ entries, Value.hasNullEntry (entryValues entries) = false
  | [] => rfl
  | (k, d) :: rest => by
      rw [entryValues, Value.hasNullEntry, hasNull_value d, hasNullEntry_entryValues rest]
      rfl

end

theorem entryValues_eq_map (entries : List (String × Doc)) :
    entryValues entries =
      (entries.map fun e => (e.1, e.2.value)).map fun e => (.text e.1, e.2) := by
  induction entries with
  | nil => rfl
  | cons e rest ih => rw [entryValues, ih]; rfl

mutual

/-- A value of a document holds no key twice. -/
theorem repeatedKey?_value : ∀ d : Doc, d.IsDistinct → d.value.repeatedKey? = none
  | .text _, _ => rfl
  | .number _, _ => rfl
  | .flag _, _ => rfl
  | .block entries, h => by
      rw [value, Value.repeatedKey?, entryValues_eq_map]
      refine Value.repeatedInEntries?_texts _ [] ?_ (by simp) ?_
      · rw [List.map_map]
        exact h.1
      · exact List.forall_mem_map.2 (repeatedKey?_of_mem entries h.2)

theorem repeatedKey?_of_mem : ∀ entries : List (String × Doc), AreDistinct entries →
    ∀ e ∈ entries, e.2.value.repeatedKey? = none
  | [], _ => fun _ h => absurd h List.not_mem_nil
  | (_, d) :: rest, h =>
      List.forall_mem_cons.2 ⟨repeatedKey?_value d h.1, repeatedKey?_of_mem rest h.2⟩

end

end Doc

end CaptureConfig

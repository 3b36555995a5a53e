/-
**Values in any notation.**

A value of strict notation can be spelled with the scalars of any notation that tells nothing, truth
values, numbers and texts apart.  The tree that comes of it depends on the notation in its scalars
and in what is known about its collections besides their content.  Kept without a schema it is the value again, so that nothing is lost and nothing confused:
values that are kept as the same are the same.

Main definitions:

* `Json.Spelling`, `Json.Spelling.Lawful` — how a notation spells values;
* `Json.treeIn` — the tree of a value in a spelling;
* `Json.toValue` — the value without a schema;
* `Json.IsDistinct` — no object holds a key twice;
* `Json.depth` — how deep arrays and objects are nested;
* `Json.IsUsed` — a value is used as a whole.

Main results:

* `Json.keep_treeIn` — **the value of a tree does not depend on the spelling**;
* `Json.distinct_toValue` — it holds no key twice;
* `Json.toValue_injective` — **values that are kept as the same are the same**;
* `Json.document_eq_treeIn` — a text that denotes a value is read as the tree of that value.
-/

import CaptureConfig.Proofs.Json.Document

set_option relaxedAutoImplicit false
set_option autoImplicit false

namespace CaptureConfig

namespace Json

/-! ### Values -/

mutual

/-- **The value without a schema.** -/
def toValue : Json → Value
  | .null => .null
  | .bool b => .bool b
  | .number i => .int i
  | .text s => .text s
  | .array items => .seq (itemValues items)
  | .object entries => .map (entryValues entries)

/-- The values of items. -/
def itemValues : List Json → List Value
  | [] => []
  | v :: rest => v.toValue :: itemValues rest

/-- The values of entries. -/
def entryValues : List (String × Json) → List (Value × Value)
  | [] => []
  | (k, v) :: rest => (.text k, v.toValue) :: entryValues rest

end

mutual

/-- **No object holds a key twice.** -/
def IsDistinct : Json → Prop
  | .array items => ItemsAreDistinct items
  | .object entries => (entries.map Prod.fst).Nodup ∧ EntriesAreDistinct entries
  | _ => True

/-- No object in items holds a key twice. -/
def ItemsAreDistinct : List Json → Prop
  | [] => True
  | v :: rest => v.IsDistinct ∧ ItemsAreDistinct rest

/-- No object in entries holds a key twice. -/
def EntriesAreDistinct : List (String × Json) → Prop
  | [] => True
  | (_, v) :: rest => v.IsDistinct ∧ EntriesAreDistinct rest

end

mutual

/-- **How deep arrays and objects are nested.** -/
def depth : Json → Nat
  | .array items => itemsDepth items + 1
  | .object entries => entriesDepth entries + 1
  | _ => 0

/-- How deep they are nested in items. -/
def itemsDepth : List Json → Nat
  | [] => 0
  | v :: rest => max v.depth (itemsDepth rest)

/-- How deep they are nested in entries. -/
def entriesDepth : List (String × Json) → Nat
  | [] => 0
  | (_, v) :: rest => max v.depth (entriesDepth rest)

end

mutual

/-- **A value is used as a whole**, where only parts of trees are used. -/
def IsUsed : Uses → Json → Prop
  | u, .array items => u.isNothing = false ∧ ItemsAreUsed u 0 items
  | u, .object entries => u.isNothing = false ∧ EntriesAreUsed u entries
  | u, _ => u.isNothing = false

/-- Items, the first of which has a given index, are used as a whole. -/
def ItemsAreUsed : Uses → Nat → List Json → Prop
  | _, _, [] => True
  | u, index, v :: rest => IsUsed (u.ofIndex index) v ∧ ItemsAreUsed u (index + 1) rest

/-- Entries are used as a whole. -/
def EntriesAreUsed : Uses → List (String × Json) → Prop
  | _, [] => True
  | u, (k, v) :: rest => IsUsed (u.ofKey (some k)) v ∧ EntriesAreUsed u rest

end

mutual

theorem isUsed_everything : ∀ v : Json, IsUsed .everything v
  | .null => rfl
  | .bool _ => rfl
  | .number _ => rfl
  | .text _ => rfl
  | .array items => ⟨rfl, itemsAreUsed_everything 0 items⟩
  | .object entries => ⟨rfl, entriesAreUsed_everything entries⟩

theorem itemsAreUsed_everything : ∀ (index : Nat) (items : List Json),
    ItemsAreUsed .everything index items
  | _, [] => trivial
  | index, v :: rest => ⟨isUsed_everything v, itemsAreUsed_everything (index + 1) rest⟩

theorem entriesAreUsed_everything : ∀ entries, EntriesAreUsed .everything entries
  | [] => trivial
  | (_, v) :: rest => ⟨isUsed_everything v, entriesAreUsed_everything rest⟩

end

mutual

/-- **Values that are kept as the same are the same.** -/
theorem toValue_injective : ∀ v w : Json, v.toValue = w.toValue → v = w
  | .null, w, h => by cases w <;> first | rfl | cases h
  | .bool _, w, h => by
      cases w <;> cases h
      rfl
  | .number _, w, h => by
      cases w <;> cases h
      rfl
  | .text _, w, h => by
      cases w <;> cases h
      rfl
  | .array items, w, h => by
      cases w with
      | array items' => exact congrArg array (itemValues_injective items items' (Value.seq.inj h))
      | _ => cases h
  | .object entries, w, h => by
      cases w with
      | object entries' =>
          exact congrArg object (entryValues_injective entries entries' (Value.map.inj h))
      | _ => cases h

theorem itemValues_injective : ∀ vs ws : List Json, itemValues vs = itemValues ws → vs = ws
  | [], ws, h => by cases ws <;> first | rfl | cases h
  | v :: vs, ws, h => by
      cases ws with
      | nil => cases h
      | cons w ws =>
          obtain ⟨hv, hvs⟩ := List.cons.inj h
          rw [toValue_injective v w hv, itemValues_injective vs ws hvs]

theorem entryValues_injective : ∀ es fs : List (String × Json),
    entryValues es = entryValues fs → es = fs
  | [], fs, h => by cases fs <;> first | rfl | cases h
  | (k, v) :: es, fs, h => by
      cases fs with
      | nil => cases h
      | cons f fs =>
          obtain ⟨l, w⟩ := f
          obtain ⟨hentry, hes⟩ := List.cons.inj h
          obtain ⟨hk, hv⟩ := Prod.mk.inj hentry
          rw [Value.text.inj hk, toValue_injective v w hv, entryValues_injective es fs hes]

end

theorem entryValues_eq_map (entries : List (String × Json)) :
    entryValues entries =
      (entries.map fun e => (e.1, e.2.toValue)).map fun e => (.text e.1, e.2) := by
  induction entries with
  | nil => rfl
  | cons e rest ih => rw [entryValues, ih]; rfl

mutual

/-- A value holds no key twice if none of its objects does. -/
theorem repeatedKey?_toValue : ∀ v : Json, v.IsDistinct → v.toValue.repeatedKey? = none
  | .null, _ => rfl
  | .bool _, _ => rfl
  | .number _, _ => rfl
  | .text _, _ => rfl
  | .array items, h => repeatedInItems?_itemValues items h
  | .object entries, h => by
      rw [toValue, Value.repeatedKey?, entryValues_eq_map]
      refine Value.repeatedInEntries?_texts _ [] ?_ (by simp) ?_
      · rw [List.map_map]
        exact h.1
      · exact List.forall_mem_map.2 (repeatedKey?_of_mem entries h.2)

theorem repeatedInItems?_itemValues : ∀ items : List Json, ItemsAreDistinct items →
    Value.repeatedInItems? (itemValues items) = none
  | [], _ => rfl
  | v :: rest, h => by
      rw [itemValues, Value.repeatedInItems?, repeatedKey?_toValue v h.1,
        repeatedInItems?_itemValues rest h.2]
      rfl

theorem repeatedKey?_of_mem : ∀ entries : List (String × Json), EntriesAreDistinct entries →
    ∀ e ∈ entries, e.2.toValue.repeatedKey? = none
  | [], _ => fun _ h => absurd h List.not_mem_nil
  | (_, v) :: rest, h =>
      List.forall_mem_cons.2 ⟨repeatedKey?_toValue v h.1, repeatedKey?_of_mem rest h.2⟩

end

theorem distinct_toValue {v : Json} (h : v.IsDistinct) : v.toValue.distinct = .ok v.toValue := by
  rw [Value.distinct, repeatedKey?_toValue v h]

/-! ### Spellings -/

/-- How a notation spells scalars, and what it says about collections besides their content. -/
structure Spelling (σ : Type) where
  null : σ
  bool : Bool → σ
  number : Int → σ
  text : String → σ
  array : List Json → Mark := fun _ => .none
  object : List (String × Json) → Mark := fun _ => .none

/-- **A notation takes each scalar for what was spelled**, and no collection for one of an
application's own type. -/
structure Spelling.Lawful {σ : Type} [Scalar σ] (sp : Spelling σ) : Prop where
  text? : ∀ s, Scalar.text? (sp.text s) = some s
  integer? : ∀ n : Nat, n < Nat.pow 2 64 → Scalar.integer? (sp.number n) = some (n : Int)
  truth? : ∀ b, Scalar.truth? (sp.bool b) = some b
  isNull_null : Scalar.isNull sp.null = .ok true
  isNull_bool : ∀ b, Scalar.isNull (sp.bool b) = .ok false
  isNull_number : ∀ i, Scalar.isNull (sp.number i) = .ok false
  isNull_text : ∀ s, Scalar.isNull (sp.text s) = .ok false
  value_null : Scalar.value sp.null = .ok .null
  value_bool : ∀ b, Scalar.value (sp.bool b) = .ok (.bool b)
  value_number : ∀ i, FitsWord i → Scalar.value (sp.number i) = .ok (.int i)
  value_text : ∀ s, Scalar.value (sp.text s) = .ok (.text s)
  array_ne : ∀ items, sp.array items ≠ .ownType
  object_ne : ∀ entries, sp.object entries ≠ .ownType

section

variable {σ : Type} (sp : Spelling σ)

/-- What a document needs of a spelling. -/
def Spelling.toDoc : Doc.Spelling σ := ⟨sp.text, fun n => sp.number n, sp.bool⟩

theorem fitsWord_natCast {n : Nat} (h : n < Nat.pow 2 64) : FitsWord n :=
  ⟨Int.le_trans (by decide) (Int.natCast_nonneg n), Int.ofNat_lt.2 h⟩

theorem Spelling.Lawful.toDoc [Scalar σ] {sp : Spelling σ} (h : sp.Lawful) : sp.toDoc.Lawful where
  text? := h.text?
  integer? := h.integer?
  truth? := h.truth?
  isNull_text := h.isNull_text
  isNull_number n := h.isNull_number n
  isNull_flag := h.isNull_bool
  value_text := h.value_text
  value_number n hn := h.value_number n (fitsWord_natCast hn)
  value_flag := h.value_bool

mutual

/-- **The tree of a value in a spelling.** -/
def treeIn : Json → Tree σ
  | .null => .scalar sp.null
  | .bool b => .scalar (sp.bool b)
  | .number i => .scalar (sp.number i)
  | .text s => .scalar (sp.text s)
  | .array items => .seq (sp.array items) (itemTreesIn items) true
  | .object entries => .map (sp.object entries) (entryTreesIn entries) true

/-- The trees of items. -/
def itemTreesIn : List Json → List (Tree σ)
  | [] => []
  | v :: rest => treeIn v :: itemTreesIn rest

/-- The trees of entries. -/
def entryTreesIn : List (String × Json) → List (Tree σ × Tree σ)
  | [] => []
  | (k, v) :: rest => (.scalar (sp.text k), treeIn v) :: entryTreesIn rest

end

theorem entryTreesIn_eq_map (entries : List (String × Json)) :
    entryTreesIn sp entries =
      (entries.map fun e => (e.1, treeIn sp e.2)).map fun e => (.scalar (sp.text e.1), e.2) := by
  induction entries with
  | nil => rfl
  | cons e rest ih => rw [entryTreesIn, ih]; rfl

mutual

/-- The tree of a value is nested as deep as the value. -/
theorem depth_treeIn : ∀ v : Json, (treeIn sp v).depth = v.depth
  | .null => rfl
  | .bool _ => rfl
  | .number _ => rfl
  | .text _ => rfl
  | .array items => by rw [treeIn, Tree.depth, itemsDepth_itemTreesIn items, depth]
  | .object entries => by rw [treeIn, Tree.depth, entriesDepth_entryTreesIn entries, depth]

theorem itemsDepth_itemTreesIn : ∀ items : List Json,
    Tree.itemsDepth (itemTreesIn sp items) = itemsDepth items
  | [] => rfl
  | v :: rest => by
      rw [itemTreesIn, Tree.itemsDepth, depth_treeIn v, itemsDepth_itemTreesIn rest, itemsDepth]

theorem entriesDepth_entryTreesIn : ∀ entries : List (String × Json),
    Tree.entriesDepth (entryTreesIn sp entries) = entriesDepth entries
  | [] => rfl
  | (k, v) :: rest => by
      have hkey : (Tree.scalar (sp.text k)).depth = 0 := rfl
      rw [entryTreesIn, Tree.entriesDepth, hkey, Nat.zero_max, depth_treeIn v,
        entriesDepth_entryTreesIn rest, entriesDepth]

end

variable [Scalar σ] {sp}

mutual

/-- **The value of a tree does not depend on the spelling.** -/
theorem keep_treeIn (hsp : sp.Lawful) :
    ∀ v : Json, v.Fits → (treeIn sp v).keep = .ok v.toValue
  | .null, _ => by rw [treeIn, Tree.keep, hsp.value_null]; rfl
  | .bool b, _ => by rw [treeIn, Tree.keep, hsp.value_bool b]; rfl
  | .number i, h => by rw [treeIn, Tree.keep, hsp.value_number i h]; rfl
  | .text s, _ => by rw [treeIn, Tree.keep, hsp.value_text s]; rfl
  | .array items, h => by
      rw [treeIn, Tree.keep, if_neg (mt beq_iff_eq.1 (hsp.array_ne items)),
        keepItems_itemTreesIn hsp items h]
      rfl
  | .object entries, h => by
      rw [treeIn, Tree.keep, if_neg (mt beq_iff_eq.1 (hsp.object_ne entries)),
        keepEntries_entryTreesIn hsp entries h]
      rfl

theorem keepItems_itemTreesIn (hsp : sp.Lawful) : ∀ items : List Json, ItemsFit items →
    Tree.keepItems (itemTreesIn sp items) = .ok (itemValues items)
  | [], _ => rfl
  | v :: rest, h => by
      rw [itemTreesIn, Tree.keepItems, keep_treeIn hsp v h.1, keepItems_itemTreesIn hsp rest h.2]
      rfl

theorem keepEntries_entryTreesIn (hsp : sp.Lawful) : ∀ entries : List (String × Json),
    EntriesFit entries → Tree.keepEntries (entryTreesIn sp entries) = .ok (entryValues entries)
  | [], _ => rfl
  | (k, v) :: rest, h => by
      rw [entryTreesIn, Tree.keepEntries, Tree.keep, hsp.value_text k, keep_treeIn hsp v h.1,
        keepEntries_entryTreesIn hsp rest h.2]
      rfl

end

end

/-! ### Strict notation -/

/-- How strict notation spells scalars. -/
def strict : Spelling Atom where
  null := .null
  bool := .bool
  number := .int
  text := .text

theorem lawful_strict : strict.Lawful where
  text? _ := rfl
  integer? _ _ := rfl
  truth? _ := rfl
  isNull_null := rfl
  isNull_bool _ := rfl
  isNull_number _ := rfl
  isNull_text _ := rfl
  value_null := rfl
  value_bool _ := rfl
  value_number _ _ := rfl
  value_text _ := rfl
  array_ne _ := by simp [strict]
  object_ne _ := by simp [strict]

mutual

theorem tree_eq_treeIn : ∀ v : Json, v.tree = treeIn strict v
  | .null => rfl
  | .bool _ => rfl
  | .number _ => rfl
  | .text _ => rfl
  | .array items => by rw [tree, itemTrees_eq_itemTreesIn items, treeIn]; rfl
  | .object entries => by rw [tree, entryTrees_eq_entryTreesIn entries, treeIn]; rfl

theorem itemTrees_eq_itemTreesIn : ∀ items : List Json,
    itemTrees items = itemTreesIn strict items
  | [] => rfl
  | v :: rest => by
      rw [itemTrees, tree_eq_treeIn v, itemTrees_eq_itemTreesIn rest, itemTreesIn]

theorem entryTrees_eq_entryTreesIn : ∀ entries : List (String × Json),
    entryTrees entries = entryTreesIn strict entries
  | [] => rfl
  | (k, v) :: rest => by
      rw [entryTrees, tree_eq_treeIn v, entryTrees_eq_entryTreesIn rest, entryTreesIn]
      rfl

end

/-- A text that denotes a value is read as the tree of that value. -/
theorem document_eq_treeIn {v : Json} {s : String} (h : v.IsSpelledBy s) (hfits : v.Fits)
    (hdepth : v.depth ≤ deepest) (u : Uses) : document u s = ⟨treeIn strict v, true⟩ := by
  rw [← depth_treeIn strict v, ← tree_eq_treeIn] at hdepth
  rw [← tree_eq_treeIn]
  exact document_of_isSpelledBy h hfits hdepth u

end Json

end CaptureConfig

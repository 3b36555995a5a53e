/-
**Strict notation is block notation.**

The tokens of a value that is printed in strict notation make a node without anchors, aliases and
tags.  A text in quotes is one whatever its spelling, and the words for nothing, truth values and
numbers mean the same in both notations; so what is printed in strict notation is read in block
notation as the tree of the same value.

Main definitions:

* `Yaml.strictSpelling` — how the scalars of strict notation are spelled for block notation;
* `Yaml.nodeOfValue` — the node of a value;
* `Yaml.KeysAreBrief` — each key of a value ends in time;
* `Yaml.Makes` — what is made of tokens, unless a key is too long.

Main results:

* `Yaml.lawful_strictSpelling` — **the spelling is lawful**;
* `Yaml.node_tokensOf` — the tokens of a value make its node;
* `Yaml.Node.unfold_nodeOfValue` — such a node is a tree as it is;
* `Yaml.document_strict` — **what is printed in strict notation is read as its node**;
* `Yaml.document_printed` — **a value with whole numbers is read as its tree**.
-/

import CaptureConfig.Proofs.Json.Value
import CaptureConfig.Proofs.Yaml.Document
import CaptureConfig.Proofs.Yaml.Strict.Tokens

set_option relaxedAutoImplicit false
set_option autoImplicit false

namespace CaptureConfig

namespace Yaml

/-! ### Spelling -/

/-- **How the scalars of strict notation are spelled for block notation.** -/
def strictSpelling : Json.Spelling Atom where
  null := ⟨"null".toList, .plainly, .none⟩
  bool b := ⟨Json.boolChars b, .plainly, .none⟩
  number i := ⟨Digits.ofInt i, .plainly, .none⟩
  text s := ⟨s.toList, .otherwise, .none⟩

/-- **The digits of a number of 64 bits mean that number.** -/
theorem meaning_ofInt {i : Int} (h : Json.FitsWord i) : meaning (Digits.ofInt i) = .int i := by
  cases i with
  | ofNat n => exact meaning_ofNat n (Nat.lt_trans (Int.ofNat_lt.1 h.2) (by decide))
  | negSucc n =>
      have hbound : n + 1 ≤ Nat.pow 2 63 := Int.ofNat_le.1 (Int.neg_le_neg_iff.1 h.1)
      exact meaning_minus (n + 1) (Nat.le_trans hbound (by decide))

theorem isNull_ofInt : ∀ i : Int, isNull (Digits.ofInt i) = false
  | .ofNat n => isNull_ofNat n
  | .negSucc n => isNull_minus (n + 1)

/-- **The spelling is lawful.** -/
theorem lawful_strictSpelling : strictSpelling.Lawful where
  text? s := congrArg some String.ofList_toList
  integer? n h := integer?_ofNat h
  truth? b := by cases b <;> decide
  isNull_null := rfl
  isNull_bool b := by cases b <;> rfl
  isNull_number i := congrArg Except.ok (isNull_ofInt i)
  isNull_text _ := rfl
  value_null := rfl
  value_bool b := by cases b <;> rfl
  value_number i h := by
    refine (value_plainly _).trans ?_
    rw [meaning_ofInt h]
    exact valueAs_int _ h.1 h.2
  value_text s := congrArg (fun t => Except.ok (Value.text t)) String.ofList_toList
  array_ne _ := by simp [strictSpelling]
  object_ne _ := by simp [strictSpelling]

/-! ### Nodes -/

section

variable {ν : Type}

mutual

/-- **The node of a value.** -/
def nodeOfValue : Json.Wide → Node ν
  | .null => .scalar none strictSpelling.null
  | .bool b => .scalar none (strictSpelling.bool b)
  | .number l => .scalar none ⟨l.chars, .plainly, .none⟩
  | .text s => .scalar none (strictSpelling.text s)
  | .array items => .seq none false (itemNodes items) true
  | .object entries => .map none false (memberNodes entries) true

/-- The nodes of items. -/
def itemNodes : List Json.Wide → List (Node ν)
  | [] => []
  | v :: rest => nodeOfValue v :: itemNodes rest

/-- The nodes of entries. -/
def memberNodes : List (String × Json.Wide) → List (Node ν × Node ν)
  | [] => []
  | (k, v) :: rest => (.scalar none (strictSpelling.text k), nodeOfValue v) :: memberNodes rest

end

end

theorem exists_tokensOf_eq_cons (v : Json.Wide) : ∃ t ts, tokensOf v = t :: ts ∧ t ≠ .key := by
  cases v with
  | array items => cases items <;> exact ⟨_, _, rfl, nofun⟩
  | object entries => cases entries <;> exact ⟨_, _, rfl, nofun⟩
  | _ => exact ⟨_, _, rfl, nofun⟩

theorem one_le_length_tokensOf (v : Json.Wide) : 1 ≤ (tokensOf v).length := by
  obtain ⟨t, ts, h, -⟩ := exists_tokensOf_eq_cons v
  rw [h]
  exact Nat.succ_pos _

/-- A text whose colon is in time for a key, if it stands in quotes. -/
def IsBrief (k : String) : Prop := (doubleChars k.toList).length ≤ 1024

theorem keyAndColon_of_isBrief {k : String} (h : IsBrief k) :
    keyAndColon k = [.key, .scalar k.toList .otherwise, .value] := if_pos h

theorem keyAndColon_of_not_isBrief {k : String} (h : ¬ IsBrief k) :
    keyAndColon k = [.scalar k.toList .otherwise, .value] := if_neg h

theorem two_le_length_keyAndColon (k : String) : 2 ≤ (keyAndColon k).length := by
  rw [keyAndColon]
  split
  next => exact Nat.le_succ 2
  next => exact Nat.le_refl 2

theorem IsShort.isBrief {k : String} (h : IsShort k) : IsBrief k := by
  rw [IsBrief, ← quoted_eq_doubleChars h.1]
  exact h.2

/-! ### What is made of tokens -/

/-- All keys of a value are brief. -/
def KeysAreBrief (v : Json.Wide) : Prop := v.Holds (fun _ => True) IsBrief

/-- **What is made of tokens**: something with a rest behind it, or nothing with an end if some key is
too long. -/
def Makes {α : Type} (taken : α × Option (List Token)) (a : α) (rest : List Token)
    (brief : Prop) : Prop := taken = (a, some rest) ∨ ¬ brief ∧ taken.2 = none

/-- An item or an entry with a node, and what is listed behind it. -/
def listed {α : Type} (taken : NodeTaken) (f : Node String → α)
    (more : List Token → ListTaken α) : ListTaken α :=
  match taken with
  | (n, none) => ([f n], none)
  | (n, some rest) => (more rest).cons (f n)

theorem Makes.listed {α : Type} {taken : NodeTaken} {f : Node String → α}
    {more : List Token → ListTaken α} {n : Node String} {rest ts : List Token} {as : List α}
    {first others brief : Prop} (h : Makes taken n rest first)
    (h' : Makes (more rest) as ts others) (hbrief : brief → first ∧ others) :
    Makes (Yaml.listed taken f more) (f n :: as) ts brief := by
  obtain rfl | ⟨hlate, hnone⟩ := h
  · obtain h' | ⟨hlate, hnone⟩ := h'
    · exact .inl (by rw [Yaml.listed, h']; rfl)
    · exact .inr ⟨fun h => hlate (hbrief h).2, hnone⟩
  · obtain ⟨m, rest'⟩ := taken
    obtain rfl : rest' = none := hnone
    exact .inr ⟨fun h => hlate (hbrief h).1, rfl⟩

section

variable (handles : Handles) (fuel : Nat) (v : Json.Wide) (ts : List Token)

/-! ### What a value begins with -/

/-- An item begins where the first one can. -/
theorem flowItems_first : flowItems handles (fuel + 1) true (tokensOf v ++ ts) =
    flowItemsAt handles fuel (tokensOf v ++ ts) := by
  cases v with
  | array items => cases items <;> rfl
  | object entries => cases entries <;> rfl
  | _ => rfl

/-- An item begins behind a comma. -/
theorem flowItems_comma : flowItems handles (fuel + 1) false (.comma :: (tokensOf v ++ ts)) =
    flowItemsAt handles fuel (tokensOf v ++ ts) := by
  cases v with
  | array items => cases items <;> rfl
  | object entries => cases entries <;> rfl
  | _ => rfl

/-- An item is a value, and no entry. -/
theorem flowItemsAt_tokensOf : flowItemsAt handles (fuel + 1) (tokensOf v ++ ts) =
    listed (node handles fuel false false (tokensOf v ++ ts)) id
      (flowItems handles fuel false) := by
  obtain ⟨t, behind, htokens, ht⟩ := exists_tokensOf_eq_cons v
  rw [htokens, List.cons_append, flowItemsAt]
  · rfl
  · -- Only a key would have made it an entry.
    rintro _ ⟨⟩
    exact ht rfl

/-- Behind the indicator of a value there is one. -/
theorem valueOf_tokensOf :
    valueOf handles endsFlowValue (fuel + 2) false (.value :: (tokensOf v ++ ts)) =
      node handles fuel false false (tokensOf v ++ ts) := by
  cases v with
  | array items => cases items <;> rfl
  | object entries => cases entries <;> rfl
  | _ => rfl

/-- An entry begins where the first one can. -/
theorem flowEntries_first (k : String) : flowEntries handles (fuel + 1) true (keyAndColon k ++ ts) =
    flowEntriesAt handles fuel (keyAndColon k ++ ts) := by
  rw [keyAndColon]
  split <;> rfl

/-- An entry begins behind a comma. -/
theorem flowEntries_comma (k : String) :
    flowEntries handles (fuel + 1) false (.comma :: (keyAndColon k ++ ts)) =
      flowEntriesAt handles fuel (keyAndColon k ++ ts) := by
  rw [keyAndColon]
  split <;> rfl

/-- An entry is a key and a value. -/
theorem flowEntriesAt_key {k : String} (hk : IsBrief k) :
    flowEntriesAt handles (fuel + 3) (keyAndColon k ++ (tokensOf v ++ ts)) =
      listed (node handles fuel false false (tokensOf v ++ ts))
        (fun n => (.scalar none (strictSpelling.text k), n))
        (flowEntries handles (fuel + 2) false) := by
  have hkey : nodeUnless handles (fun t => t == .value || endsFlowValue t) (fuel + 2) false false
      (.scalar k.toList .otherwise :: .value :: (tokensOf v ++ ts)) =
      (.scalar none (strictSpelling.text k), some (.value :: (tokensOf v ++ ts))) := rfl
  rw [keyAndColon_of_isBrief hk]
  show flowEntriesAt handles (fuel + 3)
    (.key :: .scalar k.toList .otherwise :: .value :: (tokensOf v ++ ts)) = _
  rw [flowEntriesAt, hkey]
  dsimp only
  rw [valueOf_tokensOf]
  rfl

/-- The colon behind a text that is no key is out of place. -/
theorem flowEntriesAt_late {k : String} (hk : ¬ IsBrief k) :
    (flowEntriesAt handles (fuel + 2) (keyAndColon k ++ ts)).2 = none := by
  rw [keyAndColon_of_not_isBrief hk]
  rfl

end

section

variable (handles : Handles)

mutual

/-- **The tokens of a value make its node**, unless a key is too long.  Three steps of fuel a token are
enough: an entry takes one for itself, one for its value, and one for the node of that value. -/
theorem node_tokensOf : ∀ (v : Json.Wide) (fuel : Nat) (inBlock : Bool) (rest : List Token),
    3 * (tokensOf v).length ≤ fuel → Makes (node handles fuel inBlock false (tokensOf v ++ rest))
      (nodeOfValue v) rest (KeysAreBrief v)
  | .null, fuel + 1, _, _, _ => .inl rfl
  | .bool _, fuel + 1, _, _, _ => .inl rfl
  | .number _, fuel + 1, _, _, _ => .inl rfl
  | .text _, fuel + 1, _, _, _ => .inl rfl
  | .array [], fuel + 2, _, _, _ => .inl rfl
  | .array (v :: items), fuel + 2, inBlock, rest, h => by
      have hitems := flowItemsAt_items items v fuel rest (by
        simp only [tokensOf, List.length_cons, List.length_append, List.length_nil] at h
        omega)
      rw [← flowItems_first] at hitems
      have htokens : tokensOf (.array (v :: items)) ++ rest =
          .openSequence :: (tokensOf v ++ (itemTokens items ++ .closeSequence :: rest)) := by
        simp [tokensOf]
      have hnode (ts : List Token) : node handles (fuel + 2) inBlock false (.openSequence :: ts) =
          (.seq none false (flowItems handles (fuel + 1) true ts).1
            (flowItems handles (fuel + 1) true ts).2.isSome,
            (flowItems handles (fuel + 1) true ts).2) := rfl
      rw [htokens, hnode]
      obtain hitems | ⟨hlate, hnone⟩ := hitems
      · exact .inl (by rw [hitems]; rfl)
      · exact .inr ⟨hlate, hnone⟩
  | .object [], fuel + 2, _, _, _ => .inl rfl
  | .object ((k, v) :: entries), fuel + 2, inBlock, rest, h => by
      have hentries := flowEntriesAt_members entries k v fuel rest (by
        simp only [tokensOf, List.length_cons, List.length_append, List.length_nil] at h
        omega)
      rw [← flowEntries_first] at hentries
      have htokens : tokensOf (.object ((k, v) :: entries)) ++ rest =
          .openMapping :: (keyAndColon k ++
            (tokensOf v ++ (memberTokens entries ++ .closeMapping :: rest))) := by
        simp [tokensOf]
      have hnode (ts : List Token) : node handles (fuel + 2) inBlock false (.openMapping :: ts) =
          (.map none false (flowEntries handles (fuel + 1) true ts).1
            (flowEntries handles (fuel + 1) true ts).2.isSome,
            (flowEntries handles (fuel + 1) true ts).2) := rfl
      rw [htokens, hnode]
      obtain hentries | ⟨hlate, hnone⟩ := hentries
      · exact .inl (by rw [hentries]; rfl)
      · exact .inr ⟨hlate, hnone⟩
  | .array [], 1, _, _, h => absurd h (by simp [tokensOf])
  | .object [], 1, _, _, h => absurd h (by simp [tokensOf])
  | .array (_ :: _), 1, _, _, h => absurd h (by simp [tokensOf]; omega)
  | .object (_ :: _), 1, _, _, h => absurd h (by simp [tokensOf]; omega)
  | v, 0, _, _, h => absurd (one_le_length_tokensOf v) (by omega)

/-- The items of an array, up to its end. -/
theorem flowItemsAt_items : ∀ (rest : List Json.Wide) (v : Json.Wide) (fuel : Nat)
    (ts : List Token), 3 * ((tokensOf v).length + (itemTokens rest).length) + 1 ≤ fuel →
    Makes (flowItemsAt handles fuel (tokensOf v ++ (itemTokens rest ++ .closeSequence :: ts)))
      (itemNodes (v :: rest)) ts (KeysAreBrief (.array (v :: rest)))
  | [], v, fuel + 2, ts, h => by
      have hv := node_tokensOf v (fuel + 1) false (.closeSequence :: ts) (by
        simp only [itemTokens, List.length_nil] at h
        omega)
      rw [itemTokens, List.nil_append, flowItemsAt_tokensOf]
      exact hv.listed (.inl rfl) id
  | w :: rest, v, fuel + 2, ts, h => by
      simp only [itemTokens, List.length_cons, List.length_append] at h
      have hlength := one_le_length_tokensOf v
      have hv := node_tokensOf v (fuel + 1) false
        (.comma :: (tokensOf w ++ (itemTokens rest ++ .closeSequence :: ts))) (by omega)
      have hrest := flowItemsAt_items rest w fuel ts (by omega)
      rw [← flowItems_comma] at hrest
      rw [itemTokens, List.cons_append, List.append_assoc, flowItemsAt_tokensOf]
      exact hv.listed hrest id
  | _, v, 0, _, h => absurd h (Nat.not_succ_le_zero _)
  | _, v, 1, _, h => by
      have hlength := one_le_length_tokensOf v
      omega

/-- The entries of an object, up to its end. -/
theorem flowEntriesAt_members : ∀ (rest : List (String × Json.Wide)) (k : String) (v : Json.Wide)
    (fuel : Nat) (ts : List Token),
    3 * ((keyAndColon k).length + (tokensOf v).length + (memberTokens rest).length) ≤ fuel →
    Makes (flowEntriesAt handles fuel (keyAndColon k ++
      (tokensOf v ++ (memberTokens rest ++ .closeMapping :: ts))))
      (memberNodes ((k, v) :: rest)) ts (KeysAreBrief (.object ((k, v) :: rest)))
  | rest, k, v, 0, ts, h => by
      have hlength := two_le_length_keyAndColon k
      omega
  | rest, k, v, 1, ts, h => by
      have hlength := two_le_length_keyAndColon k
      omega
  | rest, k, v, 2, ts, h => by
      have hlength := two_le_length_keyAndColon k
      omega
  | [], k, v, fuel + 3, ts, h => by
      have hlength := two_le_length_keyAndColon k
      have hv := node_tokensOf v fuel false (.closeMapping :: ts) (by
        simp only [memberTokens, List.length_nil] at h
        omega)
      rw [memberTokens, List.nil_append]
      by_cases hk : IsBrief k
      · rw [flowEntriesAt_key handles fuel v _ hk]
        exact hv.listed (.inl rfl) And.right
      · exact .inr ⟨fun hbrief => hk hbrief.1, flowEntriesAt_late handles _ _ hk⟩
  | (l, w) :: rest, k, v, fuel + 3, ts, h => by
      simp only [memberTokens, List.length_cons, List.length_append] at h
      have hlength := two_le_length_keyAndColon k
      have hv := node_tokensOf v fuel false (.comma :: (keyAndColon l ++
        (tokensOf w ++ (memberTokens rest ++ .closeMapping :: ts)))) (by omega)
      have hrest := flowEntriesAt_members rest l w (fuel + 1) ts (by omega)
      simp only [memberTokens, List.cons_append, List.append_assoc]
      by_cases hk : IsBrief k
      · rw [← flowEntries_comma] at hrest
        rw [flowEntriesAt_key handles fuel v _ hk]
        exact hv.listed hrest And.right
      · exact .inr ⟨fun hbrief => hk hbrief.1, flowEntriesAt_late handles _ _ hk⟩

end

end

/-- **The first document of a printed value** is its node, and there is nothing behind it, unless a key
is too long. -/
theorem stated_tokensOf {v : Json.Wide} (hv : IsCollection v) :
    stated (tokensOf v ++ [.streamEnd]) = ⟨some (nodeOfValue v), true⟩ ∨
      ¬ KeysAreBrief v ∧ (stated (tokensOf v ++ [.streamEnd])).sound = false := by
  have hnode := node_tokensOf knownHandles v (4 * (tokensOf v ++ [Token.streamEnd]).length + 4)
    true [.streamEnd] (by
      rw [List.length_append]
      omega)
  have hstated : stated (tokensOf v ++ [.streamEnd]) =
      .of (node knownHandles (4 * (tokensOf v ++ [Token.streamEnd]).length + 4)
        true false (tokensOf v ++ [.streamEnd])) := by
    cases hv with
    | array items => cases items <;> rfl
    | object entries => cases entries <;> rfl
  rw [hstated]
  obtain hnode | ⟨hlate, hnone⟩ := hnode
  · exact .inl (by rw [hnode]; rfl)
  · exact .inr ⟨hlate, by rw [Stated.of, hnone]; rfl⟩

/-! ### Trees of nodes -/

namespace Node

mutual

/-- Without anchors and aliases there are no names. -/
theorem numbered_nodeOfValue {names : Names} (h : names.stopped = false) :
    ∀ v : Json.Wide, numbered names (nodeOfValue v) = (names, nodeOfValue v)
  | .null => by simp [nodeOfValue, numbered, h, Names.declare?]
  | .bool _ => by simp [nodeOfValue, numbered, h, Names.declare?]
  | .number _ => by simp [nodeOfValue, numbered, h, Names.declare?]
  | .text _ => by simp [nodeOfValue, numbered, h, Names.declare?]
  | .array items => by
      simp [nodeOfValue, numbered, h, Names.declare?, numberedItems_itemNodes h items]
  | .object entries => by
      simp [nodeOfValue, numbered, h, Names.declare?, numberedEntries_memberNodes h entries]

theorem numberedItems_itemNodes {names : Names} (h : names.stopped = false) :
    ∀ items : List Json.Wide, numberedItems names (itemNodes items) = (names, itemNodes items)
  | [] => rfl
  | v :: rest => by
      simp [itemNodes, numberedItems, numbered_nodeOfValue h v, numberedItems_itemNodes h rest]

theorem numberedEntries_memberNodes {names : Names} (h : names.stopped = false) :
    ∀ entries : List (String × Json.Wide),
      numberedEntries names (memberNodes entries) = (names, memberNodes entries)
  | [] => rfl
  | (k, v) :: rest => by
      simp [memberNodes, numberedEntries, numbered, h, Names.declare?, numbered_nodeOfValue h v,
        numberedEntries_memberNodes h rest]

end

mutual

/-- The node of a value can be passed over. -/
theorem isWhole_nodeOfValue : ∀ v : Json.Wide, isWhole (nodeOfValue v) = true
  | .null => rfl
  | .bool _ => rfl
  | .number _ => rfl
  | .text _ => rfl
  | .array items => by rw [nodeOfValue, isWhole, itemsAreWhole_itemNodes items, Bool.true_and]
  | .object entries => by
      rw [nodeOfValue, isWhole, entriesAreWhole_memberNodes entries, Bool.true_and]

theorem itemsAreWhole_itemNodes : ∀ items : List Json.Wide, itemsAreWhole (itemNodes items) = true
  | [] => rfl
  | v :: rest => by
      rw [itemNodes, itemsAreWhole, isWhole_nodeOfValue v, itemsAreWhole_itemNodes rest,
        Bool.true_and]

theorem entriesAreWhole_memberNodes : ∀ entries : List (String × Json.Wide),
    entriesAreWhole (memberNodes entries) = true
  | [] => rfl
  | (k, v) :: rest => by
      rw [memberNodes, entriesAreWhole, isWhole, isWhole_nodeOfValue v,
        entriesAreWhole_memberNodes rest, Bool.true_and, Bool.true_and]

end

open Json in
mutual

/-- **A value's node is a tree as it is**, where all of it is used. -/
theorem unfold_nodeOfValue (targets : List (Nat × Node Nat)) :
    ∀ (v : Json) (room : Nat) (u : Uses) (budget : Nat), v.depth ≤ room → v.IsUsed u →
      unfold targets room u (nodeOfValue v.toWide) budget = (treeIn strictSpelling v, budget)
  | .null, room, _, budget, _, hu => unfold_scalar targets room hu _ budget
  | .bool _, room, _, budget, _, hu => unfold_scalar targets room hu _ budget
  | .number i, room, _, budget, _, hu => by
      rw [toWide, nodeOfValue, Literal.chars_ofInt]
      exact unfold_scalar targets room hu _ budget
  | .text _, room, _, budget, _, hu => unfold_scalar targets room hu _ budget
  | .array items, room + 1, u, budget, hdepth, hu => by
      have hitems := eachItem_itemNodes targets items 0 room u budget
        (Nat.le_of_succ_le_succ hdepth) hu.2
      simp [toWide, nodeOfValue, unfold, hu.1, follow, hitems, treeIn, strictSpelling, markOf]
  | .object entries, room + 1, u, budget, hdepth, hu => by
      have hentries := eachEntry_memberNodes targets entries room u budget
        (Nat.le_of_succ_le_succ hdepth) hu.2
      simp [toWide, nodeOfValue, unfold, hu.1, follow, hentries, treeIn, strictSpelling, markOf]
  | .array _, 0, _, _, hdepth, _ => absurd hdepth (Nat.not_succ_le_zero _)
  | .object _, 0, _, _, hdepth, _ => absurd hdepth (Nat.not_succ_le_zero _)

theorem eachItem_itemNodes (targets : List (Nat × Node Nat)) :
    ∀ (items : List Json) (index room : Nat) (u : Uses) (budget : Nat),
      itemsDepth items ≤ room → ItemsAreUsed u index items →
      eachItem (fun i n b => unfold targets room (u.ofIndex i) n b) index
          (itemNodes (itemsToWide items)) budget =
        (itemTreesIn strictSpelling items, budget)
  | [], _, _, _, _, _, _ => rfl
  | v :: rest, index, room, u, budget, hdepth, hu => by
      rw [itemsDepth, Nat.max_le] at hdepth
      have hv := unfold_nodeOfValue targets v room (u.ofIndex index) budget hdepth.1 hu.1
      have hrest := eachItem_itemNodes targets rest (index + 1) room u budget hdepth.2 hu.2
      simp only [itemsToWide, itemNodes, eachItem, hv, hrest, itemTreesIn]

theorem eachEntry_memberNodes (targets : List (Nat × Node Nat)) :
    ∀ (entries : List (String × Json)) (room : Nat) (u : Uses) (budget : Nat),
      entriesDepth entries ≤ room → EntriesAreUsed u entries →
      eachEntry (unfold targets room) u (memberNodes (entriesToWide entries)) budget =
        (entryTreesIn strictSpelling entries, budget)
  | [], _, _, _, _, _ => rfl
  | (k, v) :: rest, room, u, budget, hdepth, hu => by
      rw [entriesDepth, Nat.max_le] at hdepth
      have hkey : keyText (.scalar (strictSpelling.text k)) = some k :=
        congrArg some String.ofList_toList
      have hv := unfold_nodeOfValue targets v room (u.ofKey (some k)) budget hdepth.1 hu.1
      have hrest := eachEntry_memberNodes targets rest room u budget hdepth.2 hu.2
      simp only [entriesToWide, memberNodes, eachEntry,
        unfold_scalar targets room (u := .everything) rfl, hkey, hv, hrest, entryTreesIn]

end

end Node

/-! ### What is printed -/

theorem isPrinted_gap (sp : Json.Spacing) (level : Nat) : IsPrinted (sp.gap level) := by
  cases sp with
  | lines => exact isPrinted_cons.2 ⟨by decide, isPrinted_indentChars _⟩
  | tight => exact isPrinted_nil

theorem isPrinted_colon (sp : Json.Spacing) : IsPrinted sp.colon := by cases sp <;> decide

theorem isPrinted_quoted {s : String} (h : IsAscii s) : IsPrinted (Json.quoted s) :=
  quoted_eq_doubleChars h ▸ isPrinted_doubleChars s.toList

theorem isPrinted_literal (l : Json.Literal) : IsPrinted l.chars :=
  l.forall_mem_chars (fun _ hc => isPrintable_of_isDigit hc) (by decide)

section

variable (sp : Json.Spacing)

mutual

theorem isPrinted_chars : ∀ (v : Json.Wide) (level : Nat), v.Holds IsAscii IsAscii →
    IsPrinted (v.chars sp level)
  | .null, _, _ => by rw [Json.Wide.chars]; decide
  | .bool b, _, _ => by rw [Json.Wide.chars]; cases b <;> decide
  | .number l, _, _ => isPrinted_literal l
  | .text _, _, h => isPrinted_quoted h
  | .array [], _, _ => by rw [Json.Wide.chars]; decide
  | .array (v :: rest), level, h => by
      rw [Json.Wide.chars]
      exact isPrinted_cons.2 ⟨by decide, isPrinted_append.2 ⟨isPrinted_append.2
        ⟨isPrinted_append.2 ⟨isPrinted_append.2 ⟨isPrinted_gap sp _, isPrinted_chars v _ h.1⟩,
          isPrinted_itemChars rest _ h.2⟩, isPrinted_gap sp _⟩, by decide⟩⟩
  | .object [], _, _ => by rw [Json.Wide.chars]; decide
  | .object ((k, v) :: rest), level, h => by
      obtain ⟨hk, hv, hrest⟩ := h
      rw [Json.Wide.chars]
      exact isPrinted_cons.2 ⟨by decide, isPrinted_append.2 ⟨isPrinted_append.2
        ⟨isPrinted_append.2 ⟨isPrinted_append.2 ⟨isPrinted_append.2 ⟨isPrinted_append.2
          ⟨isPrinted_gap sp _, isPrinted_quoted hk⟩, isPrinted_colon sp⟩, isPrinted_chars v _ hv⟩,
          isPrinted_memberChars rest _ hrest⟩, isPrinted_gap sp _⟩, by decide⟩⟩

theorem isPrinted_itemChars : ∀ (items : List Json.Wide) (level : Nat),
    Json.Wide.ItemsHold IsAscii IsAscii items → IsPrinted (Json.Wide.itemChars sp level items)
  | [], _, _ => isPrinted_nil
  | v :: rest, level, h => by
      rw [Json.Wide.itemChars]
      exact isPrinted_cons.2 ⟨by decide, isPrinted_append.2 ⟨isPrinted_append.2
        ⟨isPrinted_gap sp _, isPrinted_chars v _ h.1⟩, isPrinted_itemChars rest _ h.2⟩⟩

theorem isPrinted_memberChars : ∀ (entries : List (String × Json.Wide)) (level : Nat),
    Json.Wide.EntriesHold IsAscii IsAscii entries →
    IsPrinted (Json.Wide.entryChars sp level entries)
  | [], _, _ => isPrinted_nil
  | (k, v) :: rest, level, h => by
      obtain ⟨hk, hv, hrest⟩ := h
      rw [Json.Wide.entryChars]
      exact isPrinted_cons.2 ⟨by decide, isPrinted_append.2 ⟨isPrinted_append.2
        ⟨isPrinted_append.2 ⟨isPrinted_append.2 ⟨isPrinted_gap sp _, isPrinted_quoted hk⟩,
          isPrinted_colon sp⟩, isPrinted_chars v _ hv⟩, isPrinted_memberChars rest _ hrest⟩⟩

end

end

/-- **What is printed in strict notation is read as its node**, unless a key is too long. -/
theorem document_strict {v : Json.Wide} (hv : IsCollection v) (hascii : v.Holds IsAscii IsAscii)
    (sp : Json.Spacing) (u : Uses) :
    document u (v.print sp) = ⟨Node.tree u (nodeOfValue v), true⟩ ∨
      ¬ KeysAreBrief v ∧ (document u (v.print sp)).sound = false := by
  rw [Json.Wide.print, document_ofList (isPrinted_chars sp v 0 hascii), tokens_chars sp hv hascii]
  obtain hstated | ⟨hlate, hsound⟩ := stated_tokensOf hv
  · exact .inl (by rw [hstated]; rfl)
  · exact .inr ⟨hlate, hsound⟩

/-- **A value that is printed in strict notation is read as its tree**, where all of it is used. -/
theorem document_printed {entries : List (String × Json)}
    (hshort : Json.EntriesHold IsAscii IsShort entries)
    (hdepth : (Json.object entries).depth ≤ Node.deepest) {u : Uses}
    (hu : (Json.object entries).IsUsed u) :
    document u (Json.object entries).print =
      ⟨Json.treeIn strictSpelling (.object entries), true⟩ := by
  have hwide : (Json.object entries).toWide.Holds IsAscii IsShort :=
    Json.Holds.toWide (.object entries) hshort
  have hascii := Json.Wide.Holds.mono (fun _ h => h) (fun _ h => h.1) _ hwide
  have hbrief : KeysAreBrief (Json.object entries).toWide :=
    Json.Wide.Holds.mono (fun _ _ => trivial) (fun _ h => h.isBrief) _ hwide
  have htree : Node.tree u (nodeOfValue (Json.object entries).toWide) =
      Json.treeIn strictSpelling (.object entries) := by
    rw [Node.tree, Node.numbered_nodeOfValue rfl, Node.unfold_nodeOfValue _ _ _ _ _ hdepth hu]
  obtain hdocument | ⟨hlate, -⟩ := document_strict (.object _) hascii .lines u
  · rw [← Json.print_toWide, ← htree]
    exact hdocument
  · exact absurd hbrief hlate

end Yaml

end CaptureConfig

/-
**What denotes attributes is read as the tree of their values.**

A body is read attribute by attribute, each up to the end of its line.  Under distinct names the
attributes are entries in the order of the text, and the tree of an expression is that of its value in
a spelling that takes each scalar for what it is; collections count as texts, too, where one is
expected.

Main definitions:

* `Hcl.spelling` — how values are spelled.

Main results:

* `Hcl.lawful_spelling` — the spelling is lawful;
* `Hcl.SpellsBody.body_eq` — **what denotes attributes is read as their expressions**;
* `Hcl.document_of_isSpelledBy` — **a text that denotes an object is read as the tree of that object**.
-/

import CaptureConfig.Hcl.Body
import CaptureConfig.Proofs.Hcl.Reading
import CaptureConfig.Proofs.Json.Value

set_option relaxedAutoImplicit false
set_option autoImplicit false

namespace CaptureConfig

namespace Hcl

/-! ### Spelling -/

/-- **How values are spelled.**  Where a text is expected, all but texts count as parts to be filled
in. -/
def spelling : Json.Spelling Atom where
  null := ⟨.null, Expr.null.asText⟩
  bool b := ⟨.bool b, (Expr.bool b).asText⟩
  number i := ⟨.int i, (Expr.int i).asText⟩
  text s := ⟨.text s, s⟩
  array items := .spelled (Expr.ofJson (.array items)).asText
  object entries := .spelled (Expr.ofJson (.object entries)).asText

/-- **The spelling is lawful.** -/
theorem lawful_spelling : spelling.Lawful where
  text? _ := rfl
  integer? _ _ := rfl
  truth? _ := rfl
  isNull_null := rfl
  isNull_bool _ := rfl
  isNull_number _ := rfl
  isNull_text _ := rfl
  value_null := rfl
  value_bool _ := rfl
  value_number _ _ := rfl
  value_text _ := rfl
  array_ne _ := by simp [spelling]
  object_ne _ := by simp [spelling]

mutual

/-- **The tree of a value's expression is the tree of the value.** -/
theorem tree_ofJson : ∀ v : Json, (Expr.ofJson v).tree = Json.treeIn spelling v
  | .null => rfl
  | .bool _ => rfl
  | .number _ => rfl
  | .text _ => rfl
  | .array items => by
      show Tree.seq _ (Expr.itemTrees (Expr.itemsOfJson items)) true = _
      rw [itemTrees_itemsOfJson items]
      rfl
  | .object entries => by
      show Tree.map _ (Expr.entryTrees (Expr.entriesOfJson entries)) true = _
      rw [entryTrees_entriesOfJson entries]
      rfl

theorem itemTrees_itemsOfJson : ∀ items : List Json,
    Expr.itemTrees (Expr.itemsOfJson items) = Json.itemTreesIn spelling items
  | [] => rfl
  | v :: rest => by
      rw [Expr.itemsOfJson, Expr.itemTrees, itemTrees_itemsOfJson rest, Json.itemTreesIn,
        ← tree_ofJson v, Expr.tree]

theorem entryTrees_entriesOfJson : ∀ entries : List (String × Json),
    Expr.entryTrees (Expr.entriesOfJson entries) = Json.entryTreesIn spelling entries
  | [] => rfl
  | (k, v) :: rest => by
      rw [Expr.entriesOfJson, Expr.entryTrees, entryTrees_entriesOfJson rest, Json.entryTreesIn,
        ← tree_ofJson v, Expr.tree]
      rfl

end

/-! ### Bodies -/

/-- The attribute of an entry. -/
def Structure.ofEntry (e : String × Json) : Structure := .attribute e.1 (Expr.ofJson e.2)

section

variable {cs es fs rest : List Char} {k : String} {v : Json} {before : List Structure}

/-- **The end of a line is found**, and ends the value in front of it. -/
theorem EndsLine.lineEnd?_eq (h : EndsLine cs rest) :
    Ends false cs ∧ lineEnd? cs = some rest := by
  cases h with
  | ended h =>
      have hstops : Stops false [] := by
        intro c hc
        cases hc
      refine ⟨⟨[], h, hstops⟩, ?_⟩
      rw [lineEnd?, h.skipBlanks_eq hstops.startsClear]
      rfl
  | lineBreak h hbreak =>
      refine ⟨⟨_, h, hbreak.stops⟩, ?_⟩
      rw [lineEnd?, h.skipBlanks_eq hbreak.stops.startsClear]
      cases hbreak <;> rfl

/-- A name, a sign and a value are an attribute, if none has that name before. -/
theorem SpellsKey.aStructure_eq (hkey : SpellsKey cs k es) (hk : IsKey k) (h : Spells es v rest)
    (hv : IsSayable v) (hrest : Ends false rest)
    (hnew : ∀ s ∈ before, s.attributeName? ≠ some k) (fuel : Nat) :
    aStructure (fuel + 1) before cs = some (.attribute k (Expr.ofJson v), rest) := by
  obtain ⟨ds, fs, hname, hsign, hblanks, hone⟩ := hkey.exists_name?_eq hk h.startsPart
  have hbehind : behindSign ('=' :: fs) = some fs := by
    rw [behindSign]
    rintro ds rfl
    exact hone rfl
  have hvalue : attributeValue fs = some (Expr.ofJson v, rest) := by
    have hlength := hblanks.length_le
    rw [attributeValue, hblanks.skipBlanks_eq (h.startsPart.startsClear false)]
    exact h.expr_eq hv hrest (by rw [fuelFor]; omega)
  have hrepeated : (before.any fun s => s.attributeName? == some k) = false := by
    rw [List.any_eq_false]
    intro s hs
    rw [beq_iff_eq]
    exact hnew s hs
  rw [aStructure, hname]
  simp only [bind, Option.bind, hsign, hbehind, String.ofList_toList, hrepeated, hvalue]
  rfl

/-- A structure up to the end of its line, behind others. -/
theorem body_of_structure {fuel : Nat} {ds : List Char} {part : Structure}
    (gap : Blanks true cs ds) (hds : StartsPart ds)
    (hpart : aStructure fuel before ds = some (part, es)) (hline : lineEnd? es = some rest) :
    body (fuel + 1) false before cs = body fuel false (before ++ [part]) rest := by
  rw [body, gap.skipBlanks_eq (hds.startsClear true)]
  obtain ⟨c, ds, rfl, hc⟩ := hds
  split
  next heq => cases heq
  next heq =>
    cases heq
    exact absurd (by decide) hc
  next => simp only [hpart, hline, bind, Option.bind]

end

/-- **What denotes attributes is read as their expressions**, behind attributes with other names. -/
theorem SpellsBody.body_eq {cs : List Char} {es : List (String × Json)} (h : SpellsBody cs es) :
    (es.map Prod.fst).Nodup → EntriesAreSayable es → ∀ {fuel : Nat} {before : List Structure},
      (∀ s ∈ before, ∀ k ∈ es.map Prod.fst, s.attributeName? ≠ some k) → cs.length + 2 ≤ fuel →
      body fuel false before cs = some (before ++ es.map Structure.ofEntry, []) := by
  induction h with
  | ended h =>
      intro _ _ fuel before _ hfuel
      obtain ⟨fuel, rfl⟩ : ∃ f, fuel = f + 1 := ⟨fuel - 1, by omega⟩
      have hclear : StartsClear true [] := by
        intro c hc
        cases hc
      rw [body, h.skipBlanks_eq hclear, List.map_nil, List.append_nil]
      rfl
  | @more cs ds es fs gs k v vs gap hkey h after _ ih =>
      intro hnodup hsayable fuel before hnew hfuel
      obtain ⟨hk, hv, hrest⟩ := hsayable
      have hkeys := List.nodup_cons.1 hnodup
      have hgap := gap.length_le
      have hkeyLength := hkey.length_lt
      have hvalue := h.length_lt
      have hline := after.length_le
      obtain ⟨hends, hafter⟩ := after.lineEnd?_eq
      obtain ⟨fuel, rfl⟩ : ∃ f, fuel = f + 2 := ⟨fuel - 2, by omega⟩
      have hstructure : aStructure (fuel + 1) before ds = _ :=
        hkey.aStructure_eq hk h hv hends (fun s hs => hnew s hs k List.mem_cons_self) fuel
      rw [body_of_structure gap (hkey.startsPart hk) hstructure hafter,
        ih hkeys.2 hrest ?_ (by omega), List.append_assoc]
      · rfl
      · -- The names before the others are those before, and the one that was read.
        intro s hs l hl
        obtain hs | hs := List.mem_append.1 hs
        · exact hnew s hs l (List.mem_cons_of_mem _ hl)
        · rw [List.mem_singleton.1 hs]
          rintro ⟨⟩
          exact hkeys.1 hl

/-! ### Bodies as trees -/

/-- A new key goes to the end. -/
theorem changeEntry_of_not_mem {k : String} {f : Option Node → Node}
    {entries : List (String × Node)} (h : k ∉ entries.map Prod.fst) :
    changeEntry k f entries = entries ++ [(k, f none)] := by
  induction entries with
  | nil => rfl
  | cons e entries ih =>
      obtain ⟨hne, htail⟩ := not_or.1 (mt List.mem_cons.2 h)
      rw [changeEntry, if_neg fun heq => hne heq.symm, ih htail]
      rfl

/-- The node of an attribute. -/
def Node.ofEntry (e : String × Json) : String × Node := (e.1, .value (Expr.ofJson e.2).tree)

/-- **Under distinct names, attributes are entries** in the order of the text. -/
theorem addStructures_ofEntry (es : List (String × Json)) (entries : List (String × Node))
    (hnodup : (entries.map Prod.fst ++ es.map Prod.fst).Nodup) :
    addStructures entries (es.map Structure.ofEntry) = entries ++ es.map Node.ofEntry := by
  induction es generalizing entries with
  | nil => rw [List.map_nil, addStructures, List.map_nil, List.append_nil]
  | cons e es ih =>
      have hnew : e.1 ∉ entries.map Prod.fst := fun hmem =>
        (List.nodup_append.1 hnodup).2.2 e.1 hmem e.1 List.mem_cons_self rfl
      rw [List.map_cons, addStructures, Structure.ofEntry, addStructure,
        changeEntry_of_not_mem hnew, ih]
      · rw [List.append_assoc]
        rfl
      · rw [List.map_append, List.append_assoc]
        exact hnodup

theorem entryTrees_ofEntry (es : List (String × Json)) :
    entryTrees (es.map Node.ofEntry) = Json.entryTreesIn spelling es := by
  induction es with
  | nil => rfl
  | cons e es ih =>
      rw [List.map_cons, Node.ofEntry, entryTrees, Node.tree, tree_ofJson, ih]
      rfl

/-- **A text that denotes an object is read as the tree of that object**, but for what is known about
the whole besides its content. -/
theorem document_of_isSpelledBy {es : List (String × Json)} {s : String}
    (h : IsSpelledBy (.object es) s) (hv : IsSayable (.object es)) :
    document s = ⟨.map .none (Json.entryTreesIn spelling es) true, true⟩ := by
  obtain ⟨h⟩ := h
  have hbody : body (fuelFor s.toList) false [] s.toList = some (es.map Structure.ofEntry, []) :=
    h.body_eq hv.1 hv.2 (by simp) (by rw [fuelFor]; omega)
  have hadded := addStructures_ofEntry es [] hv.1
  rw [List.nil_append] at hadded
  simp only [document, hbody, bodyTree, hadded, entryTrees_ofEntry]

end Hcl

end CaptureConfig

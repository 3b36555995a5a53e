/-
**A document in blocks is read as a value.**

A document has no nulls, no sequences and no negative numbers, but otherwise it is a value like those
of strict notation.  Where a document is printed in blocks, it is read as the tree of that value, in
a spelling of its own: a text stands in quotes only where it has to.

Main definitions:

* `Yaml.blockSpelling` — how values are spelled in blocks.

Main results:

* `Yaml.lawful_blockSpelling` — **the spelling is lawful**;
* `Yaml.document_block` — **a document in blocks is read as the tree of its value**.
-/

import CaptureConfig.Proofs.Yaml.Strict.Document

set_option relaxedAutoImplicit false
set_option autoImplicit false

namespace CaptureConfig

namespace Json

/-- An object whose kind of collection says nothing is spelled entry by entry. -/
theorem treeIn_object {σ : Type} {sp : Spelling σ} {entries : List (String × Json)}
    (h : sp.object entries = .none) : treeIn sp (.object entries) =
      .map .none (entries.map fun e => (.scalar (sp.text e.1), treeIn sp e.2)) true := by
  rw [treeIn, h, entryTreesIn_eq_map, List.map_map]
  rfl

end Json

namespace Yaml

/-- The only entry of a block. -/
theorem entryChars_of_isKey {k : String} (hk : IsKey k.toList) (column : Nat) (d : Doc) :
    entryChars column [(k, d)] =
      indentChars column ++ k.toList ++ ':' :: valueChars column d := by
  rw [entryChars, scalarChars, hk.1, entryChars, List.append_nil]

/-- **How values are spelled in blocks.** -/
def blockSpelling : Json.Spelling Atom :=
  { strictSpelling with text := fun s => ⟨s.toList, (styleOf s.toList).written, .none⟩ }

/-- **The spelling is lawful.** -/
theorem lawful_blockSpelling : blockSpelling.Lawful :=
  { lawful_strictSpelling with
    text? := lawful_spelling.text?
    isNull_text := lawful_spelling.isNull_text
    value_text := lawful_spelling.value_text }

mutual

theorem treeIn_toJson : ∀ d : Doc, Json.treeIn blockSpelling d.toJson = d.tree spelling
  | .text _ => rfl
  | .number _ => rfl
  | .flag _ => rfl
  | .block entries => by
      rw [Doc.toJson, Json.treeIn, entryTreesIn_entriesToJson entries, Doc.tree]
      rfl

theorem entryTreesIn_entriesToJson : ∀ entries : List (String × Doc),
    Json.entryTreesIn blockSpelling (Doc.entriesToJson entries) = Doc.entryTrees spelling entries
  | [] => rfl
  | (k, d) :: rest => by
      rw [Doc.entriesToJson, Json.entryTreesIn, treeIn_toJson d, entryTreesIn_entriesToJson rest,
        Doc.entryTrees]
      rfl

end

mutual

/-- A document is used as a whole if its value is. -/
theorem isUsed_of_toJson : ∀ (d : Doc) (u : Uses), d.toJson.IsUsed u → d.IsUsed u
  | .text _, _, h => h
  | .number _, _, h => h
  | .flag _, _, h => h
  | .block entries, u, h => ⟨h.1, areUsed_of_entriesToJson entries u h.2⟩

theorem areUsed_of_entriesToJson : ∀ (entries : List (String × Doc)) (u : Uses),
    Json.EntriesAreUsed u (Doc.entriesToJson entries) → Doc.AreUsed u entries
  | [], _, _ => trivial
  | (k, d) :: rest, u, h =>
      ⟨isUsed_of_toJson d (u.ofKey (some k)) h.1, areUsed_of_entriesToJson rest u h.2⟩

end

/-- **A document in blocks is read as the tree of its value**, where all of it is used. -/
theorem document_block {entries : List (String × Doc)} (hkeyed : IsKeyed (.block entries))
    (hdepth : (Doc.block entries).toJson.depth ≤ Node.deepest) {u : Uses}
    (hu : (Doc.block entries).toJson.IsUsed u) :
    document u (print (.block entries)) =
      ⟨Json.treeIn blockSpelling (Doc.block entries).toJson, true⟩ := by
  have htree := treeIn_toJson (.block entries)
  rw [← Json.depth_treeIn blockSpelling, htree] at hdepth
  rw [htree]
  exact document_print hkeyed hdepth (isUsed_of_toJson _ u hu)

end Yaml

end CaptureConfig

/-
**Documents in strict notation.**

In strict notation a scalar says what it is, so that the spelling of texts, numbers and truth values
is lawful without further ado.  What denotes a value is read as a tree, and a tree that is not
nested too deep is used as it is; so every text that denotes a value is a document, printed ones
among them.

Main definitions:

* `Json.spelling` — how strict notation spells scalars.

Main results:

* `Json.lawful_spelling` — the spelling is lawful;
* `Json.limit_of_depth` — a tree that is not nested too deep;
* `Json.document_of_isSpelledBy` — **a text that denotes a value is read as its tree**;
* `Json.document_print` — a printed document is.
-/

import CaptureConfig.Proofs.Document.Tree
import CaptureConfig.Proofs.Json.Printed

set_option relaxedAutoImplicit false
set_option autoImplicit false

namespace CaptureConfig

namespace Json

/-- **How strict notation spells scalars.** -/
def spelling : Doc.Spelling Atom := ⟨.text, fun n => .int n, .bool⟩

theorem lawful_spelling : spelling.Lawful where
  text? _ := rfl
  integer? _ _ := rfl
  truth? _ := rfl
  isNull_text _ := rfl
  isNull_number _ := rfl
  isNull_flag _ := rfl
  value_text _ := rfl
  value_number _ _ := rfl
  value_flag _ := rfl

/-! ### The tree of a document -/

mutual

theorem tree_toJson : ∀ d : Doc, d.toJson.tree = d.tree spelling
  | .text _ => rfl
  | .number _ => rfl
  | .flag _ => rfl
  | .block entries => by rw [Doc.toJson, tree, entryTrees_entriesToJson entries, Doc.tree]

theorem entryTrees_entriesToJson : ∀ entries : List (String × Doc),
    entryTrees (Doc.entriesToJson entries) = Doc.entryTrees spelling entries
  | [] => rfl
  | (k, d) :: rest => by
      rw [Doc.entriesToJson, entryTrees, tree_toJson d, entryTrees_entriesToJson rest,
        Doc.entryTrees]
      rfl

end

mutual

theorem fits_toJson : ∀ d : Doc, d.Fits → d.toJson.Fits
  | .text _, _ => trivial
  | .number n, h => ⟨Int.le_trans (by decide) (Int.natCast_nonneg n), Int.ofNat_lt.2 h⟩
  | .flag _, _ => trivial
  | .block entries, h => entriesFit_entriesToJson entries h

theorem entriesFit_entriesToJson : ∀ entries : List (String × Doc), Doc.EntriesFit entries →
    EntriesFit (Doc.entriesToJson entries)
  | [], _ => trivial
  | (_, d) :: rest, h => ⟨fits_toJson d h.1, entriesFit_entriesToJson rest h.2⟩

end

/-! ### The limit of nesting -/

mutual

/-- **A tree that is not nested too deep is used as it is.** -/
theorem limit_of_depth : ∀ (t : Tree Atom) (room : Nat) (u : Uses), t.depth ≤ room →
    limit room u t = t
  | .scalar _, _, _, _ => rfl
  | .seq mark items closed, room, u, h => by
      rw [Tree.depth] at h
      rw [limit, if_neg (show room ≠ 0 by omega),
        limitItems_of_depth items (room - 1) u 0 (by omega), ite_self]
  | .map mark entries closed, room, u, h => by
      rw [Tree.depth] at h
      rw [limit, if_neg (show room ≠ 0 by omega),
        limitEntries_of_depth entries (room - 1) u (by omega), ite_self]
  | .unreadable, _, _, _ => rfl
  | .broken, _, _, _ => rfl

theorem limitItems_of_depth : ∀ (items : List (Tree Atom)) (room : Nat) (u : Uses) (index : Nat),
    Tree.itemsDepth items ≤ room → limitItems room u index items = items
  | [], _, _, _, _ => rfl
  | t :: rest, room, u, index, h => by
      rw [Tree.itemsDepth] at h
      rw [limitItems, limit_of_depth t room _ (by omega),
        limitItems_of_depth rest room u (index + 1) (by omega)]

theorem limitEntries_of_depth : ∀ (entries : List (Tree Atom × Tree Atom)) (room : Nat) (u : Uses),
    Tree.entriesDepth entries ≤ room → limitEntries room u entries = entries
  | [], _, _, _ => rfl
  | (k, t) :: rest, room, u, h => by
      rw [Tree.entriesDepth] at h
      rw [limitEntries, limit_of_depth t room _ (by omega),
        limitEntries_of_depth rest room u (by omega)]

end

/-- **A text that denotes a value is read as its tree.** -/
theorem document_of_isSpelledBy {v : Json} {s : String} (h : v.IsSpelledBy s) (hfits : v.Fits)
    (hdepth : v.tree.depth ≤ deepest) (u : Uses) : document u s = ⟨v.tree, true⟩ := by
  rw [Wide.document_of_isSpelledBy (isSpelledBy_iff.1 h), tree_toWide v hfits,
    limit_of_depth _ _ u hdepth]

/-- A printed document is read as its tree. -/
theorem document_print {d : Doc} (hfits : d.Fits) (hdepth : (d.tree spelling).depth ≤ deepest)
    (u : Uses) : document u d.toJson.print = ⟨d.tree spelling, true⟩ := by
  rw [← tree_toJson] at hdepth ⊢
  exact document_of_isSpelledBy (isSpelledBy_print d.toJson) (fits_toJson d hfits) hdepth u

end Json

end CaptureConfig

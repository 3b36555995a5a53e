/-
**Documents in block notation.**

The tokens of a document make a node without anchors, aliases and tags, so that nothing in it has to
be replaced: as a tree, it is what strict notation makes of the document, but for the spelling of
its scalars.

Main definitions:

* `Yaml.nodeOf` — the node of a document.

Main results:

* `Yaml.node_valueTokens` — the tokens of a document make its node;
* `Yaml.Node.unfold_nodeOf` — such a node is a tree as it is;
* `Yaml.document_print` — **a printed document is read as its tree**.
-/

import CaptureConfig.Proofs.Yaml.Spelling
import CaptureConfig.Yaml.Alias

set_option relaxedAutoImplicit false
set_option autoImplicit false

namespace CaptureConfig

namespace Yaml

section

variable {ν : Type}

mutual

/-- **The node of a document.** -/
def nodeOf : Doc → Node ν
  | .text s => .scalar none (spelling.text s)
  | .number n => .scalar none (spelling.number n)
  | .flag b => .scalar none (spelling.flag b)
  | .block entries => .map none false (entryNodes entries) true

/-- The nodes of the entries of a block. -/
def entryNodes : List (String × Doc) → List (Node ν × Node ν)
  | [] => []
  | (k, d) :: rest => (.scalar none (spelling.text k), nodeOf d) :: entryNodes rest

end

end

/-! ### Nodes of tokens -/

section

variable (handles : Handles)

/-- No document begins where a value ends. -/
theorem nodeUnless_valueTokens (d : Doc) (fuel : Nat) (inBlock flat : Bool) (rest : List Token) :
    nodeUnless handles endsBlockValue (fuel + 1) inBlock flat (valueTokens d ++ rest) =
      node handles fuel inBlock flat (valueTokens d ++ rest) := by
  cases d <;> rfl

/-- A key. -/
theorem nodeUnless_key {k : String} (hk : IsKey k.toList) (fuel : Nat) (rest : List Token) :
    nodeUnless handles endsBlockValue (fuel + 2) true true (.scalar k.toList .plainly :: rest) =
      (.scalar none (spelling.text k), some rest) := by
  have hspelled : spelling.text k = ⟨k.toList, .plainly, .none⟩ := by
    show Atom.mk k.toList (styleOf k.toList).written .none = _
    rw [hk.1]
    rfl
  rw [hspelled]
  rfl

mutual

/-- **The tokens of a document make its node.** -/
theorem node_valueTokens : ∀ (d : Doc) (fuel : Nat) (flat : Bool) (rest : List Token), IsKeyed d →
    3 * (valueTokens d).length ≤ fuel →
    node handles fuel true flat (valueTokens d ++ rest) = (nodeOf d, some rest)
  | .text s, fuel + 1, _, rest, _, _ => rfl
  | .number n, fuel + 1, _, rest, _, _ => rfl
  | .flag b, fuel + 1, _, rest, _, _ => rfl
  | .block entries, fuel + 1, flat, rest, h, hfuel => by
      have hentries := blockEntries_entryTokens entries fuel rest h.2 (by
        simp only [valueTokens, List.length_cons, List.length_append] at hfuel
        omega)
      have htokens : valueTokens (.block entries) ++ rest =
          .blockMapping :: (entryTokens entries ++ .blockEnd :: rest) := by
        simp [valueTokens]
      have hnode : node handles (fuel + 1) true flat
          (.blockMapping :: (entryTokens entries ++ .blockEnd :: rest)) =
          (.map none false (blockEntries handles fuel (entryTokens entries ++ .blockEnd :: rest)).1
            (blockEntries handles fuel (entryTokens entries ++ .blockEnd :: rest)).2.isSome,
            (blockEntries handles fuel (entryTokens entries ++ .blockEnd :: rest)).2) := rfl
      rw [htokens, hnode, hentries]
      rfl
  | .text _, 0, _, _, _, h => absurd h (by simp [valueTokens])
  | .number _, 0, _, _, _, h => absurd h (by simp [valueTokens])
  | .flag _, 0, _, _, _, h => absurd h (by simp [valueTokens])
  | .block _, 0, _, _, _, h => absurd h (by simp [valueTokens])

theorem blockEntries_entryTokens : ∀ (entries : List (String × Doc)) (fuel : Nat)
    (rest : List Token), AreKeyed entries → 3 * (entryTokens entries).length + 1 ≤ fuel →
    blockEntries handles fuel (entryTokens entries ++ .blockEnd :: rest) =
      (entryNodes entries, some rest)
  | [], fuel + 1, _, _, _ => rfl
  | (k, d) :: entries, fuel + 4, rest, h, hfuel => by
      obtain ⟨hk, hd, hentries⟩ := h
      simp only [entryTokens, List.length_cons, List.length_append] at hfuel
      have hrest := blockEntries_entryTokens entries (fuel + 3) rest hentries (by omega)
      have hvalue := node_valueTokens d (fuel + 1) true (entryTokens entries ++ .blockEnd :: rest)
        hd (by omega)
      simp only [entryTokens, List.cons_append, List.append_assoc]
      rw [blockEntries, nodeUnless_key handles hk]
      simp only [valueOf]
      rw [nodeUnless_valueTokens, hvalue]
      simp only [hrest]
      rfl
  | [], 0, _, _, h => absurd h (by simp)
  | (_, _) :: _, 0, _, _, h => absurd h (by simp)
  | (_, _) :: _, 1, _, _, h => absurd h (by simp [entryTokens])
  | (_, _) :: _, 2, _, _, h => absurd h (by simp only [entryTokens, List.length_cons]; omega)
  | (_, _) :: _, 3, _, _, h => absurd h (by simp only [entryTokens, List.length_cons]; omega)

end

end

/-- **The first document of a printed one** is its node, and there is nothing behind it. -/
theorem stated_valueTokens {entries : List (String × Doc)} (h : IsKeyed (.block entries)) :
    stated (valueTokens (.block entries) ++ [.streamEnd]) =
      ⟨some (nodeOf (.block entries)), true⟩ := by
  have hnode := node_valueTokens knownHandles (.block entries)
    (4 * (valueTokens (.block entries) ++ [Token.streamEnd]).length + 4) false [.streamEnd] h (by
      rw [List.length_append]
      omega)
  have hstated : stated (valueTokens (.block entries) ++ [.streamEnd]) =
      .of (node knownHandles (4 * (valueTokens (.block entries) ++ [Token.streamEnd]).length + 4)
        true false (valueTokens (.block entries) ++ [.streamEnd])) := by
    rw [stated.eq_def]
    rfl
  rw [hstated, hnode]
  rfl

/-! ### Trees of nodes -/

namespace Node

mutual

/-- Without anchors and aliases there are no names. -/
theorem numbered_nodeOf {names : Names} (h : names.stopped = false) :
    ∀ d : Doc, numbered names (nodeOf d) = (names, nodeOf d)
  | .text _ => by simp [nodeOf, numbered, h, Names.declare?]
  | .number _ => by simp [nodeOf, numbered, h, Names.declare?]
  | .flag _ => by simp [nodeOf, numbered, h, Names.declare?]
  | .block entries => by
      simp [nodeOf, numbered, h, Names.declare?, numberedEntries_entryNodes h entries]

theorem numberedEntries_entryNodes {names : Names} (h : names.stopped = false) :
    ∀ entries : List (String × Doc),
      numberedEntries names (entryNodes entries) = (names, entryNodes entries)
  | [] => rfl
  | (k, d) :: rest => by
      simp [entryNodes, numberedEntries, numbered, h, Names.declare?, numbered_nodeOf h d,
        numberedEntries_entryNodes h rest]

end

theorem unfold_scalar (targets : List (Nat × Node Nat)) (room : Nat) {u : Uses}
    (hu : u.isNothing = false) (a : Atom) (budget : Nat) :
    unfold targets room u (.scalar none a) budget = (.scalar a, budget) := by
  cases room <;> simp [unfold, hu, follow]

mutual

/-- **A document's node is a tree as it is**, where all of it is used. -/
theorem unfold_nodeOf (targets : List (Nat × Node Nat)) :
    ∀ (d : Doc) (room : Nat) (u : Uses) (budget : Nat), (d.tree spelling).depth ≤ room →
      d.IsUsed u → unfold targets room u (nodeOf d) budget = (d.tree spelling, budget)
  | .text _, room, _, budget, _, hu => unfold_scalar targets room hu _ budget
  | .number _, room, _, budget, _, hu => unfold_scalar targets room hu _ budget
  | .flag _, room, _, budget, _, hu => unfold_scalar targets room hu _ budget
  | .block entries, room + 1, u, budget, hdepth, hu => by
      have hentries := eachEntry_entryNodes targets entries room u budget
        (Nat.le_of_succ_le_succ hdepth) hu.2
      simp [nodeOf, unfold, hu.1, follow, hentries, Doc.tree, markOf]
  | .block _, 0, _, _, hdepth, _ => absurd hdepth (Nat.not_succ_le_zero _)

theorem eachEntry_entryNodes (targets : List (Nat × Node Nat)) :
    ∀ (entries : List (String × Doc)) (room : Nat) (u : Uses) (budget : Nat),
      Tree.entriesDepth (Doc.entryTrees spelling entries) ≤ room → Doc.AreUsed u entries →
      eachEntry (unfold targets room) u (entryNodes entries) budget =
        (Doc.entryTrees spelling entries, budget)
  | [], _, _, _, _, _ => rfl
  | (k, d) :: rest, room, u, budget, hdepth, hu => by
      simp only [Doc.entryTrees, Tree.entriesDepth] at hdepth
      have hkey : keyText (.scalar (spelling.text k)) = some k := congrArg some String.ofList_toList
      have hvalue := unfold_nodeOf targets d room (u.ofKey (some k)) budget (by omega) hu.1
      have hrest := eachEntry_entryNodes targets rest room u budget (by omega) hu.2
      simp only [entryNodes, eachEntry, unfold_scalar targets room (u := .everything) rfl, hkey,
        hvalue, hrest, Doc.entryTrees]

end

end Node

/-! ### What is printed -/

theorem isPrintable_of_isDigit {c : Char} (h : Digits.isDigit 10 c = true) :
    isPrintable c = true := by
  obtain ⟨hlow, hhigh⟩ := (Digits.isDigit_ten_iff c).1 h
  have hlow : 0x30 ≤ c.toNat := hlow
  have hhigh : c.toNat ≤ 0x39 := hhigh
  simp only [isPrintable, Bool.or_eq_true, Bool.and_eq_true, decide_eq_true_eq]
  exact .inl (.inr ⟨by omega, by omega⟩)

mutual

theorem isPrinted_valueChars : ∀ (d : Doc) (column : Nat), IsPrinted (valueChars column d)
  | .text s, column => by
      refine isPrinted_cons.2 ⟨by decide, isPrinted_append.2 ⟨isPrinted_scalarChars _ s, ?_⟩⟩
      split <;> decide
  | .number n, _ => by
      refine isPrinted_cons.2 ⟨by decide, isPrinted_append.2 ⟨fun c hc => ?_, by decide⟩⟩
      exact isPrintable_of_isDigit (Digits.isDigit_of_mem_ofNat hc)
  | .flag b, column => by
      show IsPrinted (' ' :: ((if b then "true".toList else "false".toList) ++ ['\n']))
      cases b <;> decide
  | .block [], column => by
      show IsPrinted " \x7b\x7d\n".toList
      decide
  | .block ((k, d) :: rest), column =>
      isPrinted_cons.2 ⟨by decide, isPrinted_entryChars ((k, d) :: rest) (column + 2)⟩

theorem isPrinted_entryChars : ∀ (entries : List (String × Doc)) (column : Nat),
    IsPrinted (entryChars column entries)
  | [], _ => isPrinted_nil
  | (k, d) :: rest, column => by
      rw [entryChars]
      exact isPrinted_append.2 ⟨isPrinted_append.2 ⟨isPrinted_append.2
        ⟨isPrinted_indentChars column, isPrinted_scalarChars _ k⟩,
        isPrinted_cons.2 ⟨by decide, isPrinted_valueChars d column⟩⟩,
        isPrinted_entryChars rest column⟩

end

/-- A text of what can be written as it is is read as its tokens say. -/
theorem document_ofList {cs : List Char} (h : IsPrinted cs) (u : Uses) :
    document u (String.ofList cs) =
      ⟨(stated (tokens cs)).root.elim (.scalar .empty) (Node.tree u), (stated (tokens cs)).sound⟩ := by
  -- It holds neither the mark of the order of octets nor what may not occur.
  have hmark : (cs.head? == some byteOrderMark) = false := by
    rw [beq_eq_false_iff_ne]
    intro hmark
    exact absurd (h _ (List.mem_of_head? hmark)) (by decide)
  have hallowed : cs.all isAllowed = true :=
    List.all_eq_true.2 fun c hc => isAllowed_of_isPrintable (h c hc)
  rw [document, String.toList_ofList]
  simp only [hmark, Bool.false_eq_true, if_false, hallowed, Bool.not_true]

/-- A scalar that is written plainly and has no tag. -/
def plain (s : String) : Atom := ⟨s.toList, .plainly, .none⟩

theorem text?_plain (s : String) : Scalar.text? (plain s) = some s :=
  congrArg some String.ofList_toList

/-- A text of what can be written as it is, its tokens and their node known. -/
theorem document_of_tokens {s : String} (h : IsPrinted s.toList) (ts : List Token)
    (htokens : tokens s.toList = ts) {n : Node String} (hstated : stated ts = ⟨some n, true⟩)
    (u : Uses) : document u s = ⟨Node.tree u n, true⟩ := by
  have hdocument := document_ofList h u
  rw [String.ofList_toList, htokens, hstated] at hdocument
  exact hdocument

/-- **A printed document is read as its tree**, where all of it is used. -/
theorem document_print {entries : List (String × Doc)} (hkeyed : IsKeyed (.block entries))
    (hdepth : (Doc.tree spelling (.block entries)).depth ≤ Node.deepest) {u : Uses}
    (hu : Doc.IsUsed u (.block entries)) :
    document u (print (.block entries)) = ⟨Doc.tree spelling (.block entries), true⟩ := by
  match entries, hkeyed with
  | (k, d) :: rest, hkeyed =>
      have htree : Node.tree u (nodeOf (.block ((k, d) :: rest))) =
          Doc.tree spelling (.block ((k, d) :: rest)) := by
        rw [Node.tree, Node.numbered_nodeOf rfl, Node.unfold_nodeOf _ _ _ _ _ hdepth hu]
      rw [print, document_ofList (isPrinted_entryChars ((k, d) :: rest) 0), tokens_print hkeyed,
        stated_valueTokens hkeyed, Option.elim_some, htree]
      rintro ⟨⟩

end Yaml

end CaptureConfig

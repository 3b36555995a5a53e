/-
**A repeated key is never resolved.**

An object may hold a key of its record twice, in any positions and with any values.  Wherever in a
value such an object is read as one of the records of a property file, what is read of the value is
refused: the two entries are still there in its tree, in their order, unless the tree cannot be read
as far down.  The induction is on the way from the property file to that object.

Main definitions:

* `Block.Repeats` — **a record somewhere in a value holds a key of its own twice**.

Main results:

* `Block.Repeats.spoilt_tree`, `Block.Spoilt.limit` — in strict notation its tree is spoilt;
* `Block.Repeats.spoilt_unfold` — in block notation that of its node is;
* `PropertyFile.refused_of_repeats` — **a text of such a value is no property file**.
-/

import CaptureConfig.Proofs.Json.Frame
import CaptureConfig.Proofs.Property.Block
import CaptureConfig.Proofs.Property.Concord

set_option relaxedAutoImplicit false
set_option autoImplicit false

namespace CaptureConfig

open Json

/-! ### Two of a kind -/

/-- What comes twice comes once, and once again behind. -/
theorem exists_eq_append_of_two_le_count {α β : Type} [BEq α] [LawfulBEq α] {a : α}
    {es : List (α × β)} (h : 2 ≤ (es.map Prod.fst).count a) :
    ∃ before b between b' behind, es = before ++ (a, b) :: (between ++ (a, b') :: behind) := by
  induction es with
  | nil => exact absurd h (by simp)
  | cons e es ih =>
      rw [List.map_cons, List.count_cons] at h
      by_cases he : e.1 == a
      · have hmem : a ∈ es.map Prod.fst := by
          rw [if_pos he] at h
          exact List.one_le_count_iff.1 (by omega)
        obtain ⟨⟨a', b'⟩, hb', rfl⟩ := List.mem_map.1 hmem
        obtain ⟨between, behind, rfl⟩ := List.append_of_mem hb'
        obtain ⟨a'', b⟩ := e
        obtain rfl : a'' = a' := eq_of_beq he
        exact ⟨[], b, between, b', behind, rfl⟩
      · rw [if_neg he] at h
        obtain ⟨before, b, between, b', behind, rfl⟩ := ih h
        exact ⟨e :: before, b, between, b', behind, rfl⟩

namespace Block

/-- **A record somewhere in a value holds a key of its own twice**, the value being read as a record
itself.  A record in it stands under its key, or in an array in the position of that key. -/
inductive Repeats : Block → Wide → Prop
  | here {b : Block} {name : String} {entries : List (String × Wide)} (known : name ∈ b.names)
      (twice : 2 ≤ (entries.map Prod.fst).count name) : Repeats b (.object entries)
  | entry {b c : Block} {name : String} {v : Wide} {entries : List (String × Wide)}
      (holds : b.Holds name c) (under : (name, v) ∈ entries) (inner : Repeats c v) :
      Repeats b (.object entries)
  | item {b c : Block} {name : String} {v : Wide} {items : List Wide} {i : Nat}
      (holds : b.Holds name c) (position : b.names[i]? = some name) (at_i : items[i]? = some v)
      (inner : Repeats c v) : Repeats b (.array items)

/-- Such a value is a collection. -/
theorem Repeats.isCollection {b : Block} {v : Wide} (h : b.Repeats v) : Yaml.IsCollection v := by
  cases h with
  | here => exact .object _
  | entry => exact .object _
  | item => exact .array _

end Block

/-! ### Strict notation -/

namespace Json

theorem Wide.entryTrees_eq_map (entries : List (String × Wide)) :
    Wide.entryTrees entries = entries.map fun e => (.scalar (.text e.1), e.2.tree) := by
  induction entries with
  | nil => rfl
  | cons e rest ih => rw [Wide.entryTrees, ih]; rfl

theorem Wide.itemTrees_eq_map (items : List Wide) : Wide.itemTrees items = items.map Wide.tree := by
  induction items with
  | nil => rfl
  | cons v rest ih => rw [Wide.itemTrees, ih]; rfl

end Json

namespace Block

/-- **The tree of a value with a repeated key is spoilt.** -/
theorem Repeats.spoilt_tree {b : Block} {v : Wide} (h : b.Repeats v) : b.Spoilt v.tree := by
  have hkey (k : String) : (Reader.textAs "field identifier").read (.scalar (Atom.text k)) = .ok k :=
    Layout.read_identifier lawful_strict.text? k
  induction h with
  | here known twice =>
      obtain ⟨before, v, between, v', behind, rfl⟩ := exists_eq_append_of_two_le_count twice
      rw [Wide.tree, Wide.entryTrees_eq_map, List.map_append, List.map_cons, List.map_append,
        List.map_cons]
      exact .repeated known (hkey _) (hkey _)
  | entry holds under _ ih =>
      obtain ⟨before, behind, rfl⟩ := List.append_of_mem under
      rw [Wide.tree, Wide.entryTrees_eq_map, List.map_append, List.map_cons]
      exact .entry holds (hkey _) ih
  | item holds position at_i _ ih =>
      rw [Wide.tree, Wide.itemTrees_eq_map]
      exact .item holds position (by rw [List.getElem?_map, at_i]; rfl) ih

/-- A spoilt tree is spoilt as far down as it is read. -/
theorem Spoilt.limit {b : Block} {t : Tree Atom} (h : b.Spoilt t) (room : Nat) (u : Uses) :
    b.Spoilt (Json.limit room u t) := by
  induction h generalizing room u with
  | repeated known first second =>
      rw [Json.limit]
      split
      next => exact .repeated known first second
      next =>
        split
        next => exact .unreadable
        next =>
          rw [limitEntries_eq_map, List.map_append, List.map_cons, List.map_append, List.map_cons]
          exact .repeated known first second
  | entry holds identifier inner ih =>
      rw [Json.limit]
      split
      next => exact .entry holds identifier inner
      next =>
        split
        next => exact .unreadable
        next =>
          rw [limitEntries_eq_map, List.map_append, List.map_cons]
          exact .entry holds identifier (ih _ _)
  | item holds position at_i inner ih =>
      rw [Json.limit]
      split
      next => exact .item holds position at_i inner
      next =>
        split
        next => exact .unreadable
        next => exact .item holds position (by rw [getElem?_limitItems, at_i]; rfl) (ih _ _)
  | unreadable =>
      rw [Json.limit]
      · exact .unreadable
      · exact nofun
      · exact nofun

end Block

/-! ### Block notation -/

namespace Yaml

namespace Node

theorem memberNodes_eq_map (entries : List (String × Wide)) :
    (memberNodes entries : List (Node Nat × Node Nat)) =
      entries.map fun e => (.scalar none (strictSpelling.text e.1), nodeOfValue e.2) := by
  induction entries with
  | nil => rfl
  | cons e rest ih => rw [memberNodes, ih]; rfl

theorem itemNodes_eq_map (items : List Wide) :
    (itemNodes items : List (Node Nat)) = items.map nodeOfValue := by
  induction items with
  | nil => rfl
  | cons v rest ih => rw [itemNodes, ih]; rfl

/-- Entries are taken one after another. -/
theorem eachEntry_append {f : Uses → Node Nat → Nat → Tree Atom × Nat} {u : Uses}
    (es es' : List (Node Nat × Node Nat)) (budget : Nat) :
    (eachEntry f u (es ++ es') budget).1 = (eachEntry f u es budget).1 ++
      (eachEntry f u es' (eachEntry f u es budget).2).1 := by
  induction es generalizing budget with
  | nil => rfl
  | cons e es ih =>
      obtain ⟨k, n⟩ := e
      rw [List.cons_append]
      simp only [eachEntry, ih, List.cons_append]

/-- An item is taken with its index, whatever is left of the budget by then. -/
theorem getElem?_eachItem {f : Nat → Node Nat → Nat → Tree Atom × Nat} {n : Node Nat} {i : Nat}
    (items : List (Node Nat)) (index budget : Nat) (h : items[i]? = some n) :
    ∃ b, (eachItem f index items budget).1[i]? = some (f (index + i) n b).1 := by
  induction items generalizing index i budget with
  | nil => cases h
  | cons m rest ih =>
      cases i with
      | zero =>
          obtain rfl := Option.some.inj h
          exact ⟨budget, rfl⟩
      | succ i =>
          obtain ⟨b, hb⟩ := ih (index + 1) (f index m budget).2 h
          rw [Nat.add_right_comm] at hb
          exact ⟨b, hb⟩

section

variable {targets : List (Nat × Node Nat)} {u : Uses} {room budget : Nat}

/-- A whole collection is taken entry by entry, unless it cannot be read. -/
theorem unfold_map {entries : List (Node Nat × Node Nat)}
    (h : isWhole (.map none false entries true) = true) :
    (unfold targets room u (.map none false entries true) budget).1 = .unreadable ∨
      ∃ room', (unfold targets room u (.map none false entries true) budget).1 =
        .map .none (eachEntry (unfold targets room') u entries budget).1 true := by
  cases hu : u.isNothing with
  | true =>
      left
      cases room <;> simp [unfold, hu, passed, h]
  | false =>
      cases room with
      | zero => exact .inl (by simp [unfold, hu, follow])
      | succ room => exact .inr ⟨room, by simp [unfold, hu, follow, markOf]⟩

/-- So is one of items. -/
theorem unfold_seq {items : List (Node Nat)} (h : isWhole (.seq none false items true) = true) :
    (unfold targets room u (.seq none false items true) budget).1 = .unreadable ∨
      ∃ room', (unfold targets room u (.seq none false items true) budget).1 =
        .seq .none (eachItem (fun i n b => unfold targets room' (u.ofIndex i) n b) 0 items budget).1
          true := by
  cases hu : u.isNothing with
  | true =>
      left
      cases room <;> simp [unfold, hu, passed, h]
  | false =>
      cases room with
      | zero => exact .inl (by simp [unfold, hu, follow])
      | succ room => exact .inr ⟨room, by simp [unfold, hu, follow, markOf]⟩

end

end Node

end Yaml

namespace Block

open Yaml Yaml.Node

/-- **The tree of the node of a value with a repeated key is spoilt.** -/
theorem Repeats.spoilt_unfold {b : Block} {v : Wide} (h : b.Repeats v)
    (targets : List (Nat × Yaml.Node Nat)) (room : Nat) (u : Uses) (budget : Nat) :
    b.Spoilt (unfold targets room u (nodeOfValue v) budget).1 := by
  have hkey (k : String) :
      (Reader.textAs "field identifier").read (.scalar (strictSpelling.text k)) = .ok k :=
    Layout.read_identifier lawful_strictSpelling.text? k
  have hunfold (room : Nat) (a : Yaml.Atom) (budget : Nat) :
      unfold targets room .everything (.scalar none a) budget = (.scalar a, budget) :=
    unfold_scalar targets room rfl a budget
  induction h generalizing room u budget with
  | here known twice =>
      obtain ⟨before, v, between, v', behind, rfl⟩ := exists_eq_append_of_two_le_count twice
      obtain hread | ⟨room', hread⟩ := unfold_map (isWhole_nodeOfValue (.object _))
      · exact hread ▸ .unreadable
      · rw [nodeOfValue, hread, memberNodes_eq_map, List.map_append, List.map_cons, List.map_append,
          List.map_cons, eachEntry_append]
        simp only [eachEntry, eachEntry_append, hunfold]
        exact .repeated known (hkey _) (hkey _)
  | entry holds under _ ih =>
      obtain ⟨before, behind, rfl⟩ := List.append_of_mem under
      obtain hread | ⟨room', hread⟩ := unfold_map (isWhole_nodeOfValue (.object _))
      · exact hread ▸ .unreadable
      · rw [nodeOfValue, hread, memberNodes_eq_map, List.map_append, List.map_cons,
          eachEntry_append]
        simp only [eachEntry, hunfold]
        exact .entry holds (hkey _) (ih _ _ _)
  | @item b c name v items i holds position at_i _ ih =>
      obtain hread | ⟨room', hread⟩ := unfold_seq (isWhole_nodeOfValue (.array _))
      · exact hread ▸ .unreadable
      · have hnode : (itemNodes items : List (Yaml.Node Nat))[i]? = some (nodeOfValue v) := by
          rw [itemNodes_eq_map, List.getElem?_map, at_i]
          rfl
        obtain ⟨budget', htree⟩ := getElem?_eachItem
          (f := fun i n b => unfold targets room' (u.ofIndex i) n b) _ 0 budget hnode
        rw [nodeOfValue, hread]
        exact .item holds position htree (ih _ _ _)

end Block

/-! ### Property files -/

namespace PropertyFile

/-- **A text of a value with a repeated key is no property file**: in strict notation whatever its
blanks and escapes, and in block notation, where all texts and keys consist of printable characters
of ASCII, if it is printed in lines or without blanks. -/
theorem refused_of_repeats {v : Wide} (h : Block.file.Repeats v) :
    (∀ s, v.IsSpelledBy s → ∃ fault, ofText .json s = .error fault) ∧
    (v.Holds Yaml.IsAscii Yaml.IsAscii → ∀ sp, ∃ fault, ofText .yaml (v.print sp) = .error fault) := by
  refine ⟨fun s hs => ?_, fun hascii sp => ?_⟩
  · have hspoilt := h.spoilt_tree.limit Json.deepest (Properties.Reading.file : Reader Atom _).uses
    cases hread : ofText .json s with
    | error fault => exact ⟨fault, rfl⟩
    | ok f =>
        have hdocument : Reader.document _ (Json.document _ s) = .ok f := hread
        rw [Wide.document_of_isSpelledBy hs, Reader.document_sound] at hdocument
        exact absurd hdocument (Block.refuses_of_spoilt hspoilt f)
  · cases hread : ofText .yaml (v.print sp) with
    | error fault => exact ⟨fault, rfl⟩
    | ok f =>
        have hdocument : Reader.document _ (Yaml.document _ (v.print sp)) = .ok f := hread
        obtain ⟨hroot, hsound⟩ := Reader.document_eq_ok_iff.1 hdocument
        obtain hdocument | ⟨-, hlate⟩ := Yaml.document_strict h.isCollection hascii sp
          (Properties.Reading.file : Reader Yaml.Atom _).uses
        · have hspoilt := h.spoilt_unfold (Yaml.Node.targets (Yaml.nodeOfValue v)) Yaml.Node.deepest
            (Properties.Reading.file : Reader Yaml.Atom _).uses
            ((Yaml.nodeOfValue v).pieces * Yaml.Node.aliasesPerPiece)
          rw [hdocument, Yaml.Node.tree, Yaml.Node.numbered_nodeOfValue rfl] at hroot
          exact absurd hroot (Block.refuses_of_spoilt hspoilt f)
        · cases hsound.symm.trans hlate

/-! ### Non-vacuity -/

namespace Twice

/-- A property file whose innermost record holds a key twice, with the same value; the record stands
in an array, in the position of its key. -/
def written : Wide :=
  .object [
    ("spec", .object []),
    ("pcap-api", .object [
      ("1e3", .array [.null, .number (.ofInt (-1))]),
      ("listen", .array [.null, .object [
        ("enabled", .bool true),
        ("\"", .object [("ca", .text "a"), ("ca", .text "b")]),
        ("enabled", .bool true)]])])]

theorem repeats_written : Block.file.Repeats written := by
  refine .entry .properties (.tail _ (.head _)) (.entry .listen (.tail _ (.head _)) ?_)
  refine @Block.Repeats.item .listen .tls "tls" _ _ 1 .tls rfl rfl ?_
  exact @Block.Repeats.here .tls "enabled" _ (.head _) (by decide)

theorem holds_written : written.Holds Yaml.IsAscii Yaml.IsAscii := by
  simp only [written, Wide.Holds, Wide.EntriesHold, Wide.ItemsHold]
  decide

end Twice

open Twice in
theorem refused_twice : Block.file.Repeats written ∧
    (∃ fault, ofText .json (written.print .tight) = .error fault) ∧
    ∃ fault, ofText .yaml (written.print .lines) = .error fault := by
  obtain ⟨hjson, hyaml⟩ := refused_of_repeats repeats_written
  exact ⟨repeats_written, hjson _ (written.isSpelledBy_print .tight), hyaml holds_written .lines⟩

end PropertyFile

end CaptureConfig

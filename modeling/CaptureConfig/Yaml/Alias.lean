/-
**Aliases.**

An alias stands for the node with its anchor.  Anchors are numbered as they come: a name gets the
number of the names that are known before it, so that a name used again moves on to a new node, and
a name used again after others may leave its number to the next one.  An alias keeps the number
that its name has at that time, and stands for the last node with that number.

Where a tree is read, aliases are replaced by what they stand for, down to a depth, and not more
often than a hundred times for each piece of the document; where it is passed over they are not.

Main definitions:

* `Yaml.Node.numbered` — a node with numbers for names;
* `Yaml.Node.targets` — the nodes that aliases can stand for;
* `Yaml.Node.unfold` — a node as a tree without aliases;
* `Yaml.document`, `Yaml.read` — the document of a text, and what a reader makes of it.
-/

import CaptureConfig.Schema.Reader
import CaptureConfig.Yaml.Node

set_option relaxedAutoImplicit false
set_option autoImplicit false

namespace CaptureConfig

namespace Yaml

namespace Node

/-! ### Numbers for names -/

/-- The names that are known and their numbers; `stopped` behind an unknown one. -/
structure Names where
  known : List (String × Nat)
  stopped : Bool

/-- A name with the next number. -/
def Names.declare (names : Names) (name : String) : Names :=
  let n := names.known.length
  if (names.known.lookup name).isSome then
    { names with known := names.known.map fun (k, i) => if k == name then (k, n) else (k, i) }
  else { names with known := names.known ++ [(name, n)] }

/-- An anchor with the next number. -/
def Names.declare? (names : Names) : Option String → Names × Option Nat
  | none => (names, none)
  | some name => (names.declare name, some names.known.length)

mutual

/-- **A node with numbers for names.**  An alias of an unknown name is a broken place, and nothing
behind it counts. -/
def numbered (names : Names) : Node String → Names × Node Nat
  | .scalar anchor a =>
      if names.stopped then (names, .broken)
      else
        let (names, i) := names.declare? anchor
        (names, .scalar i a)
  | .alias name =>
      match if names.stopped then none else names.known.lookup name with
      | some i => (names, .alias i)
      | none => ({ names with stopped := true }, .broken)
  | .seq anchor marked items closed =>
      if names.stopped then (names, .broken)
      else
        let (names, i) := names.declare? anchor
        let (names, items) := numberedItems names items
        (names, .seq i marked items closed)
  | .map anchor marked entries closed =>
      if names.stopped then (names, .broken)
      else
        let (names, i) := names.declare? anchor
        let (names, entries) := numberedEntries names entries
        (names, .map i marked entries closed)
  | .broken => ({ names with stopped := true }, .broken)

/-- Items with numbers for names. -/
def numberedItems (names : Names) : List (Node String) → Names × List (Node Nat)
  | [] => (names, [])
  | n :: rest =>
      let (names, n) := numbered names n
      let (names, rest) := numberedItems names rest
      (names, n :: rest)

/-- Entries with numbers for names. -/
def numberedEntries (names : Names) :
    List (Node String × Node String) → Names × List (Node Nat × Node Nat)
  | [] => (names, [])
  | (k, n) :: rest =>
      let (names, k) := numbered names k
      let (names, n) := numbered names n
      let (names, rest) := numberedEntries names rest
      (names, (k, n) :: rest)

end

/-! ### What aliases stand for -/

/-- A node under its number. -/
def under (anchor : Option Nat) (n : Node Nat) : List (Nat × Node Nat) :=
  anchor.elim [] fun i => [(i, n)]

mutual

/-- **The nodes that aliases can stand for**, in the order in which they begin. -/
def targets : Node Nat → List (Nat × Node Nat)
  | .scalar anchor a => under anchor (.scalar anchor a)
  | .seq anchor marked items closed =>
      under anchor (.seq anchor marked items closed) ++ targetsOfItems items
  | .map anchor marked entries closed =>
      under anchor (.map anchor marked entries closed) ++ targetsOfEntries entries
  | .alias _ => []
  | .broken => []

/-- The nodes among items that aliases can stand for. -/
def targetsOfItems : List (Node Nat) → List (Nat × Node Nat)
  | [] => []
  | n :: rest => targets n ++ targetsOfItems rest

/-- The nodes among entries that aliases can stand for. -/
def targetsOfEntries : List (Node Nat × Node Nat) → List (Nat × Node Nat)
  | [] => []
  | (k, n) :: rest => targets k ++ targets n ++ targetsOfEntries rest

end

mutual

/-- The number of pieces of a node: the scalars, the aliases, and the beginnings and the ends of
collections. -/
def pieces : Node Nat → Nat
  | .scalar _ _ => 1
  | .alias _ => 1
  | .seq _ _ items closed => 1 + piecesOfItems items + closed.toNat
  | .map _ _ entries closed => 1 + piecesOfEntries entries + closed.toNat
  | .broken => 0

/-- The number of pieces of items. -/
def piecesOfItems : List (Node Nat) → Nat
  | [] => 0
  | n :: rest => pieces n + piecesOfItems rest

/-- The number of pieces of entries. -/
def piecesOfEntries : List (Node Nat × Node Nat) → Nat
  | [] => 0
  | (k, n) :: rest => pieces k + pieces n + piecesOfEntries rest

end

mutual

/-- A node that can be passed over. -/
def isWhole : Node Nat → Bool
  | .scalar _ _ => true
  | .alias _ => true
  | .seq _ _ items closed => itemsAreWhole items && closed
  | .map _ _ entries closed => entriesAreWhole entries && closed
  | .broken => false

/-- Items that can be passed over. -/
def itemsAreWhole : List (Node Nat) → Bool
  | [] => true
  | n :: rest => isWhole n && itemsAreWhole rest

/-- Entries that can be passed over. -/
def entriesAreWhole : List (Node Nat × Node Nat) → Bool
  | [] => true
  | (k, n) :: rest => isWhole k && isWhole n && entriesAreWhole rest

end

/-! ### Trees without aliases -/

/-- A node that is passed over. -/
def passed (n : Node Nat) : Tree Atom := if n.isWhole then .unreadable else .broken

/-- The node that a node is or stands for; `budget` aliases may still be followed. -/
def follow (targets : List (Nat × Node Nat)) (budget : Nat) : Node Nat → Option (Node Nat × Nat)
  | .alias i =>
      if budget = 0 then none else (targets.reverse.lookup i).map fun n => (n, budget - 1)
  | n => some (n, budget)

/-- The mark of a collection with or without a tag of an application's own. -/
def markOf (marked : Bool) : Mark := if marked then .ownType else .none

/-- The text of a key. -/
def keyText : Tree Atom → Option String
  | .scalar a => some a.string
  | _ => none

/-- Items one after another, each with its index and what is left of the budget. -/
def eachItem (f : Nat → Node Nat → Nat → Tree Atom × Nat) (index : Nat) :
    List (Node Nat) → Nat → List (Tree Atom) × Nat
  | [], budget => ([], budget)
  | n :: rest, budget =>
      let (t, budget) := f index n budget
      let (ts, budget) := eachItem f (index + 1) rest budget
      (t :: ts, budget)

/-- Entries one after another; what is used of a value depends on its key. -/
def eachEntry (f : Uses → Node Nat → Nat → Tree Atom × Nat) (u : Uses) :
    List (Node Nat × Node Nat) → Nat → List (Tree Atom × Tree Atom) × Nat
  | [], budget => ([], budget)
  | (k, n) :: rest, budget =>
      let (k, budget) := f .everything k budget
      let (t, budget) := f (u.ofKey (keyText k)) n budget
      let (ts, budget) := eachEntry f u rest budget
      ((k, t) :: ts, budget)

/-- **A node as a tree without aliases**, with what is left of the budget.  Collections that are
nested deeper than there is room, and aliases beyond the budget, cannot be read. -/
def unfold (targets : List (Nat × Node Nat)) :
    (room : Nat) → Uses → Node Nat → (budget : Nat) → Tree Atom × Nat
  | 0, u, n, budget =>
      if u.isNothing then (n.passed, budget)
      else match follow targets budget n with
        | some (.scalar _ a, budget) => (.scalar a, budget)
        | some (.broken, budget) => (.broken, budget)
        | some (_, budget) => (.unreadable, budget)
        | none => (.unreadable, budget)
  | room + 1, u, n, budget =>
      if u.isNothing then (n.passed, budget)
      else match follow targets budget n with
        | some (.scalar _ a, budget) => (.scalar a, budget)
        | some (.seq _ marked items closed, budget) =>
            let (ts, budget) :=
              eachItem (fun i n b => unfold targets room (u.ofIndex i) n b) 0 items budget
            (.seq (markOf marked) ts closed, budget)
        | some (.map _ marked entries closed, budget) =>
            let (ts, budget) := eachEntry (unfold targets room) u entries budget
            (.map (markOf marked) ts closed, budget)
        | some (.broken, budget) => (.broken, budget)
        | some (.alias _, budget) => (.unreadable, budget)
        | none => (.unreadable, budget)

/-- How deep collections may be nested where they are read. -/
def deepest : Nat := 128

/-- How often aliases may be followed, for each piece of a document. -/
def aliasesPerPiece : Nat := 100

/-- The tree of a document's node. -/
def tree (u : Uses) (n : Node String) : Tree Atom :=
  let n := (numbered ⟨[], false⟩ n).2
  (unfold n.targets deepest u n (n.pieces * aliasesPerPiece)).1

end Node

/-- **The document of a text.**  A text without a document counts as an empty one; one with a
character that must not occur in it is broken. -/
def document (u : Uses) (s : String) : Document Atom :=
  let cs := s.toList
  let cs := if cs.head? == some byteOrderMark then cs.drop 1 else cs
  if ! cs.all isAllowed then ⟨.broken, false⟩
  else
    let d := stated (tokens cs)
    ⟨d.root.elim (.scalar .empty) (Node.tree u), d.sound⟩

/-- **What a reader makes of a text.** -/
def read {α : Type} (r : Reader Atom α) (s : String) : Except Fault α :=
  r.document (document r.uses s)

end Yaml

end CaptureConfig

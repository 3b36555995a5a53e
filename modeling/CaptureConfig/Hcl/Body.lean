/-
**Bodies.**

A body consists of attributes and of blocks, which have labels and a body of their own.  As a tree
it is a mapping: labels are keys of mappings inside each other, blocks with the same name and
labels form a sequence, and where an attribute and a block share a name the later one counts.

Main definitions:

* `Hcl.Structure` — attributes and blocks;
* `Hcl.body` — the structures of a text;
* `Hcl.Node`, `Hcl.bodyTree` — a body as a tree;
* `Hcl.document`, `Hcl.read` — the document of a text, and what a reader makes of it.
-/

import CaptureConfig.Hcl.Reader
import CaptureConfig.Schema.Reader

set_option relaxedAutoImplicit false
set_option autoImplicit false

namespace CaptureConfig

namespace Hcl

/-- An attribute, or a block. -/
inductive Structure where
  | attribute (name : String) (value : Expr)
  | block (name : String) (labels : List String) (body : List Structure)
  deriving Inhabited

/-- The name of an attribute. -/
def Structure.attributeName? : Structure → Option String
  | .attribute name _ => some name
  | .block _ _ _ => none

/-! ### Reading -/

/-- The value of an attribute, behind its name and the sign. -/
def attributeValue (cs : List Char) : Option (Expr × List Char) :=
  expr (fuelFor cs) false (skipBlanks false cs)

/-- The sign between the name of an attribute and its value. -/
def behindSign : List Char → Option (List Char)
  | '=' :: '=' :: _ => none
  | '=' :: rest => some rest
  | _ => none

/-- A label: a name, or a text between quotes that has no parts to be filled in. -/
def label? (cs : List Char) : Option (String × List Char) :=
  match cs with
  | '"' :: rest =>
      match template (fuelFor rest) true [] rest with
      | some (read, _, false, rest) => some (String.ofList read, rest)
      | _ => none
  | cs => (name? cs).map fun (n, rest) => (String.ofList n, rest)

/-- The labels of a block and what is behind its opening bracket. -/
def labels : (fuel : Nat) → List Char → Option (List String × List Char)
  | 0, _ => none
  | fuel + 1, cs =>
      match skipBlanks false cs with
      | '\x7b' :: rest => some ([], rest)
      | cs => do
          let (l, rest) ← label? cs
          let (ls, rest) ← labels fuel rest
          pure (l :: ls, rest)

/-- A block on one line: nothing, or an attribute. -/
def oneLine (cs : List Char) : Option (List Structure × List Char) :=
  match skipBlanks false cs with
  | '\x7d' :: rest => some ([], rest)
  | cs => do
      let (n, rest) ← name? cs
      let rest ← behindSign (skipBlanks false rest)
      let (e, rest) ← attributeValue rest
      pure ([.attribute (String.ofList n) e], ← behindText "\x7d" (skipBlanks false rest))

mutual

/-- **The structures of a text behind others**, up to the closing bracket of a block or the end of
the text.  An attribute must not be repeated. -/
def body : (fuel : Nat) → (inBlock : Bool) → (before : List Structure) → List Char →
    Option (List Structure × List Char)
  | 0, _, _, _ => none
  | fuel + 1, inBlock, before, cs =>
      match skipBlanks true cs with
      | [] => if inBlock then none else some (before, [])
      | '\x7d' :: rest => if inBlock then some (before, rest) else none
      | cs => do
          let (s, rest) ← aStructure fuel before cs
          body fuel inBlock (before ++ [s]) (← lineEnd? rest)

/-- An attribute or a block behind other structures. -/
def aStructure : (fuel : Nat) → (before : List Structure) → List Char →
    Option (Structure × List Char)
  | 0, _, _ => none
  | fuel + 1, before, cs => do
      let (n, rest) ← name? cs
      let name := String.ofList n
      match behindSign (skipBlanks false rest) with
      | some rest =>
          if before.any fun s => s.attributeName? == some name then none
          else do
            let (e, rest) ← attributeValue rest
            pure (.attribute name e, rest)
      | none => do
          let (ls, rest) ← labels (rest.length + 1) rest
          let (b, rest) ← match break? (skipLineComment (skipBlanks false rest)) with
            | some rest => body fuel true [] rest
            | none => oneLine rest
          pure (.block name ls b, rest)

end

/-! ### Bodies as trees -/

/-- What stands under a key: a value, further labels, or the bodies of blocks. -/
inductive Node where
  | value (t : Tree Atom)
  | labelled (entries : List (String × Node))
  | blocks (bodies : List (Tree Atom))
  deriving Inhabited

/-- A value, or the body of a block. -/
inductive Leaf where
  | value (t : Tree Atom)
  | block (t : Tree Atom)

/-- A leaf below labels. -/
def Node.under (leaf : Leaf) : List String → Node
  | [] =>
      match leaf with
      | .value t => .value t
      | .block t => .blocks [t]
  | l :: ls => .labelled [(l, under leaf ls)]

/-- Entries with the one of a key changed; a new key goes to the end. -/
def changeEntry (key : String) (f : Option Node → Node) :
    List (String × Node) → List (String × Node)
  | [] => [(key, f none)]
  | (k, n) :: rest => if k = key then (k, f (some n)) :: rest else (k, n) :: changeEntry key f rest

/-- What stands under a key, with a leaf below labels added. -/
def Node.add (leaf : Leaf) : List String → Option Node → Node
  | l :: ls, some (.labelled entries) => .labelled (changeEntry l (add leaf ls) entries)
  | [], some (.blocks ts) =>
      match leaf with
      | .block t => .blocks (ts ++ [t])
      | .value t => .value t
  | ls, _ => under leaf ls

/-- A text as a tree. -/
def textTree (s : String) : Tree Atom := .scalar ⟨.text s, s⟩

mutual

/-- What stands under a key as a tree. -/
def Node.tree : Node → Tree Atom
  | .value t => t
  | .labelled entries => .map .none (entryTrees entries) true
  | .blocks [t] => t
  | .blocks ts => .seq .none ts true

/-- Entries as trees. -/
def entryTrees : List (String × Node) → List (Tree Atom × Tree Atom)
  | [] => []
  | (k, n) :: rest => (textTree k, n.tree) :: entryTrees rest

end

mutual

/-- The entries of structures behind others. -/
def addStructures (entries : List (String × Node)) : List Structure → List (String × Node)
  | [] => entries
  | s :: rest => addStructures (addStructure entries s) rest

/-- The entries of a structure behind others. -/
def addStructure (entries : List (String × Node)) : Structure → List (String × Node)
  | .attribute name e => changeEntry name (Node.add (.value e.tree) []) entries
  | .block name ls b =>
      changeEntry name
        (Node.add (.block (.map .none (entryTrees (addStructures [] b)) true)) ls) entries

end

/-- **A body as a tree.** -/
def bodyTree (b : List Structure) : Tree Atom := .map .none (entryTrees (addStructures [] b)) true

/-- **The document of a text.**  A text with anything wrong in it is broken as a whole. -/
def document (s : String) : Document Atom :=
  let cs := s.toList
  match body (fuelFor cs) false [] cs with
  | some (b, _) => ⟨bodyTree b, true⟩
  | none => ⟨.broken, false⟩

/-- **What a reader makes of a text.** -/
def read {α : Type} (r : Reader Atom α) (s : String) : Except Fault α := r.document (document s)

end Hcl

end CaptureConfig

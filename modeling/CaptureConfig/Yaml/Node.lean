/-
**Nodes.**

A node is a scalar, a collection, or an alias that stands for another node.  Nodes are made of
tokens, as far as those go: where they are wrong, or end, a node is broken or lacks its end.

Main definitions:

* `Yaml.Node` — nodes with anchors and aliases of any kind;
* `Yaml.node` — the node at the front of tokens;
* `Yaml.Stated`, `Yaml.stated` — the first document of a text.
-/

import CaptureConfig.Yaml.Atom
import CaptureConfig.Yaml.Token.Stream

set_option relaxedAutoImplicit false
set_option autoImplicit false

namespace CaptureConfig

namespace Yaml

/-- A node.  A collection can have a tag of an application's own, and it can lack its end. -/
inductive Node (ν : Type) where
  | scalar (anchor : Option ν) (a : Atom)
  | alias (target : ν)
  | seq (anchor : Option ν) (marked : Bool) (items : List (Node ν)) (closed : Bool)
  | map (anchor : Option ν) (marked : Bool) (entries : List (Node ν × Node ν)) (closed : Bool)
  | broken
  deriving Inhabited

/-- The node where nothing is written. -/
def Node.empty {ν : Type} : Node ν := .scalar none .empty

/-! ### Tags -/

/-- The handles of a document and what they stand for. -/
abbrev Handles := List (List Char × List UInt8)

/-- The handles that are known without a directive. -/
def knownHandles : Handles :=
  [(['!'], Utf8.encode "!"), (['!', '!'], Utf8.encode "tag:yaml.org,2002:")]

/-- The octets of a tag. -/
def TagToken.octets (handles : Handles) (t : TagToken) : Option (List UInt8) :=
  if t.handle.isEmpty then some t.suffix
  else (handles.lookup t.handle).map fun front => front ++ t.suffix

/-- What stands before the content of a node. -/
structure NodeProperties where
  anchor : Option String
  /-- The octets of its tag. -/
  tag : Option (List UInt8)

namespace NodeProperties

/-- No anchor and no tag. -/
def isNone (p : NodeProperties) : Bool := p.anchor.isNone && p.tag.isNone

/-- The tag of a collection, or of a node without content. -/
def kind (p : NodeProperties) : Tag := p.tag.elim .none Tag.ofOctets

/-- The tag of a scalar; a lone exclamation mark is none. -/
def scalarKind (p : NodeProperties) : Tag :=
  if p.tag == some (Utf8.encode "!") then .none else p.kind

/-- The collection has a tag of an application's own. -/
def marked (p : NodeProperties) : Bool := p.kind == .own

end NodeProperties

/-- An anchor and a tag, in either order, and what is behind them.  A tag with an unknown handle is
wrong. -/
def properties (handles : Handles) : List Token → Option (NodeProperties × List Token)
  | .anchor a :: .tag t :: rest => (t.octets handles).map fun o => (⟨some a, some o⟩, rest)
  | .anchor a :: rest => some (⟨some a, none⟩, rest)
  | .tag t :: .anchor a :: rest => (t.octets handles).map fun o => (⟨some a, some o⟩, rest)
  | .tag t :: rest => (t.octets handles).map fun o => (⟨none, some o⟩, rest)
  | ts => some (⟨none, none⟩, ts)

/-! ### Nodes of tokens -/

/-- A node, and the tokens behind it; behind a broken place there are none. -/
abbrev NodeTaken := Node String × Option (List Token)

/-- Items or entries, and the tokens behind them, unless their end is missing. -/
abbrev ListTaken (α : Type) := List α × Option (List Token)

/-- An item or an entry in front of others. -/
def ListTaken.cons {α : Type} (a : α) (t : ListTaken α) : ListTaken α := (a :: t.1, t.2)

/-- A token at which an item of a block without indentation of its own is empty. -/
def endsBlockValue : Token → Bool
  | .key => true
  | .value => true
  | .blockEnd => true
  | _ => false

/-- A token at which an item of a block is empty. -/
def endsItem : Token → Bool
  | .item => true
  | .blockEnd => true
  | _ => false

/-- A token at which a value in square brackets is empty. -/
def endsPairValue : Token → Bool
  | .comma => true
  | .closeSequence => true
  | _ => false

/-- A token at which a value in curly brackets is empty. -/
def endsFlowValue : Token → Bool
  | .comma => true
  | .closeMapping => true
  | _ => false

mutual

/-- **The node at the front of tokens.**  Inside brackets blocks are no nodes; where the flag says
so, items may begin a sequence without indentation of its own. -/
def node (handles : Handles) : (fuel : Nat) → (inBlock flat : Bool) → List Token → NodeTaken
  | 0, _, _, _ => (.broken, none)
  | fuel + 1, inBlock, flat, ts =>
      match ts with
      | .alias n :: rest => (.alias n, some rest)
      | _ =>
          match properties handles ts with
          | none => (.broken, none)
          | some (p, ts) =>
              match ts with
              | [] => (.broken, none)
              | t :: rest =>
                  if t == .item && flat then
                    let (items, rest) := flatItems handles fuel (t :: rest)
                    (.seq p.anchor p.marked items rest.isSome, rest)
                  else match t with
                    | .scalar text written =>
                        (.scalar p.anchor ⟨text, written, p.scalarKind⟩, some rest)
                    | .openSequence =>
                        let (items, rest) := flowItems handles fuel true rest
                        (.seq p.anchor p.marked items rest.isSome, rest)
                    | .openMapping =>
                        let (entries, rest) := flowEntries handles fuel true rest
                        (.map p.anchor p.marked entries rest.isSome, rest)
                    | t =>
                        if inBlock && t == .blockSequence then
                          let (items, rest) := blockItems handles fuel rest
                          (.seq p.anchor p.marked items rest.isSome, rest)
                        else if inBlock && t == .blockMapping then
                          let (entries, rest) := blockEntries handles fuel rest
                          (.map p.anchor p.marked entries rest.isSome, rest)
                        else if p.isNone then (.broken, none)
                        else (.scalar p.anchor ⟨[], .plainly, p.kind⟩, some (t :: rest))

/-- A node, or the empty one at a token that ends it. -/
def nodeUnless (handles : Handles) (ends : Token → Bool) :
    (fuel : Nat) → (inBlock flat : Bool) → List Token → NodeTaken
  | 0, _, _, _ => (.broken, none)
  | _ + 1, _, _, [] => (.broken, none)
  | fuel + 1, inBlock, flat, t :: rest =>
      if ends t then (.empty, some (t :: rest)) else node handles fuel inBlock flat (t :: rest)

/-- The items of a block, up to its end. -/
def blockItems (handles : Handles) : (fuel : Nat) → List Token → ListTaken (Node String)
  | 0, _ => ([], none)
  | fuel + 1, .item :: rest =>
      match nodeUnless handles endsItem fuel true false rest with
      | (n, none) => ([n], none)
      | (n, some rest) => (blockItems handles fuel rest).cons n
  | _ + 1, .blockEnd :: rest => ([], some rest)
  | _ + 1, _ => ([], none)

/-- Items in the column of the mapping around them. -/
def flatItems (handles : Handles) : (fuel : Nat) → List Token → ListTaken (Node String)
  | 0, _ => ([], none)
  | fuel + 1, .item :: rest =>
      match nodeUnless handles (fun t => t == .item || endsBlockValue t) fuel true false rest with
      | (n, none) => ([n], none)
      | (n, some rest) => (flatItems handles fuel rest).cons n
  | _ + 1, [] => ([], none)
  | _ + 1, ts => ([], some ts)

/-- The entries of a block, up to its end. -/
def blockEntries (handles : Handles) :
    (fuel : Nat) → List Token → ListTaken (Node String × Node String)
  | 0, _ => ([], none)
  | fuel + 1, .key :: rest =>
      match nodeUnless handles endsBlockValue fuel true true rest with
      | (k, none) => ([(k, .broken)], none)
      | (k, some rest) =>
          match valueOf handles endsBlockValue fuel true rest with
          | (n, none) => ([(k, n)], none)
          | (n, some rest) => (blockEntries handles fuel rest).cons (k, n)
  | _ + 1, .blockEnd :: rest => ([], some rest)
  | _ + 1, _ => ([], none)

/-- The value behind a key, or the empty node if there is none. -/
def valueOf (handles : Handles) (ends : Token → Bool) :
    (fuel : Nat) → (inBlock : Bool) → List Token → NodeTaken
  | 0, _, _ => (.broken, none)
  | _ + 1, _, [] => (.broken, none)
  | fuel + 1, inBlock, .value :: rest => nodeUnless handles ends fuel inBlock inBlock rest
  | _ + 1, _, ts => (.empty, some ts)

/-- The items in square brackets, up to the closing one. -/
def flowItems (handles : Handles) :
    (fuel : Nat) → (first : Bool) → List Token → ListTaken (Node String)
  | 0, _, _ => ([], none)
  | _ + 1, _, .closeSequence :: rest => ([], some rest)
  | fuel + 1, true, ts => flowItemsAt handles fuel ts
  | _ + 1, false, .comma :: .closeSequence :: rest => ([], some rest)
  | fuel + 1, false, .comma :: rest => flowItemsAt handles fuel rest
  | _ + 1, false, _ => ([], none)

/-- The items in square brackets where one begins. -/
def flowItemsAt (handles : Handles) : (fuel : Nat) → List Token → ListTaken (Node String)
  | 0, _ => ([], none)
  | fuel + 1, .key :: rest =>
      match pair handles fuel rest with
      | (n, none) => ([n], none)
      | (n, some rest) => (flowItems handles fuel false rest).cons n
  | fuel + 1, ts =>
      match node handles fuel false false ts with
      | (n, none) => ([n], none)
      | (n, some rest) => (flowItems handles fuel false rest).cons n

/-- A mapping of one entry in square brackets, behind the indicator of its key.  Where the key is
missing, the token in its place is passed over. -/
def pair (handles : Handles) : (fuel : Nat) → List Token → NodeTaken
  | 0, _ => (.map none false [] false, none)
  | _ + 1, [] => (.map none false [] false, none)
  | fuel + 1, t :: rest =>
      let (k, rest) :=
        if t == .value || endsPairValue t then (.empty, some rest)
        else node handles fuel false false (t :: rest)
      match rest with
      | none => (.map none false [(k, .broken)] false, none)
      | some rest =>
          match valueOf handles endsPairValue fuel false rest with
          | (n, none) => (.map none false [(k, n)] false, none)
          | (n, some []) => (.map none false [(k, n)] false, none)
          | (n, some rest) => (.map none false [(k, n)] true, some rest)

/-- The entries in curly brackets, up to the closing one. -/
def flowEntries (handles : Handles) :
    (fuel : Nat) → (first : Bool) → List Token → ListTaken (Node String × Node String)
  | 0, _, _ => ([], none)
  | _ + 1, _, .closeMapping :: rest => ([], some rest)
  | fuel + 1, true, ts => flowEntriesAt handles fuel ts
  | _ + 1, false, .comma :: .closeMapping :: rest => ([], some rest)
  | fuel + 1, false, .comma :: rest => flowEntriesAt handles fuel rest
  | _ + 1, false, _ => ([], none)

/-- The entries in curly brackets where one begins; without the indicator of a key there is only a
key. -/
def flowEntriesAt (handles : Handles) :
    (fuel : Nat) → List Token → ListTaken (Node String × Node String)
  | 0, _ => ([], none)
  | fuel + 1, .key :: rest =>
      match nodeUnless handles (fun t => t == .value || endsFlowValue t) fuel false false rest with
      | (k, none) => ([(k, .broken)], none)
      | (k, some rest) =>
          match valueOf handles endsFlowValue fuel false rest with
          | (n, none) => ([(k, n)], none)
          | (n, some rest) => (flowEntries handles fuel false rest).cons (k, n)
  | fuel + 1, ts =>
      match node handles fuel false false ts with
      | (k, none) => ([(k, .broken)], none)
      | (k, some []) => ([(k, .broken)], none)
      | (k, some rest) => (flowEntries handles fuel false rest).cons (k, .empty)

end

/-! ### Documents -/

/-- Directives of a document: whether one of the version has been seen, and the handles. -/
structure Directives where
  versionSeen : Bool
  handles : Handles

/-- Directives with one more; a second version, one that is unknown, and a handle that is declared
twice are wrong. -/
def Directives.add (d : Directives) : Directive → Option Directives
  | .version major minor =>
      if d.versionSeen || major != 1 || ! (minor == 1 || minor == 2) then none
      else some { d with versionSeen := true }
  | .tag handle front =>
      if (d.handles.lookup handle).isSome then none
      else some { d with handles := d.handles ++ [(handle, front)] }

/-- The directives in front of a document. -/
def directives (d : Directives) : List Token → Option (Directives × List Token)
  | .directive new :: rest => do directives (← d.add new) rest
  | ts => some (d, ts)

/-- A token that stands between documents. -/
def isBetween : Token → Bool
  | .directive _ => true
  | .documentStart => true
  | .documentEnd => true
  | .streamEnd => true
  | _ => false

/-- The first document of a text, if there is one, and whether nothing but its end is behind it. -/
structure Stated where
  root : Option (Node String)
  sound : Bool

/-- Only the end of the text, possibly behind marks of an end. -/
def onlyEnd (ts : List Token) : Bool := ts.dropWhile (· == .documentEnd) == [.streamEnd]

/-- A document of a node and the tokens behind it. -/
def Stated.of (t : NodeTaken) : Stated := ⟨some t.1, t.2.any onlyEnd⟩

/-- **The first document of tokens.** -/
def stated (ts : List Token) : Stated :=
  let fuel := 4 * ts.length + 4
  match ts with
  | [.streamEnd] => ⟨none, true⟩
  | [] => .of (.broken, none)
  | .documentStart :: rest => .of (nodeUnless knownHandles isBetween fuel true false rest)
  | .directive _ :: _ =>
      match directives ⟨false, []⟩ ts with
      | some (d, .documentStart :: rest) =>
          .of (nodeUnless (d.handles ++ knownHandles) isBetween fuel true false rest)
      | _ => .of (.broken, none)
  | _ => .of (node knownHandles fuel true false ts)

end Yaml

end CaptureConfig

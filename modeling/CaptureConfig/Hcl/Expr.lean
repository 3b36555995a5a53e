/-
**Expressions.**

A property may be given by an expression.  Literals, arrays and objects are data; everything else,
variables, calls, operations, is not evaluated: it stands for the text that it is written as,
between `$\x7b` and `\x7d`.  Where a text is expected, that goes for every expression but texts.

Main definitions:

* `Hcl.Expr` — the expressions;
* `Hcl.Expr.print` — an expression on one line;
* `Hcl.Expr.asText` — what an expression counts as where a text is expected;
* `Hcl.Atom`, `Hcl.Expr.tree` — an expression as a tree.
-/

import CaptureConfig.Schema.Scalar

set_option relaxedAutoImplicit false
set_option autoImplicit false

namespace CaptureConfig

namespace Hcl

/-- An expression. -/
inductive Expr where
  | null
  | bool (b : Bool)
  | int (i : Int)
  | float (f : Binary64)
  | text (s : String)
  /-- A name without quotes, as a key. -/
  | name (s : String)
  | array (items : List Expr)
  | object (entries : List (Expr × Expr))
  /-- A text with parts to be filled in, as it is written. -/
  | template (source : String)
  | parens (inner : Expr)
  /-- Anything that would have to be evaluated, as it is written. -/
  | formula (source : String)
  deriving Repr, Inhabited

namespace Expr

/-- How a number with a point is written. -/
def floatStyle : Shortest.Style := ⟨some (-4, 16), false⟩

/-- A character between quotes. -/
def quotedChar (c : Char) : List Char :=
  if c = '"' ∨ c = '\\' then ['\\', c]
  else if c = '\n' then ['\\', 'n']
  else if c = '\r' then ['\\', 'r']
  else if c = '\t' then ['\\', 't']
  else [c]

/-- A text between quotes. -/
def quoted (s : String) : String := String.ofList ('"' :: s.toList.flatMap quotedChar ++ ['"'])

/-- A text in which the beginnings of parts to be filled in are doubled. -/
def doubled : List Char → List Char
  | '$' :: '\x7b' :: rest => '$' :: '$' :: '\x7b' :: doubled rest
  | '%' :: '\x7b' :: rest => '%' :: '%' :: '\x7b' :: doubled rest
  | c :: rest => c :: doubled rest
  | [] => []

mutual

/-- **An expression on one line.** -/
def print : Expr → String
  | .null => "null"
  | .bool b => if b then "true" else "false"
  | .int i => Digits.intText i
  | .float f => Shortest.text floatStyle f
  | .text s => quoted (String.ofList (doubled s.toList))
  | .name s => s
  | .array items => "[" ++ ", ".intercalate (printItems items) ++ "]"
  | .object [] => "\x7b\x7d"
  | .object (e :: rest) =>
      "\x7b " ++ ", ".intercalate (printEntries (e :: rest)) ++ " \x7d"
  | .template source => quoted source
  | .parens inner => "(" ++ print inner ++ ")"
  | .formula source => source

/-- The items of an array. -/
def printItems : List Expr → List String
  | [] => []
  | e :: rest => print e :: printItems rest

/-- The entries of an object. -/
def printEntries : List (Expr × Expr) → List String
  | [] => []
  | (k, e) :: rest => (print k ++ " = " ++ print e) :: printEntries rest

end

/-- A part to be filled in. -/
def interpolated (source : String) : String := "$\x7b" ++ source ++ "\x7d"

/-- **What an expression counts as where a text is expected.** -/
def asText : Expr → String
  | .text s => s
  | .name s => s
  | .template source => source
  | e => interpolated e.print

end Expr

/-- What a scalar is when anything is expected. -/
inductive Content where
  | null
  | bool (b : Bool)
  | int (i : Int)
  | float (f : Binary64)
  | text (s : String)
  deriving DecidableEq, Repr

/-- A scalar, with what it counts as where a text is expected. -/
structure Atom where
  content : Content
  shown : String
  deriving DecidableEq, Repr

/-- What a scalar is when it is not what is expected. -/
def Content.found : Content → Found
  | .null => .nothing "unit value"
  | .bool b => .bool b
  | .int i => .int i
  | .float f => .float (Shortest.text Shortest.plain f)
  | .text s => .text s

/-- The value of a scalar. -/
def Content.value : Content → Value
  | .null => .null
  | .bool b => .bool b
  | .int i => .int i
  | .float f => .float f
  | .text s => .text s

instance : CaptureConfig.Scalar Atom where
  found a := .ok a.content.found
  isNull a := .ok (a.content == .null)
  isEmpty _ := false
  text? a := some a.shown
  integer? a :=
    match a.content with
    | .int i => some i
    | _ => none
  truth? a :=
    match a.content with
    | .bool b => some b
    | _ => none
  value a := .ok a.content.value
  recordsAsSequences := true
  surplusAllowed := true

namespace Expr

mutual

/-- An expression as a tree that counts as a given text where one is expected. -/
def treeAs (shown : String) : Expr → Tree Atom
  | .null => .scalar ⟨.null, shown⟩
  | .bool b => .scalar ⟨.bool b, shown⟩
  | .int i => .scalar ⟨.int i, shown⟩
  | .float f => .scalar ⟨.float f, shown⟩
  | .text s => .scalar ⟨.text s, shown⟩
  | .name s => .scalar ⟨.text s, shown⟩
  | .array items => .seq (.spelled shown) (itemTrees items) true
  | .object entries => .map (.spelled shown) (entryTrees entries) true
  | .template source => .scalar ⟨.text source, shown⟩
  | .parens inner => treeAs shown inner
  | .formula source => .scalar ⟨.text (interpolated source), shown⟩

/-- The items of an array as trees. -/
def itemTrees : List Expr → List (Tree Atom)
  | [] => []
  | e :: rest => treeAs e.asText e :: itemTrees rest

/-- The entries of an object as trees. -/
def entryTrees : List (Expr × Expr) → List (Tree Atom × Tree Atom)
  | [] => []
  | (k, e) :: rest => (treeAs k.asText k, treeAs e.asText e) :: entryTrees rest

end

/-- **An expression as a tree.** -/
def tree (e : Expr) : Tree Atom := treeAs e.asText e

end Expr

end Hcl

end CaptureConfig

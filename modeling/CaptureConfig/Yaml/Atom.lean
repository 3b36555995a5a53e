/-
**Scalars of block notation.**

A scalar is a text, and what else it may be depends on what is asked for: where a text is expected
every scalar is one, where anything is expected the spelling of a plain scalar decides, and a tag
overrides the spelling.

Main definitions:

* `Yaml.Tag` — the tags that make a difference;
* `Yaml.Atom` — the scalars;
* `Yaml.Atom.content` — what a scalar is when anything is expected.
-/

import CaptureConfig.Schema.Scalar
import CaptureConfig.Yaml.Scalar
import CaptureConfig.Yaml.Token

set_option relaxedAutoImplicit false
set_option autoImplicit false

namespace CaptureConfig

namespace Yaml

/-- The tags that make a difference: no tag, those of four types, an application's own, and others. -/
inductive Tag where
  | none
  | truth
  | integer
  | float
  | null
  | own
  | other
  deriving DecidableEq, Repr, Inhabited

/-- What the octets of a tag mean. -/
def Tag.ofOctets (bs : List UInt8) : Tag :=
  if bs == Utf8.encode "tag:yaml.org,2002:bool" then .truth
  else if bs == Utf8.encode "tag:yaml.org,2002:int" then .integer
  else if bs == Utf8.encode "tag:yaml.org,2002:float" then .float
  else if bs == Utf8.encode "tag:yaml.org,2002:null" then .null
  else if bs.head? == some 0x21 then .own
  else .other

/-- A scalar. -/
structure Atom where
  text : List Char
  written : Written
  tag : Tag
  deriving DecidableEq, Repr

namespace Atom

/-- The scalar that stands where nothing is written. -/
def empty : Atom := ⟨[], .plainly, .none⟩

/-- The text of a scalar. -/
def string (a : Atom) : String := String.ofList a.text

/-- The complaint about a text that does not fit its tag. -/
def misfit (a : Atom) (expected : String) : Complaint := .invalidValue (.text a.string) expected

/-- What a plain scalar is. -/
def plainContent (a : Atom) : Meaning := meaning a.text

/-- **What a scalar is when anything is expected**: its tag decides, else the spelling of a plain
scalar. -/
def content (a : Atom) : Except Complaint Meaning :=
  match a.tag with
  | .truth => (bool? a.text).elim (.error (a.misfit "a boolean")) fun b => .ok (.bool b)
  | .integer => (int? a.text).elim (.error (a.misfit "an integer")) fun i => .ok (.int i)
  | .float => (float? a.text).elim (.error (a.misfit "a float")) fun f => .ok (.float f)
  | .null => if isNullWord a.text then .ok .null else .error (a.misfit "null")
  | .none => .ok (if a.written == .plainly then a.plainContent else .text)
  | .own => .ok (if a.written == .plainly then a.plainContent else .text)
  | .other => .ok .text

/-- What a scalar with a meaning is found to be. -/
def foundAs (a : Atom) : Meaning → Found
  | .null => .nothing "unit value"
  | .bool b => .bool b
  | .int i => .int i
  | .float f => .float (Shortest.text Shortest.plain f)
  | .text => .text a.string

/-- Whether a whole number fits 64 bits, with or without sign. -/
def fits64 (i : Int) : Bool := - (Nat.pow 2 63 : Int) ≤ i && i < (Nat.pow 2 64 : Int)

/-- The value of a scalar with a meaning.  Wide numbers have none. -/
def valueAs (a : Atom) : Meaning → Except Complaint Value
  | .null => .ok .null
  | .bool b => .ok (.bool b)
  | .int i => if fits64 i then .ok (.int i) else .error (.invalidType (.int i) "any value")
  | .float f => .ok (.float f)
  | .text => .ok (.text a.string)

/-- A plain scalar, or one of whole lines with a given tag: where a truth value or a number is
expected, only these can be one. -/
def canBe (a : Atom) (tag : Tag) : Bool :=
  match a.written with
  | .plainly => true
  | .lineByLine => a.tag == tag
  | .otherwise => false

/-- Nothing, where something optional is expected. -/
def isNothing (a : Atom) : Except Complaint Bool :=
  if a.written != .plainly then .ok false
  else match a.tag with
    | .none => .ok (isNull a.text)
    | .null => if isNullWord a.text then .ok true else .error (a.misfit "null")
    | _ => .ok false

end Atom

instance : CaptureConfig.Scalar Atom where
  found a := a.content.map a.foundAs
  isNull a := a.isNothing
  isEmpty a := a.text.isEmpty && a.written == .plainly
  text? a := some a.string
  integer? a :=
    if a.canBe .integer then ((unsigned? a.text).filter (· < Nat.pow 2 64)).map fun n => (n : Int) else none
  truth? a := if a.canBe .truth then bool? a.text else none
  value a := if a.tag == .own then .error .enumInput else a.content.bind a.valueAs
  recordsAsSequences := false
  surplusAllowed := false

end Yaml

end CaptureConfig

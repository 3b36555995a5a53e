/-
**Instance identifiers.**

An instance is named by a UUID in its hyphenated form: groups of 8, 4, 4, 4 and 12 hexadecimal
digits.  A text is read as a UUID in any of the ways to write one, and accepted if the UUID is
written back the same way; texts that are none are told apart, because the complaint differs.
Letters keep their case.

Main definitions:

* `Identifier.isHyphenated` — the accepted form, among the other forms;
* `Uuid.ofChars?`, `Uuid.hyphenated` — reading a UUID in any form, and writing it in that one;
* `Identifier.Fault` — why a text is refused;
* `Identifier.ofText` — the identifier of a text, without the blanks around it.
-/

import CaptureConfig.Number.Digits
import CaptureConfig.Text.Blank
import CaptureConfig.Text.Utf8

set_option relaxedAutoImplicit false
set_option autoImplicit false

namespace CaptureConfig

namespace Identifier

/-- The hyphenated form: 36 characters, hyphens behind the groups, hexadecimal digits between. -/
def isHyphenated (cs : List Char) : Bool :=
  cs.length == 36 && (cs.zipIdx.all fun (c, i) =>
    if i == 8 || i == 13 || i == 18 || i == 23 then c == '-' else Digits.isDigit 16 c)

/-- The form without hyphens: 32 hexadecimal digits. -/
def isSimple (cs : List Char) : Bool := cs.length == 32 && cs.all (Digits.isDigit 16)

/-- The hyphenated form between braces. -/
def isBraced (cs : List Char) : Bool :=
  cs.head? == some '\x7b' && cs.getLast? == some '\x7d' && isHyphenated (cs.drop 1).dropLast

/-- The hyphenated form as a uniform resource name; the case of its head does not matter. -/
def isUrn (cs : List Char) : Bool :=
  (cs.take 9).map Char.toLower == "urn:uuid:".toList && isHyphenated (cs.drop 9)

/-- What is left of a UUID in one of its known forms without the braces or the head around it. -/
def body? (cs : List Char) : Option (List Char) :=
  if isSimple cs || isHyphenated cs then some cs
  else if isBraced cs then some (cs.drop 1).dropLast
  else if isUrn cs then some (cs.drop 9)
  else none

end Identifier

/-! ### UUIDs -/

/-- A UUID: its 32 hexadecimal digits, the most significant one first. -/
structure Uuid where
  digits : List Nat
  length_digits : digits.length = 32
  deriving DecidableEq, Repr

namespace Uuid

/-- The UUID of digits that are as many as a UUID has. -/
def ofDigits? (digits : List Nat) : Option Uuid :=
  if h : digits.length = 32 then some ⟨digits, h⟩ else none

/-- **The UUID that characters are**, in one of its known forms. -/
def ofChars? (cs : List Char) : Option Uuid :=
  (Identifier.body? cs).bind fun body => ofDigits? (body.filterMap Digits.hexValue?)

/-- The first stretches of a list, of given lengths. -/
def cut {α : Type} : List Nat → List α → List (List α)
  | [], _ => []
  | n :: lengths, xs => xs.take n :: cut lengths (xs.drop n)

/-- The lengths of the groups of the hyphenated form. -/
def groupLengths : List Nat := [8, 4, 4, 4, 12]

/-- **The hyphenated form of a UUID**, in small letters. -/
def hyphenated (u : Uuid) : List Char :=
  ['-'].intercalate (cut groupLengths (u.digits.map Digits.char))

end Uuid

/-! ### Identifiers -/

namespace Identifier

/-- Why there is no identifier. -/
inductive Fault where
  | missing
  | notUuid (text : String)
  | notHyphenated (text : String)
  deriving DecidableEq, Repr

/-- The wording of a refusal. -/
def Fault.message : Fault → String
  | .missing => "instance id is missing"
  | .notUuid t => "'" ++ t ++ "' is not a uuid: failed to parse a UUID"
  | .notHyphenated t => "'" ++ t ++ "' is not a hyphenated uuid"

/-- **The identifier of a text**: what is left of it without the blanks around it, if that is a
UUID, and the UUID is written in its hyphenated form, up to capitals. -/
def ofText (given : Option String) : Except Fault String :=
  match given.map Text.trim with
  | none => .error .missing
  | some t =>
      if t = "" then .error .missing
      else match Uuid.ofChars? t.toList with
        | none => .error (.notUuid t)
        | some u =>
            if u.hyphenated = t.toList.map Char.toLower then .ok t else .error (.notHyphenated t)

end Identifier

end CaptureConfig

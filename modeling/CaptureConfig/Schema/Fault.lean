/-
**What is wrong with data.**

Text can fail to be a document at all, or be a document whose data do not fit what is asked for.
A complaint about data says what was found and what was expected.

Main definitions:

* `Found` — what can be found where something else is expected;
* `Complaint` — what can be wrong with data, and its wording;
* `Fault` — a malformed document or a complaint.
-/

import CaptureConfig.Number.Shortest
import CaptureConfig.Text.Quoted

set_option relaxedAutoImplicit false
set_option autoImplicit false

namespace CaptureConfig

/-- What can be found where something else is expected.  A number with a point, and nothing, are
spelled by the notation that they come from. -/
inductive Found where
  | bool (b : Bool)
  | int (i : Int)
  | float (shown : String)
  | text (s : String)
  | nothing (word : String)
  | sequence
  | mapping
  deriving DecidableEq, Repr

/-- A whole number beyond 64 bits is named with its width. -/
def Found.widthNote (i : Int) : String :=
  if (Nat.pow 2 64 : Int) ≤ i then " as u128" else if i < - (Nat.pow 2 63 : Int) then " as i128" else ""

/-- The wording of what was found. -/
def Found.message : Found → String
  | .bool b => "boolean `" ++ (if b then "true" else "false") ++ "`"
  | .int i => "integer `" ++ Digits.intText i ++ "`" ++ widthNote i
  | .float shown => "floating point `" ++ shown ++ "`"
  | .text s => "string " ++ Quoted.text s
  | .nothing word => word
  | .sequence => "sequence"
  | .mapping => "map"

/-- What can be wrong with data. -/
inductive Complaint where
  | invalidType (found : Found) (expected : String)
  | invalidValue (found : Found) (expected : String)
  | invalidLength (length : Nat) (record : String) (fields : Nat)
  | missingField (name : String)
  | duplicateField (name : String)
  | duplicateEntry (shownKey : String)
  | notTruth (text : String)
  | noVariant (name : String)
  | enumInput
  deriving DecidableEq, Repr

/-- A count of elements. -/
def Complaint.elements (n : Nat) : String :=
  Digits.text n ++ if n = 1 then " element" else " elements"

/-- **The wording of a complaint.** -/
def Complaint.message : Complaint → String
  | .invalidType found expected => "invalid type: " ++ found.message ++ ", expected " ++ expected
  | .invalidValue found expected => "invalid value: " ++ found.message ++ ", expected " ++ expected
  | .invalidLength n record k =>
      "invalid length " ++ Digits.text n ++ ", expected " ++ record ++ " with " ++ elements k
  | .missingField name => "missing field `" ++ name ++ "`"
  | .duplicateField name => "duplicate field `" ++ name ++ "`"
  | .duplicateEntry shownKey => "duplicate entry " ++ shownKey
  | .notTruth text => "expected a boolean, found '" ++ text ++ "'"
  | .noVariant name => "data did not match any variant of untagged enum " ++ name
  | .enumInput => "untagged and internally tagged enums do not support enum input"

/-- A document that is none, or one whose data do not fit. -/
inductive Fault where
  | malformed
  | complaint (c : Complaint)
  deriving DecidableEq, Repr

/-- The complaint of a fault. -/
def Fault.complaint? : Fault → Option Complaint
  | .malformed => none
  | .complaint c => some c

/-- The wording of a fault. -/
def Fault.message : Fault → String
  | .malformed => "malformed document"
  | .complaint c => c.message

end CaptureConfig

/-
**The printed form of strict notation.**

Each item of an array and each entry of an object stands on a line of its own, two columns further
in than what it belongs to; empty ones are written on the spot.  The order of entries is kept.

Main definitions:

* `Json` — what is printed;
* `Json.text` — its printed form.
-/

import CaptureConfig.Json.Quoted

set_option relaxedAutoImplicit false
set_option autoImplicit false

namespace CaptureConfig

/-- A value in strict notation.  Numbers are whole; entries keep their order. -/
inductive Json where
  | null
  | bool (b : Bool)
  | number (i : Int)
  | text (s : String)
  | array (items : List Json)
  | object (entries : List (String × Json))
  deriving Repr, Inhabited

namespace Json

/-- The break before a line `depth` levels in. -/
def lineBreak (depth : Nat) : List Char := '\n' :: List.replicate (2 * depth) ' '

/-- The spelling of a truth value. -/
def boolChars (b : Bool) : List Char := if b then "true".toList else "false".toList

mutual

/-- The characters of a value that stands `depth` levels in. -/
def chars (depth : Nat) : Json → List Char
  | .null => "null".toList
  | .bool b => boolChars b
  | .number i => Digits.ofInt i
  | .text s => quoted s
  | .array [] => ['[', ']']
  | .array (v :: rest) =>
      '[' :: (lineBreak (depth + 1) ++ chars (depth + 1) v ++ itemChars (depth + 1) rest ++
        lineBreak depth ++ [']'])
  | .object [] => ['\x7b', '\x7d']
  | .object ((k, v) :: rest) =>
      '\x7b' :: (lineBreak (depth + 1) ++ quoted k ++ [':', ' '] ++ chars (depth + 1) v ++
        entryChars (depth + 1) rest ++ lineBreak depth ++ ['\x7d'])

/-- The characters of the items behind the first. -/
def itemChars (depth : Nat) : List Json → List Char
  | [] => []
  | v :: rest => ',' :: (lineBreak depth ++ chars depth v ++ itemChars depth rest)

/-- The characters of the entries behind the first. -/
def entryChars (depth : Nat) : List (String × Json) → List Char
  | [] => []
  | (k, v) :: rest =>
      ',' :: (lineBreak depth ++ quoted k ++ [':', ' '] ++ chars depth v ++ entryChars depth rest)

end

/-- **The printed form of a value.** -/
def print (v : Json) : String := String.ofList (chars 0 v)

end Json

end CaptureConfig

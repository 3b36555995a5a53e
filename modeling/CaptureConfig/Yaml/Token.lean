/-
**Tokens of block notation.**

Collections are written with brackets, or by indentation; of the latter the tokens make the
beginning and the end explicit.  A key in front of a colon is only known for one when the colon
comes, so a place where a key may begin is noted down, and what came of it is settled afterwards.

Main definitions:

* `Yaml.Token` — the tokens;
* `Yaml.Noted` — tokens, and places where a key may begin;
* `Yaml.settle` — what the notes come to.
-/

import CaptureConfig.Yaml.Token.Tag

set_option relaxedAutoImplicit false
set_option autoImplicit false

namespace CaptureConfig

namespace Yaml

/-- How a scalar is written, as far as it matters. -/
inductive Written where
  | plainly
  | lineByLine
  | otherwise
  deriving DecidableEq, Repr

/-- The tokens. -/
inductive Token where
  | directive (d : Directive)
  | documentStart
  | documentEnd
  | streamEnd
  | blockSequence
  | blockMapping
  | blockEnd
  | openSequence
  | closeSequence
  | openMapping
  | closeMapping
  | comma
  | item
  | key
  | value
  | alias (name : String)
  | anchor (name : String)
  | tag (t : TagToken)
  | scalar (text : List Char) (written : Written)
  deriving DecidableEq, Repr

/-- A token, or a place where a key may begin. -/
inductive Noted where
  | token (t : Token)
  | keyMayBegin (place : Nat)
  deriving DecidableEq, Repr

/-- What came of a place where a key may begin: a key, and with it possibly a mapping. -/
structure KeyFound where
  place : Nat
  withMapping : Bool
  deriving DecidableEq, Repr

/-- The tokens of a place where a key may begin. -/
def KeyFound.tokens (found : List KeyFound) (place : Nat) : List Token :=
  match found.find? fun k => k.place == place with
  | none => []
  | some k => if k.withMapping then [.blockMapping, .key] else [.key]

/-- **What the notes come to.** -/
def settle (found : List KeyFound) (notes : List Noted) : List Token :=
  notes.flatMap fun
    | .token t => [t]
    | .keyMayBegin place => KeyFound.tokens found place

end Yaml

end CaptureConfig

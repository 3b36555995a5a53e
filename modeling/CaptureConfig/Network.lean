/-
**IP networks.**

A network is an address and a prefix length, written `address/prefix`.  Addresses are kept as they
are given: bits behind the prefix stay.  The reading is strict about length and lenient about
zeros: a part of a version 4 address has at most three digits, a group of a version 6 address at
most four, the prefix at most two and three; leading zeros count as digits and are allowed.

Main definitions:

* `Network` — an address of either version with a prefix length;
* `Network.ofString?` — the network that a text is;
* `Network.toString` — the text of a network, with the longest run of zero groups left out.
-/

import CaptureConfig.Number.Digits

set_option relaxedAutoImplicit false
set_option autoImplicit false

namespace CaptureConfig

/-- An IP network.  A version 4 address has four octets, a version 6 address eight groups of
sixteen bits. -/
inductive Network where
  | v4 (octets : List Nat) (prefixLength : Nat)
  | v6 (groups : List Nat) (prefixLength : Nat)
  deriving DecidableEq, Repr

namespace Network

/-- The number of leading bits that the members of a network share. -/
def prefixLength : Network → Nat
  | .v4 _ n => n
  | .v6 _ n => n

/-- A network that every address of its version belongs to. -/
def IsCatchAll (n : Network) : Prop := n.prefixLength = 0

instance (n : Network) : Decidable n.IsCatchAll := inferInstanceAs (Decidable (_ = _))

/-! ### Reading -/

/-- A number of at most `most` digits below `bound` at the front of a text. -/
def number (base most bound : Nat) (cs : List Char) : Option (Nat × List Char) :=
  let (digits, rest) := Digits.span base cs
  let n := Digits.toNat base digits
  if digits = [] ∨ most < digits.length ∨ bound ≤ n then none else some (n, rest)

/-- What is behind a given character at the front of a text. -/
def behind (c : Char) : List Char → Option (List Char)
  | [] => none
  | d :: rest => if d = c then some rest else none

/-- Numbers below 256 with dots between them, `n + 1` of them. -/
def dotted : Nat → List Char → Option (List Nat × List Char)
  | 0, cs => (number 10 3 256 cs).map fun (n, rest) => ([n], rest)
  | k + 1, cs => do
      let (n, rest) ← number 10 3 256 cs
      let (ns, rest) ← dotted k (← behind '.' rest)
      pure (n :: ns, rest)

/-- The octets of a version 4 address at the front of a text. -/
def octets? (cs : List Char) : Option (List Nat × List Char) := dotted 3 cs

/-- The two groups that four octets make up. -/
def pairUp : List Nat → List Nat
  | a :: b :: rest => (a * 256 + b) :: pairUp rest
  | _ => []

/-- At most `most` groups with colons between them at the front of a text, the last two possibly
written as a version 4 address.  The flag says whether they were; `first` that no colon is due. -/
def groups : (most : Nat) → (first : Bool) → List Char → List Nat × Bool × List Char
  | 0, _, cs => ([], false, cs)
  | most + 1, first, cs =>
      let here := if first then some cs else behind ':' cs
      match if 0 < most then here.bind octets? else none with
      | some (bytes, rest) => (pairUp bytes, true, rest)
      | none =>
          match here.bind (number 16 4 0x10000) with
          | some (g, rest) =>
              let (gs, dots, rest) := groups most false rest
              (g :: gs, dots, rest)
          | none => ([], false, cs)

/-- The groups of a version 6 address at the front of a text. -/
def groups? (cs : List Char) : Option (List Nat × List Char) :=
  match groups 8 true cs with
  | (front, dots, rest) =>
      if front.length = 8 then some (front, rest)
      -- dots may stand only at the end of an address
      else if dots then none
      else do
        let rest ← behind ':' (← behind ':' rest)
        match groups (8 - front.length) true rest with
        | (back, _, rest) =>
            pure (front ++ List.replicate (8 - front.length - back.length) 0 ++ back, rest)

/-- A prefix length and nothing behind it. -/
def prefixAtEnd (most bound : Nat) (cs : List Char) : Option Nat := do
  let (n, rest) ← number 10 most bound (← behind '/' cs)
  if rest = [] then some n else none

/-- The network that a list of characters is. -/
def ofChars? (cs : List Char) : Option Network :=
  (do let (bytes, rest) ← octets? cs
      pure (.v4 bytes (← prefixAtEnd 2 33 rest))) <|>
  (do let (gs, rest) ← groups? cs
      pure (.v6 gs (← prefixAtEnd 3 129 rest)))

/-- **The network that a text is.** -/
def ofString? (s : String) : Option Network := ofChars? s.toList

/-! ### Writing -/

/-- The number of zeros at the front of a list. -/
def zerosAtFront (gs : List Nat) : Nat := (gs.takeWhile (· == 0)).length

/-- The start and the length of the first longest run of zeros. -/
def longestZeros : List Nat → Nat × Nat
  | [] => (0, 0)
  | g :: rest =>
      let here := zerosAtFront (g :: rest)
      let (start, length) := longestZeros rest
      if length ≤ here ∧ 0 < here then (0, here) else (start + 1, length)

/-- Texts of numbers with a separator between them. -/
def separated (sep : String) (base : Nat) (ns : List Nat) : String :=
  sep.intercalate (ns.map fun n => String.ofList (Digits.inBase base n))

/-- The octets of a group. -/
def splitGroup (g : Nat) : List Nat := [g / 256, g % 256]

/-- The text of a version 6 address. -/
def groupsText (gs : List Nat) : String :=
  -- an address that carries one of version 4 is shown with dots
  if gs.take 6 = [0, 0, 0, 0, 0, 0xFFFF] then
    "::ffff:" ++ separated "." 10 ((gs.drop 6).flatMap splitGroup)
  else
    let (start, length) := longestZeros gs
    if length ≤ 1 then separated ":" 16 gs
    else separated ":" 16 (gs.take start) ++ "::" ++ separated ":" 16 (gs.drop (start + length))

/-- **The text of a network.** -/
def toString : Network → String
  | .v4 bytes n => separated "." 10 bytes ++ "/" ++ Digits.text n
  | .v6 gs n => groupsText gs ++ "/" ++ Digits.text n

end Network

end CaptureConfig

/-
**Octets and characters.**

Paths and files are octets; the text in them is UTF-8.  Reading octets as characters is a machine
that takes one octet at a time.  It never gives up: where the octets are not UTF-8 it sets the
shortest run that rules them out aside and goes on behind it.  The strict reading
(`Utf8.decode?`) asks that no run was set aside, the forgiving one (`Utf8.decodeLossy`) shows each
run as one replacement character.

Main definitions:

* `Utf8.encode` — the octets of a text;
* `Utf8.Piece`, `Utf8.pieces` — a character, or a run of octets that is none;
* `Utf8.decode?`, `Utf8.decodeLossy` — the two readings.
-/

set_option relaxedAutoImplicit false
set_option autoImplicit false

namespace CaptureConfig

namespace Utf8

/-- The octets of a list of characters. -/
def encodeChars (cs : List Char) : List UInt8 := cs.flatMap String.utf8EncodeChar

/-- The octets of a text. -/
def encode (s : String) : List UInt8 := encodeChars s.toList

/-- A character, or a shortest run of octets that cannot be part of one. -/
inductive Piece where
  | char (c : Char)
  | stray (octets : List UInt8)
  deriving DecidableEq, Repr

/-- A character begun: its octets so far, the number still owed, the bits gathered, and the
bounds of the next octet. -/
structure Begun where
  octets : List UInt8
  owed : Nat
  bits : Nat
  low : Nat
  high : Nat
  deriving DecidableEq, Repr

/-- The character that an octet begins, or `none` if it begins none of several octets. -/
def begin? (b : UInt8) : Option Begun :=
  let n := b.toNat
  if 0xC2 ≤ n ∧ n ≤ 0xDF then some ⟨[b], 1, n - 0xC0, 0x80, 0xBF⟩
  else if n = 0xE0 then some ⟨[b], 2, 0, 0xA0, 0xBF⟩
  else if n = 0xED then some ⟨[b], 2, 0xD, 0x80, 0x9F⟩
  else if 0xE1 ≤ n ∧ n ≤ 0xEF then some ⟨[b], 2, n - 0xE0, 0x80, 0xBF⟩
  else if n = 0xF0 then some ⟨[b], 3, 0, 0x90, 0xBF⟩
  else if 0xF1 ≤ n ∧ n ≤ 0xF3 then some ⟨[b], 3, n - 0xF0, 0x80, 0xBF⟩
  else if n = 0xF4 then some ⟨[b], 3, 4, 0x80, 0x8F⟩
  else none

/-- One octet between characters: what is finished, and what is begun. -/
def start (b : UInt8) : List Piece × Option Begun :=
  if b.toNat < 0x80 then ([.char (Char.ofNat b.toNat)], none)
  else match begin? b with
    | some s => ([], some s)
    | none => ([.stray [b]], none)

/-- One octet: what is finished, and what is begun. -/
def step : Option Begun → UInt8 → List Piece × Option Begun
  | none, b => start b
  | some s, b =>
      if s.low ≤ b.toNat ∧ b.toNat ≤ s.high then
        let bits := s.bits * 64 + (b.toNat - 0x80)
        if s.owed ≤ 1 then ([.char (Char.ofNat bits)], none)
        else ([], some ⟨s.octets ++ [b], s.owed - 1, bits, 0x80, 0xBF⟩)
      else
        let (done, next) := start b
        (.stray s.octets :: done, next)

/-- The pieces of a list of octets behind a character begun. -/
def piecesFrom : Option Begun → List UInt8 → List Piece
  | none, [] => []
  | some s, [] => [.stray s.octets]
  | s, b :: rest =>
      let (done, next) := step s b
      done ++ piecesFrom next rest

/-- **The pieces of a list of octets.** -/
def pieces (bs : List UInt8) : List Piece := piecesFrom none bs

/-- The character of a piece. -/
def Piece.char? : Piece → Option Char
  | .char c => some c
  | .stray _ => none

/-- The text of a list of octets, if they are UTF-8. -/
def decode? (bs : List UInt8) : Option String :=
  ((pieces bs).mapM Piece.char?).map String.ofList

/-- The text of a list of octets, with a replacement character for each stray run. -/
def decodeLossy (bs : List UInt8) : String :=
  String.ofList ((pieces bs).map fun p => p.char?.getD '\uFFFD')

end Utf8

end CaptureConfig

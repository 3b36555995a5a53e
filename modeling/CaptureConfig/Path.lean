/-
**Paths as octets.**

A path is a list of octets, and only its slashes and dots mean anything: doubled slashes, a slash
at the end and components that are a single dot say nothing, except that a dot in front says that
the path starts here.  What a path names in a tree of files is `CaptureConfig/Store/FileTree.lean`;
this module takes paths apart as texts.

Main definitions:

* `Path`, `Path.ofString`, `Path.toString?`, `Path.display` — paths and their texts;
* `Path.join` — a component behind a path;
* `Path.components`, `Path.fileName?`, `Path.extension?` — the parts of a path;
* `Path.ancestors`, `Path.parent?` — the paths above a path.
-/

import CaptureConfig.Text.Utf8

set_option relaxedAutoImplicit false
set_option autoImplicit false

namespace CaptureConfig

/-- A path: any octets. -/
structure Path where
  octets : List UInt8
  deriving DecidableEq, Repr, Inhabited

namespace Path

/-- The octet of a slash. -/
def slash : UInt8 := 0x2F

/-- The octet of a dot. -/
def dot : UInt8 := 0x2E

/-- The path with the octets of a text. -/
def ofString (s : String) : Path := ⟨Utf8.encode s⟩

/-- The text of a path, if its octets are UTF-8. -/
def toString? (p : Path) : Option String := Utf8.decode? p.octets

/-- The text of a path for people: what is not UTF-8 is shown by replacement characters. -/
def display (p : Path) : String := Utf8.decodeLossy p.octets

/-- A path that starts at the root. -/
def isAbsolute (p : Path) : Bool := p.octets.head? == some slash

/-- A component behind a path, with a slash between them unless one is there. -/
def join (p : Path) (name : String) : Path :=
  let sep := match p.octets.getLast? with
    | none => []
    | some b => if b = slash then [] else [slash]
  ⟨p.octets ++ sep ++ Utf8.encode name⟩

/-! ### Components -/

/-- The stretches of a list between its slashes. -/
def stretches : List UInt8 → List (List UInt8)
  | [] => [[]]
  | b :: rest =>
      if b = slash then [] :: stretches rest
      else match stretches rest with
        | [] => [[b]]
        | first :: others => (b :: first) :: others

/-- Stretches with slashes between them. -/
def ofStretches (parts : List (List UInt8)) : List UInt8 := [slash].intercalate parts

/-- A stretch that says nothing: empty, or a single dot. -/
def isIdle (part : List UInt8) : Bool := part.isEmpty || part == [dot]

/-- A part of a path. -/
inductive Component where
  | root
  | here
  | up
  | name (octets : List UInt8)
  deriving DecidableEq, Repr

/-- The component of a stretch. -/
def Component.ofStretch (part : List UInt8) : Component :=
  if part == [dot, dot] then .up else .name part

/-- A relative path that starts with a single dot. -/
def startsHere (p : Path) : Bool := (stretches p.octets).head? == some [dot]

/-- **The components of a path**, from the front. -/
def components (p : Path) : List Component :=
  let front := if p.isAbsolute then [.root] else if p.startsHere then [.here] else []
  front ++ ((stretches p.octets).filter (! isIdle ·)).map Component.ofStretch

/-- The last component, if it is an ordinary name. -/
def fileName? (p : Path) : Option (List UInt8) :=
  match p.components.getLast? with
  | some (.name n) => some n
  | _ => none

/-- The part of a name behind its last dot, if a part is before it. -/
def extensionOf? (name : List UInt8) : Option (List UInt8) :=
  let ending := (name.reverse.takeWhile (· != dot)).reverse
  -- without a dot the whole name is taken, with only a leading one all but one octet
  if ending.length + 1 < name.length then some ending else none

/-- The extension of the last component. -/
def extension? (p : Path) : Option (List UInt8) := p.fileName?.bind extensionOf?

/-! ### The parent of a path -/

/-- The beginnings of a list of stretches that end with one that says something, longest first. -/
def leads : List (List UInt8) → List (List (List UInt8))
  | [] => []
  | part :: rest => (leads rest).map (part :: ·) ++ (if isIdle part then [] else [[part]])

/-- **A path and the paths above it**: each lacks the last component of the one before and what is
idle in front of it. -/
def ancestors (p : Path) : List Path :=
  let kept := if p.isAbsolute || p.startsHere then 1 else 0
  let front := p.octets.take kept
  (leads (stretches (p.octets.drop kept))).map (fun parts => ⟨front ++ ofStretches parts⟩) ++
    (⟨front⟩ :: if p.startsHere then [⟨[]⟩] else [])

/-- **The path without its last component.**  A path without components and the root have no
parent. -/
def parent? (p : Path) : Option Path := p.ancestors.tail.head?

end Path

end CaptureConfig

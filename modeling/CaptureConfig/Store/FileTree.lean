/-
**Paths in a tree of files.**

A path is followed from the top of the tree or from the current directory, one stretch after
another: a dot stays, two dots go up, a name goes down.  Every stretch but the last has to lead to
a directory.  What the last one leads to may be missing, and then a file or a directory can be
made there.

Main definitions:

* `FileTree` — a tree with a current directory;
* `FileTree.slot` — where the last stretch of a path leads, be something there or not;
* `FileTree.locate` — the place of what a path names;
* `FileTree.read`, `FileTree.holds` — what is read of a tree;
* `FileTree.openEmpty`, `FileTree.setMode`, `FileTree.append`, `FileTree.makeDirectory` — changes.
-/

import CaptureConfig.Path
import CaptureConfig.Store.Node
import CaptureConfig.Store.Refusal

set_option relaxedAutoImplicit false
set_option autoImplicit false

namespace CaptureConfig

/-! ### The stretches of a path as ways -/

/-- The way that a stretch of a path leads. -/
inductive Hop where
  | stay
  | up
  | down (name : Name)
  deriving DecidableEq, Repr

/-- The way of a stretch. -/
def Hop.ofStretch (part : List UInt8) : Hop :=
  if part = [Path.dot] then .stay else if part = [Path.dot, Path.dot] then .up else .down part

namespace Path

/-- The ways of a path. -/
def hops (p : Path) : List Hop :=
  ((stretches p.octets).filter (! ·.isEmpty)).map Hop.ofStretch

/-- A slash at the end. -/
def endsWithSlash (p : Path) : Bool := p.octets.getLast? == some slash

/-- What the system says of a path before it looks at any file. -/
def check (p : Path) : Except Refusal Unit :=
  if p.octets.contains 0 then .error .invalidPath
  else if p.octets.isEmpty then .error .notFound
  else if 4096 ≤ p.octets.length then .error .nameTooLong
  else .ok ()

end Path

/-! ### Following a path -/

/-- A tree of files with a current directory. -/
structure FileTree where
  root : Node
  current : Location
  deriving Repr, Inhabited

/-- Where the last stretch of a path leads. -/
inductive Slot where
  /-- To a directory that needs no name: the path ends in dots, or is the root. -/
  | directory (l : Location)
  /-- To a name in a directory. -/
  | entry (parent : Location) (name : Name)
  deriving DecidableEq, Repr

namespace FileTree

/-- The node at a place. -/
def node? (t : FileTree) (l : Location) : Option Node := t.root.get? l

/-- A tree with another node at a place. -/
def put (t : FileTree) (l : Location) (x : Node) : FileTree := { t with root := t.root.put l x }

/-- The node under a name of a directory. -/
def entry? (t : FileTree) (parent : Location) (name : Name) : Except Refusal (Option Node) :=
  if 255 < name.length then .error .nameTooLong else .ok (t.node? (parent ++ [name]))

/-- The directory that a way leads to. -/
def enter (t : FileTree) (here : Location) : Hop → Except Refusal Location
  | .stay => .ok here
  | .up => .ok here.dropLast
  | .down name => do
      match ← t.entry? here name with
      | none => .error .notFound
      | some (.file _) => .error .notDirectory
      | some (.directory _) => .ok (here ++ [name])

/-- The directory that ways lead to. -/
def walk (t : FileTree) : Location → List Hop → Except Refusal Location
  | here, [] => .ok here
  | here, hop :: rest => do t.walk (← t.enter here hop) rest

/-- The directory in which a path starts. -/
def start (t : FileTree) (p : Path) : Except Refusal Location :=
  let l := if p.isAbsolute then [] else t.current
  if t.root.directoryAt l then .ok l else .error .notFound

/-- **Where the last stretch of a path leads.** -/
def slot (t : FileTree) (p : Path) : Except Refusal Slot := do
  p.check
  let here ← t.start p
  match p.hops.getLast? with
  | some (.down name) => do pure (.entry (← t.walk here p.hops.dropLast) name)
  | _ => do pure (.directory (← t.walk here p.hops))

/-- **The place of what a path names.**  Behind a slash only a directory will do. -/
def locate (t : FileTree) (p : Path) : Except Refusal Location := do
  match ← t.slot p with
  | .directory l => .ok l
  | .entry parent name =>
      match ← t.entry? parent name with
      | none => .error .notFound
      | some (.directory _) => .ok (parent ++ [name])
      | some (.file _) =>
          if p.endsWithSlash then .error .notDirectory else .ok (parent ++ [name])

/-! ### Reading -/

/-- The path names something. -/
def holds (t : FileTree) (p : Path) : Bool := (t.locate p).toOption.isSome

/-- The path names a directory. -/
def isDirectory (t : FileTree) (p : Path) : Bool :=
  (t.locate p).toOption.any fun l => t.root.directoryAt l

/-- The file that a path names. -/
def file (t : FileTree) (p : Path) : Except Refusal (Location × File) := do
  let l ← t.locate p
  match t.root.fileAt? l with
  | some f => .ok (l, f)
  | none => .error .isDirectory

/-- **The contents of the file that a path names.** -/
def read (t : FileTree) (p : Path) : Except Refusal (List UInt8) := do
  let (_, f) ← t.file p
  if f.readable then .ok f.contents else .error .permissionDenied

/-! ### Changing -/

/-- **A tree with an empty file for a path.**  A new file gets the permissions; one that was there
keeps its own and loses its contents. -/
def openEmpty (t : FileTree) (p : Path) (mode : Nat) : Except Refusal FileTree := do
  match ← t.slot p with
  | .directory _ => .error .isDirectory
  | .entry parent name =>
      if p.endsWithSlash then .error .isDirectory
      else match ← t.entry? parent name with
        | none => .ok (t.put (parent ++ [name]) (.file ⟨mode, []⟩))
        | some (.directory _) => .error .isDirectory
        | some (.file f) =>
            if f.writable then .ok (t.put (parent ++ [name]) (.file ⟨f.mode, []⟩))
            else .error .permissionDenied

/-- A tree in which a file has other permissions. -/
def setMode (t : FileTree) (p : Path) (mode : Nat) : Except Refusal FileTree := do
  let (l, f) ← t.file p
  pure (t.put l (.file { f with mode := mode }))

/-- A tree in which a file has more contents at its end. -/
def append (t : FileTree) (p : Path) (octets : List UInt8) : Except Refusal FileTree := do
  let (l, f) ← t.file p
  pure (t.put l (.file { f with contents := f.contents ++ octets }))

/-- A tree with a new directory. -/
def makeDirectory (t : FileTree) (p : Path) : Except Refusal FileTree := do
  match ← t.slot p with
  | .directory _ => .error .alreadyExists
  | .entry parent name =>
      match ← t.entry? parent name with
      | some _ => .error .alreadyExists
      | none => .ok (t.put (parent ++ [name]) (.directory []))

end FileTree

end CaptureConfig

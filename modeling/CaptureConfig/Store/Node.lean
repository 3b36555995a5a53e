/-
**Trees of files.**

A file has permissions and contents, a directory has entries with names.  There are no links, so
every place in a tree is a list of names from the top down, and a tree is looked at through the
nodes at its places.

Main definitions:

* `File`, `Node` — files, and directories of them;
* `Node.get?` — the node at a place;
* `Node.put` — a tree with another node at a place;
* `Node.fileAt?`, `Node.directoryAt` — what a place holds;
* `Node.files` — all files with their places.

Main results:

* `Node.get?_put_self` — a node that was put can be got, if its directory is there;
* `Node.view_put` — what is beside the place looks as before.
-/

set_option relaxedAutoImplicit false
set_option autoImplicit false

namespace CaptureConfig

/-- The name of an entry. -/
abbrev Name := List UInt8

/-- A place in a tree: the names from the top down. -/
abbrev Location := List Name

/-- A file: its permission bits and its contents. -/
structure File where
  mode : Nat
  contents : List UInt8
  deriving DecidableEq, Repr, Inhabited

/-- Files, and directories of them. -/
inductive Node where
  | file (f : File)
  | directory (entries : List (Name × Node))
  deriving Repr, Inhabited

namespace File

/-- The owner may read. -/
def readable (f : File) : Bool := f.mode.testBit 8

/-- The owner may write. -/
def writable (f : File) : Bool := f.mode.testBit 7

end File

/-! ### Entries -/

/-- Entries with a node under a name; a node that was there gives way. -/
def withEntry (name : Name) (x : Node) : List (Name × Node) → List (Name × Node)
  | [] => [(name, x)]
  | (k, y) :: rest => if k = name then (name, x) :: rest else (k, y) :: withEntry name x rest

theorem lookup_withEntry_self (name : Name) (x : Node) (entries : List (Name × Node)) :
    (withEntry name x entries).lookup name = some x := by
  induction entries with
  | nil => simp [withEntry]
  | cons e rest ih =>
    obtain ⟨k, y⟩ := e
    by_cases h : k = name
    · simp [withEntry, h]
    · have h' : (name == k) = false := by simpa using Ne.symm h
      simp [withEntry, h, List.lookup_cons, h', ih]

theorem lookup_withEntry_of_ne {name other : Name} (h : other ≠ name) (x : Node)
    (entries : List (Name × Node)) :
    (withEntry name x entries).lookup other = entries.lookup other := by
  induction entries with
  | nil =>
    have h' : (other == name) = false := by simpa using h
    simp [withEntry, List.lookup_cons, h']
  | cons e rest ih =>
    obtain ⟨k, y⟩ := e
    by_cases hk : k = name
    · have h' : (other == name) = false := by simpa using h
      simp [withEntry, hk, List.lookup_cons, h']
    · simp [withEntry, hk, List.lookup_cons, ih]

namespace Node

/-! ### Places -/

/-- The node at a place. -/
def get? : Node → Location → Option Node
  | n, [] => some n
  | .file _, _ :: _ => none
  | .directory entries, name :: rest => (entries.lookup name).bind fun child => child.get? rest

/-- A tree with another node at a place.  Only the last name of the place may be new. -/
def put : Node → Location → Node → Node
  | _, [], x => x
  | .file f, _ :: _, _ => .file f
  | .directory entries, name :: rest, x =>
      match entries.lookup name with
      | some child => .directory (withEntry name (child.put rest x) entries)
      | none => if rest.isEmpty then .directory (withEntry name x entries) else .directory entries

@[simp] theorem get?_nil (n : Node) : n.get? [] = some n := by simp [get?]

@[simp] theorem get?_file_cons (f : File) (name : Name) (rest : Location) :
    (Node.file f).get? (name :: rest) = none := by simp [get?]

theorem get?_directory_cons (entries : List (Name × Node)) (name : Name) (rest : Location) :
    (Node.directory entries).get? (name :: rest) =
      (entries.lookup name).bind (·.get? rest) := by rw [get?]

/-! ### Files and directories at places -/

/-- The file of a node. -/
def file? : Node → Option File
  | .file f => some f
  | .directory _ => none

/-- A node that is a directory. -/
def isDirectory : Node → Bool
  | .file _ => false
  | .directory _ => true

/-- The file at a place. -/
def fileAt? (n : Node) (l : Location) : Option File := (n.get? l).bind file?

/-- A directory is at the place. -/
def directoryAt (n : Node) (l : Location) : Bool := (n.get? l).any isDirectory

/-- **A node that was put is there**, if the directory for it was. -/
theorem get?_put_self (x : Node) (name : Name) (parent : Location) (n : Node)
    (h : n.directoryAt parent = true) :
    (n.put (parent ++ [name]) x).get? (parent ++ [name]) = some x := by
  induction parent generalizing n with
  | nil =>
    cases n with
    | file f => simp [directoryAt, isDirectory] at h
    | directory entries =>
      cases hl : entries.lookup name <;>
        simp [put, hl, get?_directory_cons, lookup_withEntry_self]
  | cons k rest ih =>
    cases n with
    | file f => simp [directoryAt] at h
    | directory entries =>
      cases hl : entries.lookup k with
      | none => simp [directoryAt, get?_directory_cons, hl] at h
      | some child =>
        have hc : child.directoryAt rest = true := by
          simpa [directoryAt, get?_directory_cons, hl] using h
        simpa [put, hl, get?_directory_cons, lookup_withEntry_self] using ih child hc

/-- What holds of all files, or of all directories, holds of a place that was not touched: neither
the place of the node that was put nor one below it. -/
theorem view_put {α : Type} (view : Node → Option α)
    (same : ∀ entries entries', view (.directory entries) = view (.directory entries'))
    (x : Node) (l k : Location) (n : Node) (h : ¬ l <+: k) :
    ((n.put l x).get? k).bind view = (n.get? k).bind view := by
  induction l generalizing k n with
  | nil => exact absurd List.nil_prefix h
  | cons name rest ih =>
    cases n with
    | file f => simp [put]
    | directory entries =>
      cases hl : entries.lookup name with
      | none =>
        by_cases hr : rest.isEmpty = true
        · cases k with
          | nil => simpa [put, hl, hr] using same _ _
          | cons m more =>
            by_cases hm : m = name
            · subst hm
              rw [List.isEmpty_iff] at hr
              subst hr
              exact absurd (by simp) h
            · simp [put, hl, hr, get?_directory_cons, lookup_withEntry_of_ne hm]
        · simp [put, hl, hr]
      | some child =>
        cases k with
        | nil => simpa [put, hl] using same _ _
        | cons m more =>
          by_cases hm : m = name
          · subst hm
            have hp : ¬ rest <+: more := by simpa [List.cons_prefix_cons] using h
            simpa [put, hl, get?_directory_cons, lookup_withEntry_self] using ih more child hp
          · simp [put, hl, get?_directory_cons, lookup_withEntry_of_ne hm]

/-! ### All files -/

mutual

/-- **All files of a tree** with their places, below a place. -/
def files (here : Location) : Node → List (Location × File)
  | .file f => [(here, f)]
  | .directory entries => filesOf here entries

/-- All files of some entries. -/
def filesOf (here : Location) : List (Name × Node) → List (Location × File)
  | [] => []
  | (name, child) :: rest => child.files (here ++ [name]) ++ filesOf here rest

end

end Node

end CaptureConfig

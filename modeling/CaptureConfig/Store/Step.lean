/-
**Steps on a file system.**

What a program does to files is a list of steps, each of which may be refused, and is then the last
one.  Programs are written for any file system; one kind of file system is a tree of files, where
every step is a function.

Main definitions:

* `Step` — a step that changes files;
* `FileSystem` — what a file system can be asked;
* `performAll` — steps up to the first that is refused;
* `makeMissing` — a directory and those above it that are missing;
* `Step.run` — a step on a tree of files.
-/

import CaptureConfig.Store.FileTree

set_option relaxedAutoImplicit false
set_option autoImplicit false

namespace CaptureConfig

/-- A step that changes files. -/
inductive Step where
  /-- A directory, with those above it that are missing. -/
  | makeDirectories (p : Path)
  /-- An empty file: a new one with permissions, or the one that is there without its contents. -/
  | openEmpty (p : Path) (mode : Nat)
  | setMode (p : Path) (mode : Nat)
  | append (p : Path) (octets : List UInt8)
  deriving DecidableEq, Repr

/-- The path that a step is about. -/
def Step.path : Step → Path
  | .makeDirectories p => p
  | .openEmpty p _ => p
  | .setMode p _ => p
  | .append p _ => p

/-- What a file system can be asked. -/
class FileSystem (m : Type → Type) where
  /-- The contents of a file. -/
  read : Path → m (Except Refusal (List UInt8))
  /-- Whether a path names anything. -/
  holds : Path → m Bool
  /-- A step. -/
  perform : Step → m (Except Refusal Unit)

section

variable {m : Type → Type} [Monad m]

/-- **Steps up to the first that is refused**, with that one and why. -/
def performAll [FileSystem m] : List Step → m (Except (Step × Refusal) Unit)
  | [] => pure (.ok ())
  | s :: rest => do
      match ← FileSystem.perform s with
      | .ok () => performAll rest
      | .error why => pure (.error (s, why))

/-- Making a directory, except that one may be there. -/
def settleDirectory (isDirectory : Path → m Bool) (p : Path) :
    Except Refusal Unit → m (Except Refusal Unit)
  | .ok () => pure (.ok ())
  | .error why => do pure (if ← isDirectory p then .ok () else .error why)

/-- **A directory, and those above it that are missing.**  The paths go upwards.  Only when there
is no directory for a directory is the one above it made first, so that anything else in the way
is noticed where it stands. -/
def makeMissing (make : Path → m (Except Refusal Unit)) (isDirectory : Path → m Bool) :
    List Path → m (Except Refusal Unit)
  | [] => pure (.ok ())
  | p :: above => do
      match ← make p with
      | .error .notFound =>
          match ← makeMissing make isDirectory above with
          | .ok () => do settleDirectory isDirectory p (← make p)
          | .error why => pure (.error why)
      | result => settleDirectory isDirectory p result

end

/-- The directories that have to be there for a path to be one, upwards. -/
def Path.chain (p : Path) : List Path :=
  (p :: p.ancestors.tail).filter fun q => ! q.octets.isEmpty

namespace FileTree

/-- A change that may be refused, and then changes nothing. -/
def change (f : FileTree → Except Refusal FileTree) : StateM FileTree (Except Refusal Unit) :=
  fun t => match f t with
    | .ok t' => (.ok (), t')
    | .error why => (.error why, t)

end FileTree

/-- **A step on a tree of files.** -/
def Step.run : Step → StateM FileTree (Except Refusal Unit)
  | .makeDirectories p =>
      makeMissing (fun q => FileTree.change fun t => t.makeDirectory q)
        (fun q => return (← get).isDirectory q) p.chain
  | .openEmpty p mode => FileTree.change fun t => t.openEmpty p mode
  | .setMode p mode => FileTree.change fun t => t.setMode p mode
  | .append p octets => FileTree.change fun t => t.append p octets

instance : FileSystem (StateM FileTree) where
  read p := return (← get).read p
  holds p := return (← get).holds p
  perform := Step.run

end CaptureConfig

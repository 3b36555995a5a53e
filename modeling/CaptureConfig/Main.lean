/-
**The program.**

The command line is run on the files of the system that the program runs on.  Here a step is an
action; what is done, in which order, and what is said of it is decided elsewhere.

Main definitions:

* `Refusal.ofError` — a refusal of the system;
* `main` — the program.
-/

import CaptureConfig.Command.Run

set_option relaxedAutoImplicit false
set_option autoImplicit false

namespace CaptureConfig

/-- A refusal of the system. -/
def Refusal.ofError : IO.Error → Refusal
  | .noFileOrDirectory .. => .notFound
  | .permissionDenied .. => .permissionDenied
  | .alreadyExists .. => .alreadyExists
  | .inappropriateType _ code _ => if code = 21 then .isDirectory else .notDirectory
  | e => .other e.toString

namespace Disk

/-- An action on a path that the system may refuse. -/
def attempt {α : Type} (p : Path) (act : String → IO α) : IO (Except Refusal α) := do
  match p.check with
  | .error why => pure (.error why)
  | .ok () =>
      match ← (act p.display).toBaseIO with
      | .ok a => pure (.ok a)
      | .error e => pure (.error (.ofError e))

/-- The contents of a file. -/
def read (p : Path) : IO (Except Refusal (List UInt8)) :=
  attempt p fun name => do pure (← IO.FS.readBinFile name).toList

/-- Whether a path names anything. -/
def holds (p : Path) : IO Bool := do
  match ← attempt p fun name => do (← IO.FS.realPath name).pathExists with
  | .ok found => pure found
  | .error _ => pure false

/-- Whether a path names a directory. -/
def isDirectory (p : Path) : IO Bool := do
  match ← attempt p fun name => do (← IO.FS.realPath name).isDir with
  | .ok found => pure found
  | .error _ => pure false

/-- A step. -/
def perform : Step → IO (Except Refusal Unit)
  | .makeDirectories p =>
      makeMissing (fun q => attempt q fun name => IO.FS.createDir name) isDirectory p.chain
  | .openEmpty p _ => attempt p fun name => do
      let _ ← IO.FS.Handle.mk name .write
      pure ()
  | .setMode p mode => attempt p fun name => IO.Prim.setAccessRights name mode.toUInt32
  | .append p octets => attempt p fun name => do
      let handle ← IO.FS.Handle.mk name .append
      handle.write (ByteArray.mk octets.toArray)

instance : FileSystem IO where
  read := read
  holds := holds
  perform := perform

end Disk

/-- The environment of the program. -/
def Environment.get : IO Environment := do
  let instanceId ← IO.getEnv "PCAP_API_INSTANCE_ID"
  let configRoot ← IO.getEnv "PCAP_API_CONFIG_ROOT"
  let logFilter ← IO.getEnv "RUST_LOG"
  pure ⟨instanceId, configRoot, logFilter⟩

/-- A notice as it is printed. -/
def Notice.printed : Notice → String
  | .logged e => e.line ++ "\n"
  | .text s => s

end CaptureConfig

open CaptureConfig in
/-- **The program.** -/
def main (words : List String) : IO UInt32 := do
  let env ← Environment.get
  let said : Transcript ← runArguments words env
  IO.print said.output
  for notice in said.notices do
    IO.eprint notice.printed
  pure said.exit.toUInt32

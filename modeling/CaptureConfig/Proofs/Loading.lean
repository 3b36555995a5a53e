/-
**What is loaded depends on what is read.**

Loading reads one file and changes none, so it is a function of what the reading gives.  Everything
behind the reading can then be told without a file system.

Main definitions:

* `PropertyFile.ofReading`, `Outcome.ofReading` — what comes of what is read at a path.

Main results:

* `Outcome.load_run` — **loading is reading once**;
* `Outcome.exists_resolve_of_ofReading` — an outcome comes from a resolution.
-/

import CaptureConfig.Loading
import CaptureConfig.Proofs.Resolution
import CaptureConfig.Proofs.Store.Change

set_option relaxedAutoImplicit false
set_option autoImplicit false

namespace CaptureConfig

/-- **The property file that comes of what is read at a path.** -/
def PropertyFile.ofReading (p : Path) (read : Except Refusal (List UInt8)) : Traced PropertyFile :=
  match Format.ofPath? p with
  | none => Traced.quiet (.error (.unsupportedFormat p))
  | some format =>
      match read with
      | .error why => Traced.quiet (.error (.unreadable p why))
      | .ok octets => PropertyFile.ofOctets p format octets

theorem PropertyFile.load_run (p : Path) (t : FileTree) :
    (PropertyFile.load p : StateM FileTree _) t = (PropertyFile.ofReading p (t.read p), t) := by
  rw [load, ofReading]
  cases Format.ofPath? p with
  | none => rfl
  | some format =>
      have hread : (FileSystem.read p : StateM FileTree _) t = (t.read p, t) := rfl
      simp only [bind_run, hread]
      cases t.read p <;> rfl

namespace Outcome

/-- **The configuration that comes of what is read at a path.** -/
def ofReading (p : Path) (read : Except Refusal (List UInt8)) (instanceId : Option String)
    (root : Path) : Traced Outcome :=
  PropertyFile.ofReading p read >>= fun f => f.resolve instanceId root

section

variable {p : Path} {read : Except Refusal (List UInt8)} {instanceId : Option String} {root : Path}

/-- **Loading is reading once.** -/
theorem load_run (p : Path) (instanceId : Option String) (root : Path) (t : FileTree) :
    (Outcome.load p instanceId root : StateM FileTree _) t =
      (ofReading p (t.read p) instanceId root, t) := by
  rw [load, bind_run, PropertyFile.load_run]
  rfl

/-- An outcome comes from the resolution of a property file. -/
theorem exists_resolve_of_ofReading {o : Outcome}
    (h : (ofReading p read instanceId root).result = .ok o) :
    ∃ f : PropertyFile, (PropertyFile.ofReading p read).result = .ok f ∧
      (f.resolve instanceId root).result = .ok o := by
  rw [ofReading, Traced.result_bind] at h
  exact bind_eq_ok_iff.1 h

end

end Outcome

/-- A property file comes of octets that were read, at a path that tells their notation. -/
theorem PropertyFile.exists_of_ofReading {p : Path} {read : Except Refusal (List UInt8)}
    {f : PropertyFile} (h : (PropertyFile.ofReading p read).result = .ok f) :
    ∃ format octets, Format.ofPath? p = some format ∧ read = .ok octets ∧
      (PropertyFile.ofOctets p format octets).result = .ok f := by
  rw [ofReading] at h
  split at h
  next => cases h
  next format hformat =>
    split at h
    next => cases h
    next octets => exact ⟨format, octets, hformat, rfl, h⟩

/-! ### Non-vacuity -/

namespace Bare

/-- The name of a property file in the current directory. -/
def path : Path := .ofString "pcap-api.json"

/-- A property file that says as little as can be. -/
def text : String := "\x7b\"spec\": \x7b\"id\": \"f9281cda-1234-bbcd-ef12-1337cafe0048\"\x7d\x7d"

/-- A tree with that file and nothing else. -/
def tree : FileTree where
  root := .directory [(path.octets, .file ⟨0o644, Utf8.encode text⟩)]
  current := []

end Bare

end CaptureConfig

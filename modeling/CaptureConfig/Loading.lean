/-
**From a file to a configuration.**

The notation of a property file is told by its path, before anything is read.  The instance may be
given besides the file, and is then preferred to the one in it.

Main definitions:

* `PropertyFile.ofOctets` — the property file that octets are;
* `PropertyFile.load` — the property file at a path;
* `Outcome.load` — the configuration that it leads to.
-/

import CaptureConfig.Property.Parse
import CaptureConfig.Resolution.Resolve
import CaptureConfig.Store.Step

set_option relaxedAutoImplicit false
set_option autoImplicit false

namespace CaptureConfig

/-- A property file has been loaded. -/
def Event.loaded (p : Path) (format : Format) : Event where
  level := .debug
  target := "pcap_api_conf_core::conf::loader"
  message := "loaded property file"
  fields := [("path", .text p.display), ("format", .text format.name)]

/-- **The property file that octets are**, read at a path in a notation. -/
def PropertyFile.ofOctets (p : Path) (format : Format) (octets : List UInt8) :
    Traced PropertyFile :=
  match Utf8.decode? octets with
  | none => Traced.quiet (.error (.unreadable p .notUtf8))
  | some s =>
      match PropertyFile.ofText format s with
      | .error fault => Traced.quiet (.error (.parse p fault))
      | .ok file => ⟨[Event.loaded p format], .ok file⟩

/-- The configuration that a property file leads to.  A given instance is preferred. -/
def PropertyFile.resolve (f : PropertyFile) (instanceId : Option String) (root : Path) :
    Traced Outcome :=
  f.properties.resolve ⟨instanceId <|> f.instanceData.id⟩ root

section

variable {m : Type → Type} [Monad m] [FileSystem m]

/-- **The property file at a path.** -/
def PropertyFile.load (p : Path) : m (Traced PropertyFile) :=
  match Format.ofPath? p with
  | none => pure (Traced.quiet (.error (.unsupportedFormat p)))
  | some format => do
      match ← FileSystem.read p with
      | .error why => pure (Traced.quiet (.error (.unreadable p why)))
      | .ok octets => pure (PropertyFile.ofOctets p format octets)

/-- **The configuration that the property file at a path leads to.** -/
def Outcome.load (p : Path) (instanceId : Option String) (root : Path) : m (Traced Outcome) := do
  let file ← PropertyFile.load p
  pure (file.bind fun f => f.resolve instanceId root)

end

end CaptureConfig

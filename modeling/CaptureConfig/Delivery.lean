/-
**Writing a configuration.**

The document comes first, then the planned files in order.  Every file is written in the same
steps: the directories above it, an empty file, for a secret the permissions of its owner alone,
and only then the contents.

Main definitions:

* `Delivery` — a file that is to be written, `Delivery.steps` — how;
* `deliver` — writing files up to the first failure;
* `Outcome.deliveries`, `Outcome.write` — the document and the planned files;
* `Material.Plan.write` — the planned files alone.
-/

import CaptureConfig.Document.Form
import CaptureConfig.Resolution.Resolve
import CaptureConfig.Store.Step

set_option relaxedAutoImplicit false
set_option autoImplicit false

namespace CaptureConfig

/-- The permissions of a new file. -/
def File.sharedMode : Nat := 0o644

/-- The permissions of a secret. -/
def File.secretMode : Nat := 0o600

/-- A file that is to be written, with what is told once it is. -/
structure Delivery where
  path : Path
  contents : String
  isSecret : Bool
  events : List Event
  deriving DecidableEq, Repr

namespace Delivery

/-- The directories above a file. -/
def directorySteps (d : Delivery) : List Step :=
  match d.path.parent? with
  | some p => [.makeDirectories p]
  | none => []

/-- The empty file, which belongs to its owner alone if it is going to hold a secret. -/
def fileSteps (d : Delivery) : List Step :=
  if d.isSecret then [.openEmpty d.path File.secretMode, .setMode d.path File.secretMode]
  else [.openEmpty d.path File.sharedMode]

/-- **How a file is written.** -/
def steps (d : Delivery) : List Step :=
  d.directorySteps ++ d.fileSteps ++ [.append d.path (Utf8.encode d.contents)]

end Delivery

/-- A planned file has been written. -/
def Event.wroteMaterial (f : Material.File) : Event where
  level := .debug
  target := "pcap_api_conf_core::cli::conf::render"
  message := "wrote material file"
  fields := [("path", .text f.path.display), ("kind", .text f.kind.name)]

/-- A planned file as a file that is to be written. -/
def Material.File.delivery (f : Material.File) : Delivery :=
  ⟨f.path, f.contents, f.kind.isSecret, [Event.wroteMaterial f]⟩

/-- The planned files. -/
def Material.Plan.deliveries (p : Material.Plan) : List Delivery := p.files.map (·.delivery)

/-- The document and the planned files.  A document that cannot be written as a text leaves
nothing to write. -/
def Outcome.deliveries (o : Outcome) (form : Config.Form) (root : Path) :
    Except Failure (List Delivery) :=
  (o.config.text form).map fun s =>
    ⟨root.join form.fileName, s, false, []⟩ :: o.materials.deliveries

section

variable {m : Type → Type} [Monad m] [FileSystem m]

/-- **Writing files up to the first failure**, with the paths of those that are written. -/
def deliver : List Delivery → m (Traced (List Path))
  | [] => pure (Traced.quiet (.ok []))
  | d :: rest => do
      match ← performAll d.steps with
      | .error (step, why) => pure (Traced.quiet (.error (.unwritable step.path why)))
      | .ok () => do
          let others ← deliver rest
          pure ⟨d.events ++ others.events, others.result.map (d.path :: ·)⟩

/-- **Writing the document and the planned files.** -/
def Outcome.write (o : Outcome) (form : Config.Form) (root : Path) : m (Traced (List Path)) :=
  match o.deliveries form root with
  | .error failure => pure (Traced.quiet (.error failure))
  | .ok files => deliver files

/-- **Writing the planned files alone.** -/
def Material.Plan.write (p : Material.Plan) : m (Traced (List Path)) := deliver p.deliveries

end

end CaptureConfig

/-
**Resolving a configuration.**

Properties become a configuration in three steps: defaults, rules, and the placing of materials
below a root.  Nothing is written; what has to be written is planned.

Main definitions:

* `Checked.place` — the document and the planned files;
* `Outcome` — a document with its plan and the report;
* `Properties.resolve` — the three steps, with their events.
-/

import CaptureConfig.Document.Config
import CaptureConfig.Resolution.Materials

set_option relaxedAutoImplicit false
set_option autoImplicit false

namespace CaptureConfig

namespace Checked

/-- The part of an identifier before the instance. -/
def idPrefix : String := "pcap-api/"

/-- The identifier: the given instance, else the one among the properties. -/
def identifier (c : Checked) (i : Instance) : Except Failure String :=
  match Identifier.ofText (i.id <|> c.id) with
  | .ok text => .ok (idPrefix ++ text)
  | .error fault => .error (.invalidIdentifier fault)

/-- The files of an encrypted listener. -/
def tlsFiles (root : Path) (m : TlsMaterial) : List Material.File :=
  [⟨.certificate, Material.place root .certificate, m.certificate⟩,
   ⟨.privateKey, Material.place root .privateKey, m.privateKey⟩,
   ⟨.clientCas, Material.place root .clientCas, m.ca⟩]

/-- The names of those files. -/
def tlsConfig (root : Path) : Config.Tls where
  certificate := Material.place root .certificate
  privateKey := Material.place root .privateKey
  clientCas := Material.place root .clientCas

/-- The contents of the allowlist: a line for each entry, without the blanks around it. -/
def allowlistContents (entries : List String) : String :=
  String.join (entries.map fun e => Text.trim e ++ "\n")

/-- The file of the allowlist. -/
def allowlistFile (root : Path) (entries : List String) : Material.File :=
  ⟨.cidrAllowlist, Material.place root .cidrAllowlist, allowlistContents entries⟩

/-- The planned files. -/
def plan (c : Checked) (root : Path) : Material.Plan :=
  ⟨(c.tls.map (tlsFiles root)).getD [] ++ (c.cidrAllowlist.map (allowlistFile root)).toList⟩

/-- The document for an identifier. -/
def config (c : Checked) (id : String) (root : Path) : Config where
  id := id
  logLevel := c.logLevel
  concurrentCaptures := c.concurrentCaptures
  buffer := c.buffer
  port := c.port
  tls := c.tls.map fun _ => tlsConfig root
  bosh := c.bosh
  enableIpRestriction := c.cidrAllowlist.isSome
  cidrAllowlist := c.cidrAllowlist.map fun _ => Material.place root .cidrAllowlist

/-- **The document and the planned files.** -/
def place (c : Checked) (i : Instance) (root : Path) : Except Failure (Config × Material.Plan) :=
  (c.identifier i).map fun id => (c.config id root, c.plan root)

end Checked

/-- A document with its plan and the report. -/
structure Outcome where
  config : Config
  materials : Material.Plan
  report : Report
  deriving DecidableEq, Repr

/-! ### Events -/

namespace Event

/-- The part of the program that resolves. -/
def resolveTarget : String := "pcap_api_conf_core::conf::resolve"

/-- Defaults have been applied. -/
def defaultsApplied (d : Defaulted) : Event where
  level := .debug
  target := resolveTarget
  message := "applied property defaults"
  fields := [("log_level", .text d.logLevel), ("port", .number d.port.toNat),
    ("enable_ip_restriction", .flag d.enableIpRestriction)]

/-- A rule is broken. -/
def ruleBroken (e : Failure) : Event where
  level := .debug
  target := resolveTarget
  message := "property validation failed"
  fields := [("kind", .text e.kind.name), ("error", .text e.message)]

/-- The configuration is resolved. -/
def resolved (o : Outcome) : Event where
  level := .debug
  target := resolveTarget
  message := "resolved pcap-api configuration"
  fields := [("id", .text o.config.id), ("tls", .flag o.config.tls.isSome),
    ("material_files", .number o.materials.files.length),
    ("warnings", .number o.report.findings.length)]

end Event

/-- Rules, with an event if one is broken. -/
def Defaulted.checkTold (d : Defaulted) : Traced (Checked × Report) :=
  let t := d.check
  match t.result with
  | .ok _ => t
  | .error e => ⟨t.events ++ [Event.ruleBroken e], t.result⟩

/-- **Resolving.** -/
def Properties.resolve (p : Properties) (i : Instance) (root : Path) : Traced Outcome := do
  let d := p.withDefaults
  Traced.tell (.defaultsApplied d)
  let (checked, report) ← d.checkTold
  let (config, materials) ← Traced.quiet (checked.place i root)
  let outcome : Outcome := ⟨config, materials, report⟩
  Traced.tell (.resolved outcome)
  pure outcome

end CaptureConfig

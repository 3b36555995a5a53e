/-
**The rules that properties have to keep.**

The rules are tried in order and the first one that is broken decides: a restriction of addresses
needs an allowlist, the limits of the buffer are ordered, an encrypted listener needs its three
contents, proving oneself to the director needs a common name, and a limit of captures is not zero.
What is odd without breaking a rule becomes a finding.

Main definitions:

* `Checked` — properties that keep the rules, optional blocks narrowed to complete ones;
* `Defaulted.allowlist`, `Defaulted.checkBuffer`, `Properties.Tls.material`,
  `Properties.Mtls.check`, `Defaulted.checkCaptures` — the rules;
* `Defaulted.check` — all rules, and the findings.
-/

import CaptureConfig.Event
import CaptureConfig.Report
import CaptureConfig.Resolution.Defaults

set_option relaxedAutoImplicit false
set_option autoImplicit false

namespace CaptureConfig

/-- The three contents that an encrypted listener needs. -/
structure TlsMaterial where
  certificate : String
  privateKey : String
  ca : String
  deriving DecidableEq, Repr, Inhabited

/-- How the service proves itself to the director. -/
structure Mtls where
  commonName : String
  skipVerify : Bool
  deriving DecidableEq, Repr, Inhabited

/-- How the service reaches the director and its agents. -/
structure Bosh where
  agentPort : UInt16
  directorUrl : String
  tokenScope : String
  mtls : Option Mtls
  deriving DecidableEq, Repr, Inhabited

/-- Properties that keep the rules. -/
structure Checked where
  id : Option String
  logLevel : String
  concurrentCaptures : Option UInt32
  buffer : Option Buffer
  port : UInt16
  tls : Option TlsMaterial
  bosh : Option Bosh
  /-- The allowlist, exactly if addresses are restricted. -/
  cidrAllowlist : Option (List String)
  deriving DecidableEq, Repr, Inhabited

/-- The description of the contents shows none of them. -/
def TlsMaterial.description (_ : TlsMaterial) : String := "TlsMaterial \x7b .. \x7d"

/-! ### Restriction of addresses -/

/-- The entries of a list that are more than blanks. -/
def presentEntries (entries : Option (List String)) : List String :=
  (entries.getD []).filter fun c => ¬ Text.IsBlank c

/-- The finding about an entry of the allowlist, if there is one. -/
def Finding.ofEntry? (index : Nat) (entry : String) : Option Finding :=
  match Network.ofString? (Text.trim entry) with
  | none => some (.invalidNetwork index entry)
  | some network => if network.IsCatchAll then some (.catchAllNetwork index network) else none

/-- The findings about the entries of the allowlist. -/
def Finding.ofEntries (entries : List String) : List Finding :=
  entries.zipIdx.filterMap fun (entry, index) => ofEntry? index entry

/-- The allowlist that is in force, and what is odd about it.  Without a restriction none is in
force; with one it must have an entry. -/
def Defaulted.allowlist (d : Defaulted) : Except Failure (Option (List String) × List Finding) :=
  let entries := presentEntries d.cidrAllowlist
  if d.enableIpRestriction then
    if entries.isEmpty then .error .conflictingConfiguration
    else .ok (some entries, Finding.ofEntries entries)
  else .ok (none, if entries.isEmpty then [] else [.allowlistIgnored])

/-! ### Buffer -/

/-- The order that the limits of a buffer keep. -/
def Buffer.IsOrdered (b : Buffer) : Prop := b.lowerLimit < b.upperLimit ∧ b.upperLimit ≤ b.size

instance (b : Buffer) : Decidable b.IsOrdered := inferInstanceAs (Decidable (_ ∧ _))

/-- The limits of the buffer are ordered. -/
def Defaulted.checkBuffer (d : Defaulted) : Except Failure Unit :=
  match d.buffer with
  | none => .ok ()
  | some b => if b.IsOrdered then .ok () else .error (.invalidBufferBounds b)

/-! ### Encrypted listener -/

/-- The keys of the contents that are missing or blank. -/
def Properties.Tls.missing (t : Properties.Tls) : List String :=
  [("certificate", t.certificate), ("private_key", t.privateKey), ("ca", t.ca)].filterMap
    fun (key, content) => if (Text.present content).isSome then none else some key

/-- The three contents, all of them. -/
def Properties.Tls.material (t : Properties.Tls) : Except Failure TlsMaterial :=
  match Text.present t.certificate, Text.present t.privateKey, Text.present t.ca with
  | some certificate, some privateKey, some ca => .ok ⟨certificate, privateKey, ca⟩
  | _, _, _ => .error (.incompleteTls t.missing)

/-- The contents of the encrypted listener, unless it is switched off. -/
def Defaulted.material (d : Defaulted) : Except Failure (Option TlsMaterial) :=
  match d.tls with
  | none => .ok none
  | some t => if t.isDisabled then .ok none else t.material.map some

/-! ### Director -/

/-- How the service proves itself to the director: a common name is needed, and the director's
certificate is verified unless that is switched off. -/
def Properties.Mtls.check (m : Properties.Mtls) : Except Failure CaptureConfig.Mtls :=
  match Text.present m.commonName with
  | some name => .ok ⟨name, m.skipVerify.getD false⟩
  | none => .error (.incompleteMtls ["common_name"])

/-- What is odd about proving oneself to the director. -/
def Mtls.findings (m : Mtls) : List Finding := if m.skipVerify then [.directorUnverified] else []

/-- The director, and what is odd about it. -/
def Defaulted.director (d : Defaulted) : Except Failure (Option Bosh × List Finding) :=
  match d.bosh with
  | none => .ok (none, [])
  | some b =>
      match b.mtls with
      | none => .ok (some ⟨b.agentPort, b.directorUrl, b.tokenScope, none⟩, [])
      | some m => do
          let mtls ← m.check
          pure (some ⟨b.agentPort, b.directorUrl, b.tokenScope, some mtls⟩, mtls.findings)

/-! ### Captures, level and unknown keys -/

/-- A limit of captures is not zero. -/
def Defaulted.checkCaptures (d : Defaulted) : Except Failure Unit :=
  match d.concurrentCaptures with
  | some n => if n = 0 then .error (.invalidConcurrentCaptures n) else .ok ()
  | none => .ok ()

/-- The finding about a level that the logger does not know. -/
def Defaulted.levelFindings (d : Defaulted) : List Finding :=
  if d.logLevel ∈ knownLevels then [] else [.unknownLevel d.logLevel]

/-- The keys that nobody knows. -/
def Defaulted.unknownKeys (d : Defaulted) : List String := d.extra.map Prod.fst

/-- The event of a key that nobody knows. -/
def Event.unknownProperty (key : String) : Event where
  level := .debug
  target := "pcap_api_conf_core::conf::validation::validator::properties"
  message := "ignoring unknown property"
  fields := [("property", .text key)]

/-! ### All rules -/

/-- **All rules in their order**, and what is odd. -/
def Defaulted.judge (d : Defaulted) : Except Failure (Checked × Report) := do
  let (cidrAllowlist, listFindings) ← d.allowlist
  d.checkBuffer
  let tls ← d.material
  let (bosh, boshFindings) ← d.director
  d.checkCaptures
  pure
    ({ id := d.id, logLevel := d.logLevel, concurrentCaptures := d.concurrentCaptures,
       buffer := d.buffer, port := d.port, tls, bosh, cidrAllowlist },
     ⟨listFindings ++ boshFindings ++ d.levelFindings ++
       d.unknownKeys.map Finding.unknownProperty⟩)

/-- **Properties that keep the rules, and the report.**  Only when they do, an event tells of each
key that nobody knows. -/
def Defaulted.check (d : Defaulted) : Traced (Checked × Report) :=
  match d.judge with
  | .ok outcome => ⟨d.unknownKeys.map Event.unknownProperty, .ok outcome⟩
  | .error e => ⟨[], .error e⟩

end CaptureConfig

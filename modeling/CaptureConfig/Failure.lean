/-
**Why there is no configuration.**

A failure names its cause and carries the data that its wording needs.  Failures fall into a few
kinds, and some come with a hint for the operator.

Main definitions:

* `Failure` — why there is no configuration;
* `Failure.message`, `Failure.hint`, `Failure.kind` — its wording, a hint and its kind.
-/

import CaptureConfig.Identifier
import CaptureConfig.Path
import CaptureConfig.Property.Basic
import CaptureConfig.Schema.Fault
import CaptureConfig.Store.Refusal

set_option relaxedAutoImplicit false
set_option autoImplicit false

namespace CaptureConfig

/-- Why there is no configuration. -/
inductive Failure where
  | unreadable (path : Path) (cause : Refusal)
  | unwritable (path : Path) (cause : Refusal)
  | unsupportedFormat (path : Path)
  | parse (origin : Path) (fault : Fault)
  | invalidIdentifier (fault : Identifier.Fault)
  | conflictingConfiguration
  | invalidBufferBounds (buffer : Buffer)
  | incompleteTls (missing : List String)
  | incompleteMtls (missing : List String)
  | invalidConcurrentCaptures (value : UInt32)
  | pathNotText
  deriving DecidableEq, Repr

/-- The kinds of failures. -/
inductive Failure.Kind where
  | invalidIdentifier
  | conflictingConfiguration
  | invalidBufferBounds
  | incompleteTlsMaterial
  | incompleteMtlsMaterial
  | invalidConcurrentCaptures
  | load
  | serialize
  | io
  deriving DecidableEq, Repr

namespace Failure

/-- The name of a kind. -/
def Kind.name : Kind → String
  | .invalidIdentifier => "InvalidIdentifier"
  | .conflictingConfiguration => "ConflictingConfiguration"
  | .invalidBufferBounds => "InvalidBufferBounds"
  | .incompleteTlsMaterial => "IncompleteTlsMaterial"
  | .incompleteMtlsMaterial => "IncompleteMtlsMaterial"
  | .invalidConcurrentCaptures => "InvalidConcurrentCaptures"
  | .load => "Load"
  | .serialize => "Serialize"
  | .io => "Io"

/-- The kind of a failure. -/
def kind : Failure → Kind
  | .unreadable _ _ => .load
  | .unwritable _ _ => .io
  | .unsupportedFormat _ => .load
  | .parse _ _ => .load
  | .invalidIdentifier _ => .invalidIdentifier
  | .conflictingConfiguration => .conflictingConfiguration
  | .invalidBufferBounds _ => .invalidBufferBounds
  | .incompleteTls _ => .incompleteTlsMaterial
  | .incompleteMtls _ => .incompleteMtlsMaterial
  | .invalidConcurrentCaptures _ => .invalidConcurrentCaptures
  | .pathNotText => .serialize

/-- The name of a failure: for loading and writing its cause, else its kind. -/
def name : Failure → String
  | .unreadable _ _ => "ReadFile"
  | .unwritable _ _ => "WriteFile"
  | .unsupportedFormat _ => "UnsupportedFormat"
  | .parse _ _ => "Parse"
  | f => f.kind.name

/-- A number of 64 bits in decimal. -/
def number64 (n : UInt64) : String := Digits.text n.toNat

/-- The first line of the wording of a property file that cannot be used. -/
def parseHeadline (origin : Path) : String := "invalid property file: " ++ origin.display

/-- **The wording of a failure.** -/
def message : Failure → String
  | .unreadable p c => "failed to read property file " ++ p.display ++ ": " ++ c.message
  | .unwritable p c => "failed to write " ++ p.display ++ ": " ++ c.message
  | .unsupportedFormat p =>
      "unsupported property file format: " ++ p.display ++ " (expected .yml, .yaml, .json or .hcl)"
  | .parse origin fault => parseHeadline origin ++ "\n\n" ++ fault.message
  | .invalidIdentifier fault => "invalid instance identifier: " ++ fault.message
  | .conflictingConfiguration =>
      "Conflicting configuration: pcap-api.enable_ip_restriction is true, " ++
        "please provide a non-empty cidr allowlist"
  | .invalidBufferBounds b =>
      "invalid buffer bounds: lower_limit (" ++ number64 b.lowerLimit ++ ") < upper_limit (" ++
        number64 b.upperLimit ++ ") <= size (" ++ number64 b.size ++ ") does not hold"
  | .incompleteTls missing =>
      "incomplete TLS material for pcap-api.listen.tls, missing: " ++ ", ".intercalate missing
  | .incompleteMtls missing =>
      "incomplete mTLS material for pcap-api.bosh.mtls, missing: " ++ ", ".intercalate missing
  | .invalidConcurrentCaptures n =>
      "invalid pcap-api.concurrent_captures: " ++ Digits.text n.toNat ++
        " (must be greater than zero)"
  | .pathNotText =>
      "failed to serialize resolved configuration: path contains invalid UTF-8 characters"

/-- The cause that is named behind a failure's own wording. -/
def cause? : Failure → Option String
  | .unreadable _ c => some c.message
  | .unwritable _ c => some c.message
  | _ => none

/-- Lines with breaks between them. -/
def paragraph (lines : List String) : String := "\n".intercalate lines

/-- **What an operator can do about a failure.** -/
def hint : Failure → Option String
  | .conflictingConfiguration => some <| paragraph
      ["IP restriction needs at least one allowed network.", "", "Example:", "",
       "enable_ip_restriction: true", "cidr_allowlist: [10.0.0.0/8]"]
  | .invalidBufferBounds _ => some <| paragraph
      ["Buffer limits must satisfy lower_limit < upper_limit <= size.", "", "Example:", "",
       "buffer: \x7b size: 100, upper_limit: 98, lower_limit: 90 \x7d"]
  | .incompleteTls _ => some <| paragraph
      ["TLS on the API listener needs certificate, private_key and ca.", "",
       "Provide all three, or set listen.tls.enabled: false."]
  | .incompleteMtls _ => some <| paragraph
      ["mTLS towards the BOSH director needs the director's common_name.", "",
       "Remove the bosh.mtls block to disable mTLS."]
  | .invalidIdentifier _ => some <| paragraph
      ["The instance id must be a uuid such as f9281cda-1234-bbcd-ef12-1337cafe0048.", "",
       "Pass --instance-id or set spec.id in the property file."]
  | _ => none

end Failure

end CaptureConfig

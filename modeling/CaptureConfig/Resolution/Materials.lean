/-
**Materials.**

Keys, certificates and the allowlist are not part of the configuration document: the document names
files, and the contents are planned for those files.

Main definitions:

* `Material.Kind` — what a file holds;
* `Material.place` — where it lies below a root;
* `Material.File`, `Material.Plan` — a planned file, and all of them in order.
-/

import CaptureConfig.Property.Description
import CaptureConfig.Text.Quoted

set_option relaxedAutoImplicit false
set_option autoImplicit false

namespace CaptureConfig

namespace Material

/-- What a file holds. -/
inductive Kind where
  | certificate
  | privateKey
  | clientCas
  | cidrAllowlist
  deriving DecidableEq, Repr

/-- The name of a kind. -/
def Kind.name : Kind → String
  | .certificate => "Certificate"
  | .privateKey => "PrivateKey"
  | .clientCas => "ClientCas"
  | .cidrAllowlist => "CidrAllowlist"

/-- Only the owner may read it. -/
def Kind.isSecret : Kind → Bool
  | .privateKey => true
  | _ => false

/-- The root of the configuration on a deployed instance. -/
def defaultRoot : Path := Path.ofString "/var/vcap/jobs/pcap-api/config"

/-- **Where a file lies below a root.** -/
def place (root : Path) : Kind → Path
  | .certificate => (root.join "certs").join "pcap-api.crt"
  | .privateKey => (root.join "certs").join "pcap-api.key"
  | .clientCas => (root.join "certs").join "pcap-api-ca.crt"
  | .cidrAllowlist => root.join "allowlist_cidrs.txt"

/-- A planned file. -/
structure File where
  kind : Kind
  path : Path
  contents : String
  deriving DecidableEq, Repr

/-- The description of a planned file tells how many octets it has, not which. -/
def File.description (f : File) : String :=
  Describe.record "MaterialFile"
    [("kind", f.kind.name), ("path", Quoted.path f.path),
     ("bytes", Digits.text (Utf8.encode f.contents).length)]

/-- The planned files in order. -/
structure Plan where
  files : List File
  deriving DecidableEq, Repr

/-- The first planned file of a kind. -/
def Plan.get? (p : Plan) (k : Kind) : Option File := p.files.find? fun f => f.kind = k

/-- The paths of the planned files. -/
def Plan.paths (p : Plan) : List Path := p.files.map File.path

end Material

end CaptureConfig

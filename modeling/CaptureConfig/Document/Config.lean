/-
**The configuration document.**

The document that the service reads when it starts.  Blocks that are missing are left out of it;
keys and certificates are named by their files.

Main definitions:

* `Config` — the document;
* `Config.Tls` — the files of the encrypted listener;
* `Config.toDoc` — the document as nested blocks.
-/

import CaptureConfig.Document.Doc
import CaptureConfig.Resolution.Rules

set_option relaxedAutoImplicit false
set_option autoImplicit false

namespace CaptureConfig

/-- The files of the encrypted listener. -/
structure Config.Tls where
  certificate : Path
  privateKey : Path
  clientCas : Path
  deriving DecidableEq, Repr, Inhabited

/-- The configuration document. -/
structure Config where
  id : String
  logLevel : String
  concurrentCaptures : Option UInt32
  buffer : Option Buffer
  port : UInt16
  tls : Option Config.Tls
  bosh : Option Bosh
  enableIpRestriction : Bool
  cidrAllowlist : Option Path
  deriving DecidableEq, Repr, Inhabited

namespace Config

/-- The paths that a document names. -/
def paths (c : Config) : List Path :=
  (match c.tls with
    | none => []
    | some t => [t.certificate, t.privateKey, t.clientCas]) ++ c.cidrAllowlist.toList

/-- A path as text. -/
def pathDoc (p : Path) : Except Failure Doc :=
  match p.toString? with
  | some s => .ok (.text s)
  | none => .error .pathNotText

/-- An entry that is left out when there is nothing to write. -/
def entryIfAny {α : Type} (key : String) (write : α → Except Failure Doc) :
    Option α → Except Failure (List (String × Doc))
  | none => .ok []
  | some a => (write a).map fun d => [(key, d)]

/-- The block of the buffer. -/
def bufferDoc (b : Buffer) : Doc :=
  .block [("size", .number b.size.toNat), ("upper_limit", .number b.upperLimit.toNat),
    ("lower_limit", .number b.lowerLimit.toNat)]

/-- The block of the files of the encrypted listener. -/
def tlsDoc (t : Tls) : Except Failure Doc := do
  let certificate ← pathDoc t.certificate
  let privateKey ← pathDoc t.privateKey
  let clientCas ← pathDoc t.clientCas
  pure (.block [("certificate", certificate), ("private_key", privateKey),
    ("client_cas", clientCas)])

/-- The block about proving oneself to the director. -/
def mtlsDoc (m : Mtls) : Doc :=
  .block [("common_name", .text m.commonName), ("skip_verify", .flag m.skipVerify)]

/-- The block of the director. -/
def boshDoc (b : Bosh) : Doc :=
  .block ([("agent_port", .number b.agentPort.toNat), ("director_url", .text b.directorUrl),
    ("token_scope", .text b.tokenScope)] ++ (b.mtls.map fun m => ("mtls", mtlsDoc m)).toList)

/-- **The document as nested blocks**, in the order of its keys; a path that is no text cannot be
written. -/
def toDoc (c : Config) : Except Failure Doc := do
  let tls ← entryIfAny "tls" tlsDoc c.tls
  let cidrAllowlist ← entryIfAny "cidr_allowlist" pathDoc c.cidrAllowlist
  pure (.block (
    [("id", .text c.id), ("log_level", .text c.logLevel)] ++
    (c.concurrentCaptures.map fun n => ("concurrent_captures", .number n.toNat)).toList ++
    (c.buffer.map fun b => ("buffer", bufferDoc b)).toList ++
    [("listen", .block (("port", .number c.port.toNat) :: tls))] ++
    (c.bosh.map fun b => ("bosh", boshDoc b)).toList ++
    [("enable_ip_restriction", .flag c.enableIpRestriction)] ++ cidrAllowlist))

end Config

end CaptureConfig

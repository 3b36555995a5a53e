/-
**How a configuration document is read back.**

Main definitions:

* `Config.Reading.config` — the reader of configuration documents in any notation.
-/

import CaptureConfig.Document.Config
import CaptureConfig.Schema.Reader

set_option relaxedAutoImplicit false
set_option autoImplicit false

namespace CaptureConfig

namespace Config

namespace Reading

open Layout Reader

variable {σ : Type} [Scalar σ]

/-- A path. -/
def path : Reader σ Path := (textAs "path string").map Path.ofString

/-- The limits of the buffer. -/
def buffer : Reader σ Buffer := record "struct BufferConfig" <|
  Buffer.mk <$> field "size" u64 <*> field "upper_limit" u64 <*> field "lower_limit" u64

/-- The files of the encrypted listener. -/
def tls : Reader σ Tls := record "struct TlsConfig" <|
  Tls.mk <$> field "certificate" path <*> field "private_key" path <*> field "client_cas" path

/-- The listener. -/
def listen : Reader σ (UInt16 × Option Tls) := record "struct ListenConfig" <|
  Prod.mk <$> field "port" u16 <*> fieldOr none "tls" (optional tls)

/-- How the service proves itself to the director. -/
def mtls : Reader σ Mtls := record "struct MtlsConfig" <|
  Mtls.mk <$> field "common_name" text <*> field "skip_verify" truth

/-- How the service reaches the director and its agents. -/
def bosh : Reader σ Bosh := record "struct BoshConfig" <|
  Bosh.mk <$> field "agent_port" u16 <*> field "director_url" text
    <*> field "token_scope" text <*> fieldOr none "mtls" (optional mtls)

/-- **A configuration document.** -/
def config : Reader σ Config := record "struct ResolvedConfig" <|
  (fun id logLevel concurrentCaptures buffer (port, tls) bosh enableIpRestriction cidrAllowlist =>
    { id, logLevel, concurrentCaptures, buffer, port, tls, bosh, enableIpRestriction,
      cidrAllowlist })
    <$> field "id" text <*> field "log_level" text
    <*> fieldOr none "concurrent_captures" (optional u32)
    <*> fieldOr none "buffer" (optional buffer) <*> field "listen" listen
    <*> fieldOr none "bosh" (optional bosh) <*> field "enable_ip_restriction" truth
    <*> fieldOr none "cidr_allowlist" (optional path)

end Reading

end Config

end CaptureConfig

/-
**How a property file is read.**

Main definitions:

* `Properties.Reading.file` — the reader of property files in any notation.
-/

import CaptureConfig.Property.Basic
import CaptureConfig.Schema.Reader

set_option relaxedAutoImplicit false
set_option autoImplicit false

namespace CaptureConfig

namespace Properties

namespace Reading

open Layout Reader

variable {σ : Type} [Scalar σ]

/-- A text that may be missing. -/
def optionalText : Reader σ (Option String) := optional text

/-- The limits of the buffer. -/
def buffer : Reader σ Buffer := record "struct BufferSpec" <|
  Buffer.mk <$> field "size" u64 <*> field "upper_limit" u64 <*> field "lower_limit" u64

/-- The contents for the encrypted listener. -/
def tls : Reader σ Tls := record "struct TlsSpec" <|
  Tls.mk <$> fieldOr none "enabled" flag <*> field "certificate" optionalText
    <*> field "private_key" optionalText <*> field "ca" optionalText

/-- The listener. -/
def listen : Reader σ Listen := record "struct ListenSpec" <|
  Listen.mk <$> field "port" (optional u16) <*> field "tls" (optional tls)

/-- How the service proves itself to the director. -/
def mtls : Reader σ Mtls := record "struct MtlsSpec" <|
  Mtls.mk <$> field "common_name" optionalText <*> fieldOr none "skip_verify" flag

/-- How the service reaches the director and its agents. -/
def bosh : Reader σ Bosh := record "struct BoshSpec" <|
  Bosh.mk <$> field "agent_port" u16 <*> field "director_url" text
    <*> field "token_scope" text <*> field "mtls" (optional mtls)

/-- The properties; keys that nobody knows are kept. -/
def properties : Reader σ Properties := record "struct PropertySpec" <|
  (fun id logLevel concurrentCaptures buffer listen bosh enableIpRestriction cidrAllowlist extra =>
    { id, logLevel, concurrentCaptures, buffer, listen, bosh, enableIpRestriction, cidrAllowlist,
      extra := sortByKey extra })
    <$> field "id" optionalText <*> field "log_level" optionalText
    <*> field "concurrent_captures" (optional u32) <*> field "buffer" (optional buffer)
    <*> field "listen" (optional listen) <*> field "bosh" (optional bosh)
    <*> fieldOr none "enable_ip_restriction" flag
    <*> field "cidr_allowlist" (optional (list text)) <*> others

/-- The instance. -/
def instanceData : Reader σ Instance := record "struct InstanceSpec" <|
  Instance.mk <$> field "id" optionalText

/-- **A property file.** -/
def file : Reader σ PropertyFile := record "struct PropertyFile" <|
  PropertyFile.mk <$> fieldOr Properties.empty "pcap-api" properties
    <*> fieldOr ⟨none⟩ "spec" instanceData

end Reading

end Properties

end CaptureConfig

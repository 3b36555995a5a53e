/-
**Defaults.**

A property that is missing takes its default, if it has one: the level `info`, the port 8080, no
restriction of addresses.  A block for the encrypted listener is dropped when it is switched off,
and when it neither carries material nor asks for encryption.

Main definitions:

* `Defaulted` — properties after defaulting;
* `Properties.withDefaults` — defaulting.
-/

import CaptureConfig.Property.Basic

set_option relaxedAutoImplicit false
set_option autoImplicit false

namespace CaptureConfig

/-- Properties after defaulting: what has a default is there, optional blocks stay optional. -/
structure Defaulted where
  id : Option String
  logLevel : String
  concurrentCaptures : Option UInt32
  buffer : Option Buffer
  port : UInt16
  tls : Option Properties.Tls
  bosh : Option Properties.Bosh
  enableIpRestriction : Bool
  cidrAllowlist : Option (List String)
  extra : List (String × Value)
  deriving Repr, Inhabited

/-- The level of the logger unless another one is given. -/
def defaultLogLevel : String := "info"

/-- The port of the listener unless another one is given. -/
def defaultPort : UInt16 := 8080

namespace Properties

/-- A block for the encrypted listener that is not switched off, and either carries material or
asks for encryption. -/
def Tls.isRequested (t : Tls) : Bool := ! t.isDisabled && (t.hasMaterial || t.enabled == some true)

/-- **Defaulting.**  Keys that nobody knows are kept. -/
def withDefaults (p : Properties) : Defaulted where
  id := p.id
  logLevel := p.logLevel.getD defaultLogLevel
  concurrentCaptures := p.concurrentCaptures
  buffer := p.buffer
  port := (p.listen.bind Listen.port).getD defaultPort
  tls := (p.listen.bind Listen.tls).filter Tls.isRequested
  bosh := p.bosh
  enableIpRestriction := p.enableIpRestriction.getD false
  cidrAllowlist := p.cidrAllowlist
  extra := p.extra

end Properties

end CaptureConfig

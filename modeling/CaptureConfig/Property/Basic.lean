/-
**The properties of a capture service.**

An operator describes the service in a property file: a block of properties, and the instance that
the configuration is meant for.  Nearly everything is optional.  Keys that nobody knows are kept
with their values, sorted by key.

Main definitions:

* `PropertyFile` — the block of properties and the instance;
* `Properties` — the properties as they are written, nothing filled in;
* `Properties.Tls.isDisabled`, `Properties.Tls.hasMaterial` — what a block for the encrypted
  listener asks for.
-/

import CaptureConfig.Data.Value
import CaptureConfig.Text.Blank

set_option relaxedAutoImplicit false
set_option autoImplicit false

namespace CaptureConfig

/-- The limits of the capture buffer, in packets. -/
structure Buffer where
  size : UInt64
  upperLimit : UInt64
  lowerLimit : UInt64
  deriving DecidableEq, Repr, Inhabited

/-- The instance that a configuration is meant for. -/
structure Instance where
  id : Option String
  deriving DecidableEq, Repr, Inhabited

namespace Properties

/-- Keys and certificates for an encrypted listener, given by content, and a switch. -/
structure Tls where
  enabled : Option Bool
  certificate : Option String
  privateKey : Option String
  ca : Option String
  deriving DecidableEq, Repr, Inhabited

/-- The listener. -/
structure Listen where
  port : Option UInt16
  tls : Option Tls
  deriving DecidableEq, Repr, Inhabited

/-- How the service proves itself to the director. -/
structure Mtls where
  commonName : Option String
  skipVerify : Option Bool
  deriving DecidableEq, Repr, Inhabited

/-- How the service reaches the director and its agents. -/
structure Bosh where
  agentPort : UInt16
  directorUrl : String
  tokenScope : String
  mtls : Option Mtls
  deriving DecidableEq, Repr, Inhabited

/-- Switched off, whatever else is given. -/
def Tls.isDisabled (t : Tls) : Bool := t.enabled == some false

/-- The contents given, in the order of their keys. -/
def Tls.contents (t : Tls) : List (Option String) := [t.certificate, t.privateKey, t.ca]

/-- At least one content is more than blanks. -/
def Tls.hasMaterial (t : Tls) : Bool := t.contents.any fun c => (Text.present c).isSome

end Properties

/-- The properties of the service as an operator writes them. -/
structure Properties where
  id : Option String
  logLevel : Option String
  concurrentCaptures : Option UInt32
  buffer : Option Buffer
  listen : Option Properties.Listen
  bosh : Option Properties.Bosh
  enableIpRestriction : Option Bool
  cidrAllowlist : Option (List String)
  /-- The keys that nobody knows, in ascending order, with their values. -/
  extra : List (String × Value)
  deriving Repr, Inhabited

/-- A sorted list of keys and values with one more entry; an entry with the same key gives way. -/
def insertByKey (key : String) (value : Value) : List (String × Value) → List (String × Value)
  | [] => [(key, value)]
  | (k, v) :: rest =>
      if key < k then (key, value) :: (k, v) :: rest
      else if key = k then (key, value) :: rest
      else (k, v) :: insertByKey key value rest

/-- Entries sorted by key; of entries with the same key the last one stays. -/
def sortByKey (entries : List (String × Value)) : List (String × Value) :=
  entries.foldl (fun sorted (k, v) => insertByKey k v sorted) []

/-- A property file: the block of properties, and the instance. -/
structure PropertyFile where
  properties : Properties
  instanceData : Instance
  deriving Repr, Inhabited

/-- Properties that say nothing. -/
def Properties.empty : Properties := ⟨none, none, none, none, none, none, none, none, []⟩

end CaptureConfig

/-
**Descriptions that keep secrets.**

A block with keys and certificates can be shown in a log, so its description never holds them: a
content that is given is shown as redacted, one that is not as missing.

Main definitions:

* `Describe.record`, `Describe.option` — the layout of a description;
* `Properties.Tls.description` — the description of a block for the encrypted listener.

Main results:

* `Properties.Tls.description_eq_of_isSome_eq` — a description depends on the switch and on which
  contents are given, and on nothing else.
-/

import CaptureConfig.Property.Basic

set_option relaxedAutoImplicit false
set_option autoImplicit false

namespace CaptureConfig

namespace Describe

/-- A record with its fields by name. -/
def record (name : String) (fields : List (String × String)) : String :=
  name ++ " \x7b " ++ ", ".intercalate (fields.map fun (k, v) => k ++ ": " ++ v) ++ " \x7d"

/-- Something that may be missing. -/
def option : Option String → String
  | none => "None"
  | some s => "Some(" ++ s ++ ")"

/-- A truth value. -/
def flag (b : Bool) : String := if b then "true" else "false"

/-- A content that must not be shown. -/
def redacted (content : Option String) : String := option (content.map fun _ => "\"<redacted>\"")

end Describe

namespace Properties

/-- **The description of a block for the encrypted listener.** -/
def Tls.description (t : Tls) : String :=
  Describe.record "TlsSpec"
    [("enabled", Describe.option (t.enabled.map Describe.flag)),
     ("certificate", Describe.redacted t.certificate),
     ("private_key", Describe.redacted t.privateKey),
     ("ca", Describe.redacted t.ca)]

theorem redacted_eq_of_isSome_eq {a b : Option String} (h : a.isSome = b.isSome) :
    Describe.redacted a = Describe.redacted b := by
  cases a <;> cases b <;> simp_all [Describe.redacted]

theorem Tls.description_eq_of_isSome_eq {t u : Tls} (enabled : t.enabled = u.enabled)
    (certificate : t.certificate.isSome = u.certificate.isSome)
    (privateKey : t.privateKey.isSome = u.privateKey.isSome) (ca : t.ca.isSome = u.ca.isSome) :
    t.description = u.description := by
  simp only [Tls.description, enabled, redacted_eq_of_isSome_eq certificate,
    redacted_eq_of_isSome_eq privateKey, redacted_eq_of_isSome_eq ca]

end Properties

end CaptureConfig

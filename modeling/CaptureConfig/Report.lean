/-
**What is noticed without being wrong.**

A configuration can be resolved and still deserve a warning: an allowlist entry that is no
network, a network that lets everyone in, a level that the logger does not know.  Findings are
collected in a report, in the order in which they are made.

Main definitions:

* `Finding` — what can be noticed;
* `Finding.warning` — a finding as a message, the property it is about and help;
* `Report` — findings in order;
* `Report.json`, `Report.plainLines`, `Report.styledLines` — the forms of a report.
-/

import CaptureConfig.Json.Printer
import CaptureConfig.Network

set_option relaxedAutoImplicit false
set_option autoImplicit false

namespace CaptureConfig

/-- The levels that the logger knows. -/
def knownLevels : List String := ["debug", "info", "warn", "error", "dpanic", "panic", "fatal"]

/-- What can be noticed about properties that are not wrong.  An index counts the entries of the
allowlist that are more than blanks. -/
inductive Finding where
  | invalidNetwork (index : Nat) (entry : String)
  | catchAllNetwork (index : Nat) (network : Network)
  | allowlistIgnored
  | unknownLevel (level : String)
  | unknownProperty (key : String)
  | directorUnverified
  deriving DecidableEq, Repr

/-- A finding in words. -/
structure Warning where
  message : String
  /-- The path of the property, with dots between its keys. -/
  property : String
  help : Option String
  deriving DecidableEq, Repr, Inhabited

namespace Finding

/-- The path of an entry of the allowlist. -/
def entryPath (index : Nat) : String := "pcap-api.cidr_allowlist[" ++ Digits.text index ++ "]"

/-- What a finding says. -/
def message : Finding → String
  | .invalidNetwork _ entry => "not a valid CIDR network: '" ++ entry ++ "'"
  | .catchAllNetwork _ network =>
      "allowlist contains a catch-all network: " ++ network.toString
  | .allowlistIgnored => "cidr_allowlist is ignored because enable_ip_restriction is false"
  | .unknownLevel level => "unknown log level: '" ++ level ++ "'"
  | .unknownProperty key => "unknown property '" ++ key ++ "' is ignored"
  | .directorUnverified => "director certificate verification is disabled"

/-- The property that a finding is about. -/
def property : Finding → String
  | .invalidNetwork index _ => entryPath index
  | .catchAllNetwork index _ => entryPath index
  | .allowlistIgnored => "pcap-api.cidr_allowlist"
  | .unknownLevel _ => "pcap-api.log_level"
  | .unknownProperty key => "pcap-api." ++ key
  | .directorUnverified => "pcap-api.bosh.mtls.skip_verify"

/-- What can be done about a finding. -/
def help : Finding → Option String
  | .invalidNetwork _ _ =>
      some "Use address/prefix notation, e.g. 10.0.0.0/8 or 10.10.10.10/32."
  | .catchAllNetwork _ _ => some "A catch-all network makes IP restriction ineffective."
  | .unknownLevel _ => some ("Expected one of: " ++ ", ".intercalate knownLevels ++ ".")
  | _ => none

/-- **A finding in words.** -/
def warning (f : Finding) : Warning := ⟨f.message, f.property, f.help⟩

end Finding

/-- Findings in the order in which they were made. -/
structure Report where
  findings : List Finding
  deriving DecidableEq, Repr, Inhabited

namespace Report

/-- The report without findings. -/
def empty : Report := ⟨[]⟩

/-- A report with one more finding. -/
def add (r : Report) (f : Finding) : Report := ⟨r.findings ++ [f]⟩

/-- The findings in words. -/
def warnings (r : Report) : List Warning := r.findings.map Finding.warning

/-- At least one finding. -/
def hasWarnings (r : Report) : Bool := ! r.findings.isEmpty

/-! ### Forms of a report -/

/-- A text that may be missing, in strict notation. -/
def optionJson : Option String → Json
  | none => .null
  | some s => .text s

/-- A warning in strict notation. -/
def warningJson (w : Warning) : Json :=
  .object [("message", .text w.message), ("property", .text w.property), ("help", optionJson w.help)]

/-- **A report in strict notation.** -/
def json (r : Report) : Json := .object [("warnings", .array (r.warnings.map warningJson))]

/-- The lines of a warning without decoration. -/
def plainWarning (w : Warning) : List String :=
  (w.property ++ ": warning: " ++ w.message) ::
    (w.help.map fun h => "  help: " ++ h).toList

/-- A text in a terminal colour. -/
def coloured (code : String) (s : String) : String := "\x1b[" ++ code ++ "m" ++ s ++ "\x1b[39m"

/-- The lines of a warning for a terminal, with an empty one behind them. -/
def styledWarning (w : Warning) : List String :=
  [w.property, "  \x1b[1m" ++ coloured "33" "warning" ++ "\x1b[0m: " ++ w.message] ++
    (w.help.map fun h => "  " ++ coloured "36" "help" ++ ": " ++ h).toList ++ [""]

/-- A report without decoration. -/
def plainLines (r : Report) : List String := r.warnings.flatMap plainWarning

/-- A report for a terminal: their number, then the warnings; without findings nothing at all. -/
def styledLines (r : Report) : List String :=
  if r.findings.isEmpty then []
  else [Digits.text r.findings.length ++ " warnings", ""] ++ r.warnings.flatMap styledWarning

end Report

end CaptureConfig

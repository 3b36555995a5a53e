/-
**What a warning says.**

Whoever reads a report has its words and nothing else: a message, the property that it is about, and
help.  Here the words of each kind of warning are spelled out, so that what is said of a report can
be said of its words.  A message begins as no message of another kind does, and so the kind of a
warning can be told from its message alone.

Main definitions:

* `Warning.invalidNetwork` and the others — the kinds of warnings;
* `Finding.inWords` — the warning that a finding is put as;
* `Warning.begins` — how a message begins.

Main results:

* `Finding.warning_eq_inWords` — **a finding is put into these words**;
* `Report.filter_begins_warnings` — the warnings of a kind are those that the findings of that kind
  are put as.
-/

import CaptureConfig.Report

set_option relaxedAutoImplicit false
set_option autoImplicit false

namespace CaptureConfig

namespace Warning

/-- This entry is no network; the index is its number. -/
def invalidNetwork (index : Nat) (entry : String) : Warning where
  message := "not a valid CIDR network: '" ++ entry ++ "'"
  property := "pcap-api.cidr_allowlist[" ++ Digits.text index ++ "]"
  help := some "Use address/prefix notation, e.g. 10.0.0.0/8 or 10.10.10.10/32."

/-- The entry of this number is a network of this name, which lets everyone in. -/
def catchAllNetwork (index : Nat) (name : String) : Warning where
  message := "allowlist contains a catch-all network: " ++ name
  property := "pcap-api.cidr_allowlist[" ++ Digits.text index ++ "]"
  help := some "A catch-all network makes IP restriction ineffective."

/-- There is a list, but no restriction to it. -/
def allowlistIgnored : Warning where
  message := "cidr_allowlist is ignored because enable_ip_restriction is false"
  property := "pcap-api.cidr_allowlist"
  help := none

/-- The logger does not know this level. -/
def unknownLevel (level : String) : Warning where
  message := "unknown log level: '" ++ level ++ "'"
  property := "pcap-api.log_level"
  help := some "Expected one of: debug, info, warn, error, dpanic, panic, fatal."

/-- Nobody knows this key. -/
def unknownProperty (key : String) : Warning where
  message := "unknown property '" ++ key ++ "' is ignored"
  property := "pcap-api." ++ key
  help := none

/-- The director may be anyone. -/
def directorUnverified : Warning where
  message := "director certificate verification is disabled"
  property := "pcap-api.bosh.mtls.skip_verify"
  help := none

/-- The message begins like this. -/
def begins (front : String) (w : Warning) : Bool := front.toList.isPrefixOf w.message.toList

end Warning

namespace Finding

/-- The warning that a finding is put as. -/
def inWords : Finding → Warning
  | .invalidNetwork index entry => .invalidNetwork index entry
  | .catchAllNetwork index n => .catchAllNetwork index n.toString
  | .allowlistIgnored => .allowlistIgnored
  | .unknownLevel level => .unknownLevel level
  | .unknownProperty key => .unknownProperty key
  | .directorUnverified => .directorUnverified

/-- **A finding is put into these words.** -/
theorem warning_eq_inWords (f : Finding) : f.warning = f.inWords := by
  cases f <;> rfl

/-! ### Kinds -/

/-- How the messages of a kind begin. -/
def front : Finding → String
  | .invalidNetwork _ _ => "not a valid CIDR network: '"
  | .catchAllNetwork _ _ => "allowlist contains a catch-all network: "
  | .allowlistIgnored => "cidr_allowlist is ignored because enable_ip_restriction is false"
  | .unknownLevel _ => "unknown log level: '"
  | .unknownProperty _ => "unknown property '"
  | .directorUnverified => "director certificate verification is disabled"

theorem exists_message_eq (f : Finding) : ∃ rest, f.inWords.message = f.front ++ rest := by
  cases f with
  | invalidNetwork _ entry => exact ⟨entry ++ "'", String.append_assoc ..⟩
  | catchAllNetwork _ n => exact ⟨n.toString, rfl⟩
  | allowlistIgnored => exact ⟨"", rfl⟩
  | unknownLevel level => exact ⟨level ++ "'", String.append_assoc ..⟩
  | unknownProperty key => exact ⟨key ++ "' is ignored", String.append_assoc ..⟩
  | directorUnverified => exact ⟨"", rfl⟩

/-- No kind begins as another one goes on. -/
theorem front_eq_of_begins {f g : Finding} (h : f.front.toList <+: g.front.toList) :
    f.front = g.front := by
  revert h
  cases f <;> cases g <;> simp only [front] <;> decide

/-- **The kinds of warnings begin differently.** -/
theorem begins_front_iff (f g : Finding) : g.inWords.begins f.front = true ↔ g.front = f.front := by
  obtain ⟨rest, hmessage⟩ := g.exists_message_eq
  rw [Warning.begins, List.isPrefixOf_iff_prefix, hmessage, String.toList_append]
  constructor
  · intro h
    obtain h | h := List.prefix_or_prefix_of_prefix h (List.prefix_append _ _)
    · exact (front_eq_of_begins h).symm
    · exact front_eq_of_begins h
  · intro h
    rw [h]
    exact List.prefix_append _ _

end Finding

theorem Report.warnings_eq_map_inWords (r : Report) :
    r.warnings = r.findings.map Finding.inWords :=
  List.map_congr_left fun f _ => f.warning_eq_inWords

/-- Every finding is told. -/
theorem Report.mem_warnings {r : Report} {f : Finding} (h : f ∈ r.findings) :
    f.inWords ∈ r.warnings := by
  rw [r.warnings_eq_map_inWords]
  exact List.mem_map_of_mem h

/-- **The warnings of a kind are those that the findings of that kind are put as**, in order. -/
theorem Report.filter_begins_warnings (r : Report) (f : Finding) :
    r.warnings.filter (Warning.begins f.front) =
      (r.findings.filter fun g => g.front = f.front).map Finding.inWords := by
  rw [r.warnings_eq_map_inWords, List.filter_map]
  refine congrArg _ (List.filter_congr fun g _ => ?_)
  rw [Function.comp_apply, Bool.eq_iff_iff, Finding.begins_front_iff, decide_eq_true_eq]

end CaptureConfig

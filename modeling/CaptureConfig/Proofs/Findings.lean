/-
**What a report says, and where it points.**

Properties that keep the rules come with a report.  It is told here by what the operator wrote and
in the words that the operator reads: the list is the one that was supplied, with its blank entries,
and the keys that nobody knows are told in the order of their octets.  Each thing worth a word is
said once, in a fixed order, and nothing else is said.

An index in a report counts only the entries that are more than blanks.  So it is the place of the
entry in the supplied list exactly if no blank entry stands before it.

Main definitions:

* `Finding.Concerns`, `Warning.Concerns` — what is odd about an entry, and in words;
* `AreAbout`, `IsSaid` — what is said about a supplied list, and what is said once;
* `Defaulted.IsReportedBy` — warnings that say all of it and nothing else.

Main results:

* `Defaulted.isReportedBy_of_check` — **a report is complete, sound and in order**, and keys that
  nobody knows change nothing but the report;
* `Defaulted.concerned_of_check` — **which entry an index stands for**.
-/

import CaptureConfig.Proofs.Network.Text
import CaptureConfig.Proofs.Number.Digits
import CaptureConfig.Proofs.Property.Order
import CaptureConfig.Proofs.Rules
import CaptureConfig.Proofs.Utf8
import CaptureConfig.Proofs.Warning

set_option relaxedAutoImplicit false
set_option autoImplicit false

namespace CaptureConfig

/-! ### What is said -/

section

variable {α β : Type}

/-- **What is said about a list**, with the number of entries before it that are more than blanks,
if this is what can be said about an entry. -/
inductive AreAbout (Concerns : Nat → String → α → Prop) : Nat → List String → List α → Prop
  | nil (index : Nat) : AreAbout Concerns index [] []
  /-- A blank entry is passed over and not counted. -/
  | blank {index : Nat} {entry : String} {rest : List String} {said : List α}
      (blank : Text.trim entry = "") (more : AreAbout Concerns index rest said) :
      AreAbout Concerns index (entry :: rest) said
  | odd {index : Nat} {entry : String} {rest : List String} {a : α} {said : List α}
      (present : Text.trim entry ≠ "") (odd : Concerns index entry a)
      (more : AreAbout Concerns (index + 1) rest said) :
      AreAbout Concerns index (entry :: rest) (a :: said)
  /-- Nothing is said of a network that shuts someone out. -/
  | fine {index : Nat} {entry : String} {rest : List String} {n : Network} {said : List α}
      (present : Text.trim entry ≠ "") (network : Network.ofString? (Text.trim entry) = some n)
      (some : n.prefixLength ≠ 0) (more : AreAbout Concerns (index + 1) rest said) :
      AreAbout Concerns index (entry :: rest) said

/-- What is said about a list can be put otherwise. -/
theorem AreAbout.map {P : Nat → String → α → Prop} {Q : Nat → String → β → Prop} {f : α → β}
    (hf : ∀ index entry a, P index entry a → Q index entry (f a)) {index : Nat}
    {entries : List String} {said : List α} (h : AreAbout P index entries said) :
    AreAbout Q index entries (said.map f) := by
  induction h with
  | nil index => exact .nil index
  | blank blank _ ih => exact .blank blank ih
  | odd present odd _ ih => exact .odd present (hf _ _ _ odd) ih
  | fine present network some _ ih => exact .fine present network some ih

/-- It is said once if something is the case, and not if it is not. -/
inductive IsSaid (a : α) (p : Prop) : List α → Prop
  | yes (h : p) : IsSaid a p [a]
  | no (h : ¬ p) : IsSaid a p []

theorem isSaid_ite (a : α) (p : Prop) [Decidable p] : IsSaid a p (if p then [a] else []) := by
  split
  next h => exact .yes h
  next h => exact .no h

theorem IsSaid.map {a : α} {p : Prop} {said : List α} (h : IsSaid a p said) (f : α → β) :
    IsSaid (f a) p (said.map f) := by
  cases h with
  | yes h => exact .yes h
  | no h => exact .no h

theorem IsSaid.eq_of_mem {a b : α} {p : Prop} {said : List α} (h : IsSaid a p said)
    (hb : b ∈ said) : b = a := by
  cases h with
  | yes _ => exact List.mem_singleton.1 hb
  | no _ => exact absurd hb List.not_mem_nil

end

/-! ### Entries of the allowlist -/

namespace Finding

/-- **What is odd about an entry**: without the blanks around it, it is no network, or one that
every address of its version belongs to. -/
inductive Concerns (index : Nat) (entry : String) : Finding → Prop
  | invalid (no : Network.ofString? (Text.trim entry) = none) :
      Concerns index entry (.invalidNetwork index entry)
  | catchAll {n : Network} (network : Network.ofString? (Text.trim entry) = some n)
      (all : n.prefixLength = 0) : Concerns index entry (.catchAllNetwork index n)

theorem concerns_of_eq_some {index : Nat} {entry : String} {f : Finding}
    (h : ofEntry? index entry = some f) : f.Concerns index entry := by
  unfold ofEntry? at h
  cases hn : Network.ofString? (Text.trim entry) with
  | none =>
      simp only [hn, Option.some.injEq] at h
      exact h ▸ .invalid hn
  | some n =>
      simp only [hn, Option.ite_none_right_eq_some, Option.some.injEq] at h
      exact h.2 ▸ .catchAll hn h.1

theorem exists_network_of_eq_none {index : Nat} {entry : String}
    (h : ofEntry? index entry = none) :
    ∃ n, Network.ofString? (Text.trim entry) = some n ∧ n.prefixLength ≠ 0 := by
  unfold ofEntry? at h
  cases hn : Network.ofString? (Text.trim entry) with
  | none => simp [hn] at h
  | some n =>
      simp only [hn, ite_eq_right_iff, reduceCtorEq, imp_false] at h
      exact ⟨n, rfl, h⟩

/-- The findings about the entries that are more than blanks are those about the whole list. -/
theorem areAbout_filter (entries : List String) (index : Nat) :
    AreAbout Concerns index entries
      (((entries.filter fun s => Text.trim s ≠ "").zipIdx index).filterMap
        fun (entry, index) => ofEntry? index entry) := by
  induction entries generalizing index with
  | nil => exact .nil index
  | cons entry rest ih =>
      by_cases present : Text.trim entry = ""
      · rw [List.filter_cons_of_neg (by simp [present])]
        exact .blank present (ih index)
      · rw [List.filter_cons_of_pos (by simp [present]), List.zipIdx_cons]
        cases hf : ofEntry? index entry with
        | none =>
            obtain ⟨n, network, some⟩ := exists_network_of_eq_none hf
            simpa only [List.filterMap_cons, hf] using .fine present network some (ih (index + 1))
        | some f =>
            simpa only [List.filterMap_cons, hf] using
              .odd present (concerns_of_eq_some hf) (ih (index + 1))

theorem areAbout_ofEntries (entries : Option (List String)) :
    AreAbout Concerns 0 (entries.getD []) (ofEntries (presentEntries entries)) := by
  rw [presentEntries_eq_filter]
  exact areAbout_filter _ 0

/-- **A finding is about an entry**, and its index counts what is present before that entry. -/
theorem exists_concerns {index : Nat} {entries : List String} {findings : List Finding}
    (h : AreAbout Concerns index entries findings) {f : Finding} (hf : f ∈ findings) :
    ∃ place entry, entries[place]? = some entry ∧
      f.Concerns (index + ((entries.take place).filter fun s => Text.trim s ≠ "").length) entry := by
  induction h with
  | nil _ => exact absurd hf List.not_mem_nil
  | blank blank _ ih =>
      obtain ⟨place, entry, hentry, concerns⟩ := ih hf
      refine ⟨place + 1, entry, hentry, ?_⟩
      rwa [List.take_succ_cons, List.filter_cons_of_neg (by simp [blank])]
  | odd present odd _ ih =>
      obtain rfl | hf := List.mem_cons.1 hf
      · exact ⟨0, _, rfl, odd⟩
      · obtain ⟨place, entry, hentry, concerns⟩ := ih hf
        refine ⟨place + 1, entry, hentry, ?_⟩
        rw [List.take_succ_cons, List.filter_cons_of_pos (by simp [present]), List.length_cons]
        rwa [Nat.add_assoc, Nat.add_comm 1] at concerns
  | fine present _ _ _ ih =>
      obtain ⟨place, entry, hentry, concerns⟩ := ih hf
      refine ⟨place + 1, entry, hentry, ?_⟩
      rw [List.take_succ_cons, List.filter_cons_of_pos (by simp [present]), List.length_cons]
      rwa [Nat.add_assoc, Nat.add_comm 1] at concerns

end Finding

/-- **What is odd about an entry, in words**: the entry is quoted as it is, and the network is named
by a text that is read as that network. -/
inductive Warning.Concerns (index : Nat) (entry : String) : Warning → Prop
  | invalid (no : Network.ofString? (Text.trim entry) = none) :
      Concerns index entry (.invalidNetwork index entry)
  | catchAll {n : Network} (network : Network.ofString? (Text.trim entry) = some n)
      (all : n.prefixLength = 0) (named : Network.ofString? n.toString = some n) :
      Concerns index entry (.catchAllNetwork index n.toString)

theorem Finding.Concerns.inWords {index : Nat} {entry : String} {f : Finding}
    (h : f.Concerns index entry) : f.inWords.Concerns index entry := by
  cases h with
  | invalid no => exact .invalid no
  | catchAll network all => exact .catchAll network all (Network.ofString?_toString network)

/-! ### The whole report -/

namespace Defaulted

/-- The list has an entry that is more than blanks. -/
def HasEntry (d : Defaulted) : Prop :=
  ∃ list, d.cidrAllowlist = some list ∧ ∃ entry ∈ list, Text.trim entry ≠ ""

/-- The director's certificate is not verified. -/
def SkipsVerification (d : Defaulted) : Prop :=
  ∃ b m, d.bosh = some b ∧ b.mtls = some m ∧ m.skipVerify = some true

/-- Keys that nobody knows, each of them once, in ascending order of their octets. -/
structure AreUnknown (d : Defaulted) (keys : List String) : Prop where
  mem_iff : ∀ key, key ∈ keys ↔ ∃ v, (key, v) ∈ d.extra
  ascending : keys.Pairwise fun j k => Utf8.encode j < Utf8.encode k

/-- **Warnings that say all there is to say, in order, and nothing else.** -/
inductive IsReportedBy (d : Defaulted) : List Warning → Prop
  /-- Without a restriction the list is ignored, and that is said if it has an entry. -/
  | free {ignored director level : List Warning} {keys : List String}
      (unrestricted : d.enableIpRestriction = false)
      (list : IsSaid .allowlistIgnored d.HasEntry ignored)
      (verify : IsSaid .directorUnverified d.SkipsVerification director)
      (log : IsSaid (.unknownLevel d.logLevel) (d.logLevel ∉ knownLevels) level)
      (unknown : d.AreUnknown keys) :
      IsReportedBy d (ignored ++ director ++ level ++ keys.map .unknownProperty)
  /-- With a restriction there is a list, and its entries are gone through. -/
  | restricted {entries : List String} {odd director level : List Warning} {keys : List String}
      (restricted : d.enableIpRestriction = true) (given : d.cidrAllowlist = some entries)
      (list : AreAbout Warning.Concerns 0 entries odd)
      (verify : IsSaid .directorUnverified d.SkipsVerification director)
      (log : IsSaid (.unknownLevel d.logLevel) (d.logLevel ∉ knownLevels) level)
      (unknown : d.AreUnknown keys) :
      IsReportedBy d (odd ++ director ++ level ++ keys.map .unknownProperty)

theorem hasEntry_iff {d : Defaulted} : d.HasEntry ↔ presentEntries d.cidrAllowlist ≠ [] := by
  rw [ne_eq, presentEntries_eq_nil_iff, HasEntry]
  simp only [Classical.not_forall, exists_prop, ne_eq]

theorem isSaid_director {d : Defaulted} {bosh : Option Bosh} {findings : List Finding}
    (h : d.director = .ok (bosh, findings)) :
    IsSaid Finding.directorUnverified d.SkipsVerification findings := by
  rw [director] at h
  cases hb : d.bosh with
  | none =>
      simp only [hb, Except.ok.injEq, Prod.mk.injEq] at h
      exact h.2 ▸ .no (by simp [SkipsVerification, hb])
  | some b =>
      simp only [hb] at h
      cases hm : b.mtls with
      | none =>
          simp only [hm, Except.ok.injEq, Prod.mk.injEq] at h
          exact h.2 ▸ .no (by simp [SkipsVerification, hb, hm])
      | some m =>
          simp only [hm, bind_eq_ok_iff] at h
          obtain ⟨n, hn, h⟩ := h
          simp only [pure, Except.pure, Except.ok.injEq, Prod.mk.injEq] at h
          have hskip : d.SkipsVerification ↔ n.skipVerify = true := by
            rw [(Properties.Mtls.narrows_of_check hn).skipVerify]
            cases hs : m.skipVerify <;> simp [SkipsVerification, hb, hm, hs]
          rw [hskip, ← h.2, Mtls.findings]
          exact isSaid_ite _ _

theorem isSaid_level (d : Defaulted) :
    IsSaid (Finding.unknownLevel d.logLevel) (d.logLevel ∉ knownLevels) d.levelFindings := by
  rw [levelFindings, ← ite_not]
  exact isSaid_ite _ _

theorem areUnknown_unknownKeys {d : Defaulted} (h : IsAscending d.extra) :
    d.AreUnknown d.unknownKeys where
  mem_iff key := by simp [unknownKeys]
  ascending := List.pairwise_map.2 (h.imp Utf8.encode_lt_encode)

/-- What keeps the rules, without the report. -/
theorem map_fst_judge (d : Defaulted) : d.judge.map Prod.fst =
    (do let (list, _) ← d.allowlist
        d.checkBuffer
        let tls ← d.material
        let (bosh, _) ← d.director
        d.checkCaptures
        pure (d.checked tls bosh list)) := by
  rw [judge]
  cases d.allowlist with
  | error e => rfl
  | ok list => cases d.checkBuffer with
    | error e => rfl
    | ok _ => cases d.material with
      | error e => rfl
      | ok tls => cases d.director with
        | error e => rfl
        | ok bosh => cases d.checkCaptures <;> rfl

/-- **A report is complete, sound and in order**, word for word, and keys that nobody knows decide
neither whether the rules are kept nor what keeps them. -/
theorem isReportedBy_of_check (d : Defaulted) :
    (IsAscending d.extra → ∀ c r, d.check.result = .ok (c, r) → d.IsReportedBy r.warnings) ∧
      ∀ extra, ({ d with extra } : Defaulted).check.result.map Prod.fst =
        ({ d with extra := [] } : Defaulted).check.result.map Prod.fst := by
  constructor
  · intro ascending c r h
    rw [result_check, judge_eq_ok_iff] at h
    obtain ⟨list, listFindings, tls, bosh, boshFindings, hlist, -, -, hbosh, -, -, rfl⟩ := h
    have verify := (isSaid_director hbosh).map Finding.inWords
    have log := d.isSaid_level.map Finding.inWords
    have unknown := areUnknown_unknownKeys ascending
    have hkeys : (d.unknownKeys.map Finding.unknownProperty).map Finding.inWords =
        d.unknownKeys.map .unknownProperty := List.map_map ..
    rw [Report.warnings_eq_map_inWords, List.map_append, List.map_append, List.map_append, hkeys]
    rw [allowlist_eq_ok_iff] at hlist
    cases hr : d.enableIpRestriction with
    | false =>
        simp only [hr, Bool.false_eq_true, if_false, ← ite_not (p := _ = [])] at hlist
        rw [hlist.2]
        refine .free hr ?_ verify log unknown
        rw [hasEntry_iff]
        exact IsSaid.map (isSaid_ite Finding.allowlistIgnored _) Finding.inWords
    | true =>
        simp only [hr, if_true] at hlist
        obtain ⟨entries, given, -⟩ := hasEntry_iff.2 hlist.1
        rw [hlist.2.2]
        refine .restricted hr given ?_ verify log unknown
        have about := Finding.areAbout_ofEntries d.cidrAllowlist
        rw [given] at about ⊢
        exact about.map fun _ _ _ concerns => concerns.inWords
  · intro extra
    rw [result_check, result_check, map_fst_judge, map_fst_judge]
    rfl

/-- Properties with everything that is worth a word. -/
def odd : Defaulted :=
  { Properties.empty.withDefaults with
    logLevel := "loud"
    bosh := some ⟨8443, "https://director", "scope", some ⟨some "director", some true⟩⟩
    enableIpRestriction := true
    cidrAllowlist := some [" ", "10.0.0.0", "10.0.0.0/8", "\n0.0.0.0/0"]
    extra := [("cidr_allowlist[7]", .null), ("ähnlich", .null)] }

/-- What is found about them. -/
def oddReport : Report :=
  ⟨[.invalidNetwork 0 "10.0.0.0", .catchAllNetwork 2 (.v4 [0, 0, 0, 0] 0), .directorUnverified,
    .unknownLevel "loud", .unknownProperty "cidr_allowlist[7]", .unknownProperty "ähnlich"]⟩

/-- What is said about them. -/
def oddWarnings : List Warning :=
  [⟨"not a valid CIDR network: '10.0.0.0'", "pcap-api.cidr_allowlist[0]",
      some "Use address/prefix notation, e.g. 10.0.0.0/8 or 10.10.10.10/32."⟩,
    ⟨"allowlist contains a catch-all network: 0.0.0.0/0", "pcap-api.cidr_allowlist[2]",
      some "A catch-all network makes IP restriction ineffective."⟩,
    ⟨"director certificate verification is disabled", "pcap-api.bosh.mtls.skip_verify", none⟩,
    ⟨"unknown log level: 'loud'", "pcap-api.log_level",
      some "Expected one of: debug, info, warn, error, dpanic, panic, fatal."⟩,
    ⟨"unknown property 'cidr_allowlist[7]' is ignored", "pcap-api.cidr_allowlist[7]", none⟩,
    ⟨"unknown property 'ähnlich' is ignored", "pcap-api.ähnlich", none⟩]

/-- The hypotheses are satisfiable with something to say on every account. -/
theorem isReportedBy_odd : IsAscending odd.extra ∧ (∃ c, odd.check.result = .ok (c, oddReport)) ∧
    oddReport.warnings = oddWarnings ∧ odd.IsReportedBy oddWarnings := by
  have ascending : IsAscending odd.extra := by
    rw [IsAscending]
    decide +kernel
  have checked : ∃ c, odd.check.result = .ok (c, oddReport) := ⟨_, rfl⟩
  have said : oddReport.warnings = oddWarnings := by decide +kernel
  obtain ⟨c, h⟩ := checked
  exact ⟨ascending, ⟨c, h⟩, said,
    said ▸ odd.isReportedBy_of_check.1 ascending c oddReport h⟩

/-! ### Where an index points -/

end Defaulted

namespace Finding

theorem entryPath_injective {i j : Nat} (h : entryPath i = entryPath j) : i = j := by
  have htext : Digits.text i = Digits.text j :=
    (String.append_right_inj _).1 ((String.append_left_inj _).1 h)
  rw [← Digits.toNat_ofNat i, String.ofList_injective htext, Digits.toNat_ofNat]

theorem take_toList_append (s t u : String) :
    (s ++ t ++ u).toList.take s.toList.length = s.toList := by
  rw [String.toList_append, String.toList_append, List.append_assoc]
  exact List.take_left

theorem take_entryPath (index : Nat) :
    (entryPath index).toList.take 24 = "pcap-api.cidr_allowlist[".toList :=
  take_toList_append "pcap-api.cidr_allowlist[" _ _

/-- A finding whose property is an entry has the index of that entry, unless it is about a key that
reads like one. -/
theorem eq_of_property {f : Finding} {index : Nat} (h : f.property = entryPath index) :
    (∃ entry, f = .invalidNetwork index entry) ∨ (∃ n, f = .catchAllNetwork index n) ∨
      ∃ key, f = .unknownProperty key ∧ "pcap-api." ++ key = entryPath index := by
  -- The front of the property is enough to tell the other findings apart.
  have htake := (congrArg (fun s => s.toList.take 24) h).trans (take_entryPath index)
  cases f with
  | invalidNetwork i entry => exact .inl ⟨entry, entryPath_injective h ▸ rfl⟩
  | catchAllNetwork i n => exact .inr (.inl ⟨n, entryPath_injective h ▸ rfl⟩)
  | unknownProperty key => exact .inr (.inr ⟨key, rfl, h⟩)
  | allowlistIgnored => exact absurd htake (by decide)
  | unknownLevel level =>
      have htake : "pcap-api.log_level".toList.take 24 = _ := htake
      exact absurd htake (by decide)
  | directorUnverified => exact absurd htake (by decide)

end Finding

namespace Defaulted

/-- **Which entry an index stands for**, under a restriction: one that the finding is about, with as
many entries before it that are more than blanks.  It is the place of that entry exactly if no blank
entry stands before it. -/
theorem concerned_of_check {d : Defaulted} {c : Checked} {r : Report}
    (h : d.check.result = .ok (c, r)) (restricted : d.enableIpRestriction = true) {f : Finding}
    (hf : f ∈ r.findings) {index : Nat} (hp : f.property = Finding.entryPath index) :
    (∃ key v, (key, v) ∈ d.extra ∧ f = .unknownProperty key ∧
      "pcap-api." ++ key = Finding.entryPath index) ∨
    ∃ list place entry, d.cidrAllowlist = some list ∧ list[place]? = some entry ∧
      f.Concerns index entry ∧
      index = ((list.take place).filter fun s => Text.trim s ≠ "").length ∧
      (index = place ↔ ∀ s ∈ list.take place, Text.trim s ≠ "") := by
  rw [result_check, judge_eq_ok_iff] at h
  obtain ⟨_, listFindings, tls, bosh, boshFindings, hlist, -, -, hbosh, -, -, rfl⟩ := h
  simp only [allowlist_eq_ok_iff, restricted, if_true] at hlist
  obtain ⟨list, given, -⟩ := hasEntry_iff.2 hlist.1
  have about : AreAbout Finding.Concerns 0 list listFindings := by
    have about := Finding.areAbout_ofEntries d.cidrAllowlist
    rwa [← hlist.2.2, given] at about
  simp only [List.mem_append, or_assoc] at hf
  rcases hf with hf | hf | hf | hf
  · obtain ⟨place, entry, hentry, concerns⟩ := Finding.exists_concerns about hf
    rw [Nat.zero_add] at concerns
    have hindex : index = ((list.take place).filter fun s => Text.trim s ≠ "").length := by
      rcases Finding.eq_of_property hp with ⟨_, rfl⟩ | ⟨_, rfl⟩ | ⟨_, rfl, -⟩ <;> cases concerns <;>
        rfl
    have hplace : (list.take place).length = place :=
      List.length_take_of_le (Nat.le_of_lt (List.getElem?_eq_some_iff.1 hentry).1)
    have hall : index = place ↔ ∀ s ∈ list.take place, Text.trim s ≠ "" := by
      have hlength := List.length_filter_eq_length_iff (l := list.take place)
        (p := fun s => decide (Text.trim s ≠ ""))
      rw [← hindex, hplace] at hlength
      simpa only [decide_eq_true_eq] using hlength
    exact .inr ⟨list, place, entry, given, hentry, hindex ▸ concerns, hindex, hall⟩
  · obtain rfl := (isSaid_director hbosh).eq_of_mem hf
    obtain ⟨_, h⟩ | ⟨_, h⟩ | ⟨_, h, -⟩ := Finding.eq_of_property hp <;> cases h
  · obtain rfl := d.isSaid_level.eq_of_mem hf
    obtain ⟨_, h⟩ | ⟨_, h⟩ | ⟨_, h, -⟩ := Finding.eq_of_property hp <;> cases h
  · obtain ⟨key, hkey, rfl⟩ := List.mem_map.1 hf
    obtain ⟨⟨_, v⟩, hv, rfl⟩ := List.mem_map.1 hkey
    exact .inl ⟨_, v, hv, rfl, hp⟩

/-- A restriction to a list that begins with a blank entry. -/
def shifted : Defaulted :=
  { Properties.empty.withDefaults with
    enableIpRestriction := true
    cidrAllowlist := some ["", "bad"] }

/-- The index of the second entry is zero, since the first one is not counted. -/
theorem concerned_shifted :
    ∃ c, shifted.check.result = .ok (c, ⟨[.invalidNetwork 0 "bad"]⟩) ∧
      ∃ list place entry, shifted.cidrAllowlist = some list ∧ list[place]? = some entry ∧
        (Finding.invalidNetwork 0 "bad").Concerns 0 entry ∧
        0 = ((list.take place).filter fun s => Text.trim s ≠ "").length ∧
        (0 = place ↔ ∀ s ∈ list.take place, Text.trim s ≠ "") := by
  have checked : ∃ c, shifted.check.result = .ok (c, ⟨[.invalidNetwork 0 "bad"]⟩) := ⟨_, rfl⟩
  obtain ⟨c, h⟩ := checked
  refine ⟨c, h, ?_⟩
  obtain ⟨_, _, hkey, -⟩ | hentry :=
    concerned_of_check h rfl (List.mem_singleton.2 rfl) (f := .invalidNetwork 0 "bad") rfl
  · exact absurd hkey List.not_mem_nil
  · exact hentry

/-- **An index need not be the place of its entry**: what is said about the second entry points at
the first one, which is blank. -/
theorem index_ne_place_shifted : ∃ c r f entry, shifted.check.result = .ok (c, r) ∧
    shifted.enableIpRestriction = true ∧ f ∈ r.findings ∧ f.property = Finding.entryPath 0 ∧
    (shifted.cidrAllowlist.getD [])[0]? = some entry ∧ ¬ f.Concerns 0 entry := by
  refine ⟨_, ⟨[.invalidNetwork 0 "bad"]⟩, .invalidNetwork 0 "bad", "", rfl, rfl,
    List.mem_singleton.2 rfl, rfl, rfl, ?_⟩
  have hne : ∀ f : Finding, f.Concerns 0 "" → f ≠ .invalidNetwork 0 "bad" := by
    rintro _ (_ | _) <;> decide +revert
  exact fun concerns => hne _ concerns rfl

end Defaulted

end CaptureConfig

/-
**The lines of the allowlist.**

The rules look at the allowlist entry by entry, while whoever reads the planned file goes through it
line by line.  The two agree as long as no entry has a line break inside.  An entry that has one is
written as it is, so a single entry can bring in several lines; but with its line breaks it is no
network, and so there is a finding about it.  A list without such findings reads line by line as it
was judged entry by entry.  Whatever is found the report says in words, which quote the entry or name
the network.

Main definitions:

* `Outcome.Announces` — how a report tells of a line that lets everyone in;
* `Outcome.DecodesTo` — what the lines of the planned file are.

Main results:

* `Checked.splitOn_allowlistContents` — the lines of the file are those of the entries;
* `Properties.announced_of_resolve` — **no line lets everyone in without a word about it**: either
  the network is announced, or the entry that the line is taken from is;
* `Properties.decodesTo_of_resolve` — **a file that is not objected to decodes to the networks that
  were judged**.
-/

import CaptureConfig.Proofs.Findings
import CaptureConfig.Proofs.Network

set_option relaxedAutoImplicit false
set_option autoImplicit false

namespace CaptureConfig

namespace Checked

theorem toList_allowlistContents_cons (e : String) (rest : List String) :
    (allowlistContents (e :: rest)).toList =
      (Text.trim e).toList ++ '\n' :: (allowlistContents rest).toList := by
  rw [allowlistContents, List.map_cons, String.join_cons, String.toList_append,
    String.toList_append, List.append_assoc]
  rfl

/-- **The lines of the file are those of the entries**, and nothing is behind the last break. -/
theorem splitOn_allowlistContents (entries : List String) :
    (allowlistContents entries).toList.splitOn '\n' =
      (entries.flatMap fun e => (Text.trim e).toList.splitOn '\n') ++ [[]] := by
  induction entries with
  | nil => rfl
  | cons e rest ih =>
      rw [toList_allowlistContents_cons, List.splitOn, List.splitOnP_append_cons _ _ (by decide),
        List.flatMap_cons, List.append_assoc, ← ih]
      rfl

/-- A file with a line ends with a line break. -/
theorem getLast?_allowlistContents {entries : List String} (h : entries ≠ []) :
    (allowlistContents entries).toList.getLast? = some '\n' := by
  induction entries with
  | nil => exact absurd rfl h
  | cons e rest ih =>
      rw [toList_allowlistContents_cons, List.getLast?_append, List.getLast?_cons, Option.some_or]
      cases rest with
      | nil => rfl
      | cons d rest => rw [ih (List.cons_ne_nil d rest), Option.getD_some]

/-- Entries without line breaks are the lines of the file. -/
theorem splitOn_allowlistContents_of_not_mem {entries : List String}
    (h : ∀ e ∈ entries, '\n' ∉ (Text.trim e).toList) :
    (allowlistContents entries).toList.splitOn '\n' =
      (entries.map Text.trim).map String.toList ++ [[]] := by
  have hlines : entries.map (fun e => (Text.trim e).toList.splitOn '\n') =
      entries.map fun e => [(Text.trim e).toList] :=
    List.map_congr_left fun e he => List.splitOn_eq_singleton (h e he)
  rw [splitOn_allowlistContents, List.flatMap_def, hlines, ← List.flatMap_def,
    ← List.map_eq_flatMap, List.map_map]
  rfl

/-- A restriction is planned as one file. -/
theorem get?_cidrAllowlist {c : Checked} {entries : List String}
    (h : c.cidrAllowlist = some entries) (root : Path) :
    (c.plan root).get? .cidrAllowlist = some (allowlistFile root entries) := by
  rw [plan, h]
  cases c.tls <;> rfl

end Checked

/-! ### What is said of an entry -/

namespace Finding

theorem ofEntry?_of_none {index : Nat} {entry : String}
    (h : Network.ofString? (Text.trim entry) = none) :
    ofEntry? index entry = some (.invalidNetwork index entry) := by
  unfold ofEntry?
  rw [h]

theorem ofEntry?_of_catchAll {index : Nat} {entry : String} {n : Network}
    (h : Network.ofString? (Text.trim entry) = some n) (all : n.prefixLength = 0) :
    ofEntry? index entry = some (.catchAllNetwork index n) := by
  unfold ofEntry?
  simp only [h, Network.IsCatchAll, all, if_true]

/-- What is odd about an entry is said. -/
theorem mem_ofEntries {entries : List String} {entry : String} (h : entry ∈ entries) :
    ∃ index, ∀ f, ofEntry? index entry = some f → f ∈ ofEntries entries := by
  obtain ⟨index, hindex⟩ := List.mem_iff_getElem?.1 h
  refine ⟨index, fun f hf => List.mem_filterMap.2 ⟨(entry, index), ?_, hf⟩⟩
  exact List.mem_zipIdx_iff_getElem?.2 hindex

/-- The network of a finding about one that lets everyone in, with the index of its entry. -/
def catchAll? : Finding → Option (Network × Nat)
  | .catchAllNetwork index n => some (n, index)
  | _ => none

/-- **If no entry is found to be no network, all of them are networks**, and what is said is which
of them let everyone in. -/
theorem exists_networks {index : Nat} {entries : List String} {findings : List Finding}
    (h : AreAbout Concerns index entries findings)
    (valid : ∀ i entry, .invalidNetwork i entry ∉ findings) :
    ∃ networks : List Network,
      ((entries.filter fun e => Text.trim e ≠ "").map Text.trim).map Network.ofString? =
        networks.map some ∧
      findings.filterMap catchAll? =
        (networks.zipIdx index).filter fun x => x.1.prefixLength = 0 := by
  induction h with
  | nil index => exact ⟨[], rfl, rfl⟩
  | blank blank _ ih =>
      obtain ⟨networks, hnetworks, hsaid⟩ := ih valid
      refine ⟨networks, ?_, hsaid⟩
      rwa [List.filter_cons_of_neg (by simp [blank])]
  | odd present odd _ ih =>
      obtain ⟨networks, hnetworks, hsaid⟩ :=
        ih fun i entry h => valid i entry (List.mem_cons_of_mem _ h)
      cases odd with
      | invalid no => exact absurd List.mem_cons_self (valid _ _)
      | @catchAll n network all =>
          refine ⟨n :: networks, ?_, ?_⟩
          · rw [List.filter_cons_of_pos (by simp [present]), List.map_cons, List.map_cons, network,
              hnetworks, List.map_cons]
          · rw [List.zipIdx_cons, List.filter_cons_of_pos (by simp [all]), ← hsaid]
            rfl
  | @fine index entry _ n _ present network some _ ih =>
      obtain ⟨networks, hnetworks, hsaid⟩ := ih valid
      refine ⟨n :: networks, ?_, ?_⟩
      · rw [List.filter_cons_of_pos (by simp [present]), List.map_cons, List.map_cons, network,
          hnetworks, List.map_cons]
      · rw [hsaid, List.zipIdx_cons, List.filter_cons_of_neg (by simp [some])]

/-- What is told of networks that let everyone in. -/
theorem map_inWords_catchAll (findings : List Finding) :
    (findings.filter fun f => f.front = "allowlist contains a catch-all network: ").map inWords =
      (findings.filterMap catchAll?).map fun x => .catchAllNetwork x.2 x.1.toString := by
  induction findings with
  | nil => rfl
  | cons f rest ih =>
      rw [List.filter_cons, List.filterMap_cons]
      cases f <;> simpa [front, catchAll?, inWords] using ih

end Finding

/-- A message that an entry is no network comes from such a finding only. -/
theorem Report.filter_invalid_eq_nil_iff (r : Report) :
    r.warnings.filter (Warning.begins "not a valid CIDR network: '") = [] ↔
      ∀ index entry, .invalidNetwork index entry ∉ r.findings := by
  have hkind := r.filter_begins_warnings (.invalidNetwork 0 "")
  rw [Finding.front] at hkind
  rw [hkind, List.map_eq_nil_iff, List.filter_eq_nil_iff]
  constructor
  · intro h index entry hf
    exact h _ hf (decide_eq_true rfl)
  · intro h f hf
    cases f with
    | invalidNetwork index entry => exact absurd hf (h index entry)
    | _ => simp [Finding.front]

theorem Report.filter_catchAll (r : Report) :
    r.warnings.filter (Warning.begins "allowlist contains a catch-all network: ") =
      (r.findings.filterMap Finding.catchAll?).map fun x => .catchAllNetwork x.2 x.1.toString :=
  (r.filter_begins_warnings (.catchAllNetwork 0 (.v4 [] 0))).trans
    (Finding.map_inWords_catchAll r.findings)

/-! ### Lines that are networks -/

namespace Network

variable {lines : List String} {networks : List Network}

/-- A network has no line break. -/
theorem not_mem_of_map_ofString? (h : lines.map ofString? = networks.map some) :
    ∀ line ∈ lines, '\n' ∉ line.toList := by
  intro line hline broken
  have hmem : ofString? line ∈ networks.map some := h ▸ List.mem_map_of_mem hline
  obtain ⟨n, -, hn⟩ := List.mem_map.1 hmem
  rw [ofString?_of_lineBreak broken] at hn
  cases hn

/-- A network that was read is named by its text. -/
theorem ofString?_toString_of_map (h : lines.map ofString? = networks.map some) :
    ∀ n ∈ networks, ofString? n.toString = some n := by
  intro n hn
  have hmem : some n ∈ lines.map ofString? := h ▸ List.mem_map_of_mem hn
  obtain ⟨line, -, hline⟩ := List.mem_map.1 hmem
  exact ofString?_toString hline

end Network

/-! ### What is said of a line -/

/-- **How a report tells of a line that lets everyone in**: by the network itself, or by the entry
of several lines that the line is taken from.  Either is found, and told in words that name it. -/
inductive Outcome.Announces (o : Outcome) (entries : List String) (line : List Char)
    (n : Network) : Prop
  | network {index : Nat} (said : .catchAllNetwork index n ∈ o.report.findings)
      (told : .catchAllNetwork index n.toString ∈ o.report.warnings)
      (named : Network.ofString? n.toString = some n) : Announces o entries line n
  | entry {index : Nat} {entry : String} (given : entry ∈ entries)
      (broken : '\n' ∈ (Text.trim entry).toList)
      (taken : line ∈ (Text.trim entry).toList.splitOn '\n')
      (said : .invalidNetwork index entry ∈ o.report.findings)
      (told : .invalidNetwork index entry ∈ o.report.warnings) : Announces o entries line n

/-- **What the planned allowlist decodes to**: the texts between its breaks are the entries that
are more than blanks, each of them is a network, and those that let everyone in are announced. -/
structure Outcome.DecodesTo (o : Outcome) (entries lines : List String) (networks : List Network) :
    Prop where
  /-- The lines are what is left of the entries, in order, as often as they are given. -/
  lines_eq : lines = (entries.filter fun e => Text.trim e ≠ "").map Text.trim
  /-- The file ends with a line break, behind which there is nothing. -/
  file : ∃ f, o.materials.get? .cidrAllowlist = some f ∧ f.contents ≠ "" ∧
    f.contents.toList.getLast? = some '\n' ∧
    f.contents.toList.splitOn '\n' = lines.map String.toList ++ [[]]
  /-- Every line is a network as it stands. -/
  networks_eq : lines.map Network.ofString? = networks.map some
  /-- What is announced are those of prefix length zero, in order, with their numbers. -/
  announced : o.report.findings.filterMap Finding.catchAll? =
    networks.zipIdx.filter fun x => x.1.prefixLength = 0
  /-- In words they are told by their names, which are read as the networks themselves. -/
  told : o.report.warnings.filter (Warning.begins "allowlist contains a catch-all network: ") =
    (networks.zipIdx.filter fun x => x.1.prefixLength = 0).map fun x =>
      .catchAllNetwork x.2 x.1.toString
  named : ∀ n ∈ networks, Network.ofString? n.toString = some n
  /-- No words say that an entry is no network. -/
  unobjected : o.report.warnings.filter (Warning.begins "not a valid CIDR network: '") = []

namespace Properties

variable {p : Properties} {i : Instance} {root : Path} {o : Outcome}

/-- A resolution under a restriction plans the entries that are more than blanks, of which there is
one.  What is odd about them is said first, and nothing behind it is about a network. -/
theorem exists_report_of_resolve (h : (p.resolve i root).result = .ok o)
    (restricted : p.enableIpRestriction = some true) :
    ∃ entries others, p.cidrAllowlist = some entries ∧ presentEntries (some entries) ≠ [] ∧
      o.materials.get? .cidrAllowlist =
        some (Checked.allowlistFile root (presentEntries (some entries))) ∧
      o.report.findings = Finding.ofEntries (presentEntries (some entries)) ++ others ∧
      ∀ f ∈ others, f.catchAll? = none := by
  obtain ⟨c, id, hjudge, -, -, hplan⟩ := resolve_eq_ok_iff.1 h
  obtain ⟨list, listFindings, tls, bosh, boshFindings, hlist, -, -, hbosh, -, rfl, hreport⟩ :=
    Defaulted.judge_eq_ok_iff.1 hjudge
  rw [Defaulted.allowlist_eq_ok_iff, if_pos (p.enableIpRestriction_withDefaults.2 restricted)]
    at hlist
  obtain ⟨hpresent, rfl, rfl⟩ := hlist
  obtain ⟨entries, given, -⟩ := Defaulted.hasEntry_iff.2 hpresent
  rw [given] at hplan hreport hpresent
  refine ⟨entries, boshFindings ++ (p.withDefaults.levelFindings ++
    p.withDefaults.unknownKeys.map Finding.unknownProperty), given, hpresent, ?_, ?_,
    fun f hf => ?_⟩
  · rw [hplan]
    exact Checked.get?_cidrAllowlist rfl root
  · rw [hreport, List.append_assoc, List.append_assoc]
  · rw [List.mem_append, List.mem_append] at hf
    obtain hf | hf | hf := hf
    · exact (Defaulted.isSaid_director hbosh).eq_of_mem hf ▸ rfl
    · exact p.withDefaults.isSaid_level.eq_of_mem hf ▸ rfl
    · obtain ⟨key, -, rfl⟩ := List.mem_map.1 hf
      rfl

/-- A resolution under a restriction plans the entries that are more than blanks, and says what is
odd about them. -/
theorem restricted_of_resolve (h : (p.resolve i root).result = .ok o)
    (restricted : p.enableIpRestriction = some true) :
    ∃ entries, p.cidrAllowlist = some entries ∧
      o.materials.get? .cidrAllowlist =
        some (Checked.allowlistFile root (presentEntries (some entries))) ∧
      ∀ f ∈ Finding.ofEntries (presentEntries (some entries)), f ∈ o.report.findings := by
  obtain ⟨entries, others, given, -, hplan, hreport, -⟩ := exists_report_of_resolve h restricted
  exact ⟨entries, given, hplan, fun f hf => hreport ▸ List.mem_append_left _ hf⟩

/-- **No line lets everyone in without a word about it.**  Every line of the planned allowlist that
is a network of prefix length zero is announced as such, or is part of an entry of several lines,
which is announced as no network. -/
theorem announced_of_resolve (h : (p.resolve i root).result = .ok o)
    (restricted : p.enableIpRestriction = some true) :
    ∃ f entries, o.materials.get? .cidrAllowlist = some f ∧ p.cidrAllowlist = some entries ∧
      ∀ line ∈ f.contents.toList.splitOn '\n', ∀ n,
        Network.ofString? (Text.trim (String.ofList line)) = some n → n.prefixLength = 0 →
          o.Announces entries line n := by
  obtain ⟨entries, given, hplan, hsaid⟩ := restricted_of_resolve h restricted
  refine ⟨_, entries, hplan, given, fun line hline n hn all => ?_⟩
  rw [Checked.allowlistFile, Checked.splitOn_allowlistContents, List.mem_append] at hline
  obtain hline | hline := hline
  · obtain ⟨entry, hentry, hline⟩ := List.mem_flatMap.1 hline
    obtain ⟨index, hindex⟩ := Finding.mem_ofEntries hentry
    -- An entry of one line is its line; the line breaks of any other make it no network.
    by_cases broken : '\n' ∈ (Text.trim entry).toList
    · have said := hsaid _
        (hindex _ (Finding.ofEntry?_of_none (Network.ofString?_of_lineBreak broken)))
      exact .entry (List.mem_filter.1 hentry).1 broken hline said (Report.mem_warnings said)
    · rw [List.splitOn_eq_singleton broken, List.mem_singleton] at hline
      rw [hline, String.ofList_toList, Text.trim_trim] at hn
      have said := hsaid _ (hindex _ (Finding.ofEntry?_of_catchAll hn all))
      exact .network said (Report.mem_warnings said) (Network.ofString?_toString hn)
  · -- Behind the last line break there is no network.
    rw [List.mem_singleton.1 hline] at hn
    cases hn

/-- A restriction to a list with a network that lets everyone in, and with one hidden behind the
line break inside an entry. -/
def brokenUp : Properties :=
  { empty with
    enableIpRestriction := some true
    cidrAllowlist := some ["", " ::/0\n", "10.0.0.0/8\n0.0.0.0/0"] }

/-- What is said about it. -/
def brokenUpReport : Report :=
  ⟨[.catchAllNetwork 0 (.v6 [0, 0, 0, 0, 0, 0, 0, 0] 0),
    .invalidNetwork 1 "10.0.0.0/8\n0.0.0.0/0"]⟩

/-- The hypotheses are satisfiable with a line of each kind. -/
theorem announced_brokenUp : ∃ o, (brokenUp.resolve .blankEnded (.ofString "r")).result = .ok o ∧
    o.report = brokenUpReport ∧
    ∃ f entries, o.materials.get? .cidrAllowlist = some f ∧ brokenUp.cidrAllowlist = some entries ∧
      f.contents = "::/0\n10.0.0.0/8\n0.0.0.0/0\n" ∧
      ∀ line ∈ f.contents.toList.splitOn '\n', ∀ n,
        Network.ofString? (Text.trim (String.ofList line)) = some n → n.prefixLength = 0 →
          o.Announces entries line n := by
  have resolved : ∃ o, (brokenUp.resolve .blankEnded (.ofString "r")).result = .ok o ∧
      o.report = brokenUpReport ∧ (o.materials.get? .cidrAllowlist).map Material.File.contents =
        some "::/0\n10.0.0.0/8\n0.0.0.0/0\n" := ⟨_, rfl, rfl, rfl⟩
  obtain ⟨o, h, hreport, hcontents⟩ := resolved
  obtain ⟨f, entries, hf, given, announced⟩ := announced_of_resolve h rfl
  rw [hf] at hcontents
  exact ⟨o, h, hreport, f, entries, hf, given, Option.some.inj hcontents, announced⟩

/-- **A line that lets everyone in need not be announced as a network**: the last line of the file
is one, and nothing in the report names it, neither what is found nor what is told. -/
theorem not_announced_brokenUp : ∃ o f line n,
    (brokenUp.resolve .blankEnded (.ofString "r")).result = .ok o ∧
      brokenUp.enableIpRestriction = some true ∧ o.materials.get? .cidrAllowlist = some f ∧
      line ∈ f.contents.toList.splitOn '\n' ∧
      Network.ofString? (Text.trim (String.ofList line)) = some n ∧ n.prefixLength = 0 ∧
      (∀ index, .catchAllNetwork index n ∉ o.report.findings) ∧
      ∀ w ∈ o.report.warnings,
        w.message ≠ "allowlist contains a catch-all network: " ++ n.toString := by
  refine ⟨_, _, "0.0.0.0/0".toList, .v4 [0, 0, 0, 0] 0, rfl, rfl, rfl, ?_, rfl, rfl,
    fun index => ?_, ?_⟩
  · decide +kernel
  · show _ ∉ brokenUpReport.findings
    simp [brokenUpReport]
  · show ∀ w ∈ brokenUpReport.warnings, _
    decide +kernel

/-! ### A list without objections -/

/-- **A planned allowlist that is not objected to decodes to the networks that were judged.** -/
theorem decodesTo_of_resolve (h : (p.resolve i root).result = .ok o)
    (restricted : p.enableIpRestriction = some true)
    (valid : ∀ index entry, .invalidNetwork index entry ∉ o.report.findings) :
    ∃ entries lines networks, p.cidrAllowlist = some entries ∧
      o.DecodesTo entries lines networks := by
  obtain ⟨entries, others, given, hpresent, hplan, hreport, hothers⟩ :=
    exists_report_of_resolve h restricted
  have hentries := presentEntries_eq_filter (some entries)
  rw [Option.getD_some] at hentries
  have about := Finding.areAbout_ofEntries (some entries)
  rw [Option.getD_some] at about
  obtain ⟨networks, hnetworks, hsaid⟩ := Finding.exists_networks about fun index entry hf =>
    valid index entry (hreport ▸ List.mem_append_left _ hf)
  -- A network has no line break, so every entry is one line.
  have unbroken : ∀ e ∈ presentEntries (some entries), '\n' ∉ (Text.trim e).toList := by
    intro e he
    exact Network.not_mem_of_map_ofString? hnetworks _ (List.mem_map_of_mem (hentries ▸ he))
  have announced : o.report.findings.filterMap Finding.catchAll? =
      networks.zipIdx.filter fun x => x.1.prefixLength = 0 := by
    rw [hreport, List.filterMap_append, List.filterMap_eq_nil_iff.2 hothers, List.append_nil, hsaid]
  refine ⟨entries, _, networks, given,
    { lines_eq := rfl
      file := ?_
      networks_eq := hnetworks
      announced := announced
      told := announced ▸ o.report.filter_catchAll
      named := Network.ofString?_toString_of_map hnetworks
      unobjected := o.report.filter_invalid_eq_nil_iff.2 valid }⟩
  have hlast := Checked.getLast?_allowlistContents hpresent
  refine ⟨_, hplan, fun hempty => ?_, hlast, ?_⟩
  · rw [show Checked.allowlistContents _ = "" from hempty] at hlast
    cases hlast
  · rw [← hentries]
    exact Checked.splitOn_allowlistContents_of_not_mem unbroken

/-- A restriction to networks with blanks around them, one of them twice and two of them for
everyone. -/
def wide : Properties :=
  { empty with
    enableIpRestriction := some true
    cidrAllowlist := some ["\t10.0.0.0/8", "", "::/0\n", "10.0.0.0/8", "\u3000", " 0.0.0.0/0 "] }

/-- What is said about it. -/
def wideReport : Report :=
  ⟨[.catchAllNetwork 1 (.v6 [0, 0, 0, 0, 0, 0, 0, 0] 0), .catchAllNetwork 3 (.v4 [0, 0, 0, 0] 0)]⟩

/-- The hypotheses are satisfiable with networks that let everyone in. -/
theorem decodesTo_wide : ∃ o, (wide.resolve .blankEnded (.ofString "r")).result = .ok o ∧
    wide.enableIpRestriction = some true ∧ o.report = wideReport ∧
    (∀ index entry, .invalidNetwork index entry ∉ o.report.findings) ∧
    ∃ entries lines networks, wide.cidrAllowlist = some entries ∧
      o.DecodesTo entries lines networks := by
  have resolved : ∃ o, (wide.resolve .blankEnded (.ofString "r")).result = .ok o ∧
      o.report = wideReport := ⟨_, rfl, rfl⟩
  obtain ⟨o, h, hreport⟩ := resolved
  have valid : ∀ index entry, .invalidNetwork index entry ∉ o.report.findings := by
    rw [hreport]
    intro index entry
    simp [wideReport]
  exact ⟨o, h, rfl, hreport, valid, decodesTo_of_resolve h rfl valid⟩

end Properties

end CaptureConfig

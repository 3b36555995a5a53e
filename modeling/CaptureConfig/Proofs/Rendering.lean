/-
**The document that is printed is the one that is written.**

The document of a property file is printed to the standard output, or written to a file.  Printing
takes the blanks off the end of the document and puts a break there, and writing does not; but the
document ends so that nothing of it is lost by that.  Hence the same octets come out, up to the
break that printing puts behind strict notation.

Main results:

* `Properties.endsVisibly_of_resolve` — what the document ends with, if it ends with a text;
* `Outcome.stores_of_write` — writing stores the document, or changes no file;
* `Command.printed_eq_written` — **the document that is printed is the one that is written**.
-/

import CaptureConfig.Proofs.Agreement
import CaptureConfig.Proofs.Document.Ending
import CaptureConfig.Proofs.Stoppage

set_option relaxedAutoImplicit false
set_option autoImplicit false

namespace CaptureConfig

namespace Properties

variable {p : Properties} {i : Instance} {root : Path} {o : Outcome}

/-- The path of the list ends with its name, below whatever root. -/
theorem endsVisibly_of_resolve (hresolve : (p.resolve i root).result = .ok o)
    (hroot : root.IsText) : ∀ q ∈ o.config.cidrAllowlist, Text.EndsVisibly q.display.toList := by
  obtain ⟨c, id, -, -, hconfig, -⟩ := resolve_eq_ok_iff.1 hresolve
  intro q hq
  rw [hconfig] at hq
  obtain rfl : q = root.join "allowlist_cidrs.txt" :=
    c.eq_place_of_path? (k := .cidrAllowlist) id root hq
  obtain ⟨front, hjoin⟩ := hroot.exists_join "allowlist_cidrs.txt"
  rw [hjoin, Path.display_ofString, String.toList_append]
  exact Text.EndsVisibly.append ⟨"allowlist_cidrs.tx".toList, 't', rfl, by decide⟩ _

end Properties

namespace Outcome

variable {o : Outcome} {form : Config.Form} {document : Path} {t t' : FileTree}

/-- **Writing stores the document, or changes no file**, whether it fails behind that or not. -/
theorem stores_of_write {p : Properties} {i : Instance} {root : Path}
    (hresolve : (p.resolve i root).result = .ok o) {s : String} (htext : o.config.text form = .ok s)
    {w : Traced (List Path)} (hwrite : (o.write form document : StateM FileTree _) t = (w, t')) :
    ((∃ e, w.result = .error e) ∧ ∀ l, t'.root.fileAt? l = t.root.fileAt? l) ∨
      ∃ l f, t'.file (document.join form.fileName) = .ok (l, f) ∧ f.contents = Utf8.encode s := by
  obtain ⟨events, result⟩ := w
  rw [write, deliveries_eq_ok_iff.2 ⟨s, htext, rfl⟩] at hwrite
  obtain ⟨hnames, -⟩ := Properties.nodup_targets_of_resolve hresolve rfl
  cases result with
  | ok written =>
      obtain ⟨l, hfile⟩ :=
        (delivered_of_deliver hnames hwrite).2.exists_file List.mem_cons_self
      exact .inr ⟨l, _, hfile, rfl⟩
  | error e =>
      obtain ⟨before, d, after, -, -, hfiles, hdelivered, -, -⟩ :=
        exists_delivered_of_deliver hnames hwrite
      cases before with
      | nil =>
          exact .inl ⟨⟨e, rfl⟩, fun l => hdelivered.others l fun d hd => absurd hd List.not_mem_nil⟩
      | cons first before =>
          rw [List.cons_append] at hfiles
          obtain ⟨rfl, -⟩ := List.cons.inj hfiles
          obtain ⟨l, hfile⟩ := hdelivered.exists_file List.mem_cons_self
          exact .inr ⟨l, _, hfile, rfl⟩

end Outcome

namespace Command

section

variable {path root : Path} {instanceId : Option String} {form : Config.Form} {t t' : FileTree}
  {said : Transcript}

/-- A document that has been printed is that of the configuration that was loaded. -/
theorem exists_text_of_renderFile
    (h : (renderFile path instanceId root form false : StateM FileTree _) t = (said, t'))
    (hexit : said.exit = 0) :
    t' = t ∧ ∃ o s, (Outcome.ofReading path (t.read path) instanceId root).result = .ok o ∧
      o.config.text form = .ok s ∧ said.output = Text.trimEnd s ++ "\n" := by
  rw [renderFile_run, printTranscript] at h
  generalize Outcome.ofReading path (t.read path) instanceId root = loaded at h ⊢
  obtain ⟨told, result⟩ := loaded
  cases result with
  | error failure =>
      cases h
      cases hexit
  | ok o =>
      cases htext : o.config.text form with
      | error failure =>
          simp only [htext] at h
          cases h
          cases hexit
      | ok s =>
          simp only [htext] at h
          cases h
          exact ⟨rfl, o, s, rfl, htext, rfl⟩

/-- What is said of a writing that fails is said with an exit status. -/
theorem exit_written_of_error (events : List Event) (root : Path) {w : Traced (List Path)}
    {e : Failure} (h : w.result = .error e) : (written events root w).exit ≠ 0 := by
  rw [written, h]
  exact Nat.one_ne_zero

/-- Rendering to files is writing the configuration that is loaded. -/
theorem renderFile_write_run {o : Outcome}
    (hload : (Outcome.ofReading path (t.read path) instanceId root).result = .ok o) :
    (renderFile path instanceId root form true : StateM FileTree _) t =
      (written ((Outcome.ofReading path (t.read path) instanceId root).events ++
          o.report.warnings.map (Event.warned renderTarget)) root
        ((o.write form root : StateM FileTree _) t).1,
        ((o.write form root : StateM FileTree _) t).2) := by
  rw [renderFile, bind_run, Outcome.load_run]
  simp only [hload]
  rfl

/-- **The document that is printed is the one that is written.**  For a root that is a text, what
`render` prints are the octets that `render --write` stores for the same property file, if it comes
to storing any; strict notation has a break behind it when it is printed. -/
theorem printed_eq_written (hroot : root.IsText)
    (hprint : (run (.render path instanceId root form false) : StateM FileTree _) t = (said, t'))
    (hexit : said.exit = 0) :
    t' = t ∧ ∃ octets,
      Utf8.encode said.output = octets ++ (if form = .json then [0x0A] else []) ∧
      ∀ u told u', u.read path = t.read path →
        (run (.render path instanceId root form true) : StateM FileTree _) u = (told, u') →
        (told.exit ≠ 0 ∧ ∀ l, u'.root.fileAt? l = u.root.fileAt? l) ∨
          ∃ l f, u'.file (root.join form.fileName) = .ok (l, f) ∧ f.contents = octets := by
  obtain ⟨rfl, o, s, hload, htext, houtput⟩ := exists_text_of_renderFile hprint hexit
  obtain ⟨f, -, hresolve⟩ := Outcome.exists_resolve_of_ofReading hload
  obtain ⟨hblock, hstrict⟩ :=
    Config.trimEnd_text (Properties.endsVisibly_of_resolve hresolve hroot) htext
  refine ⟨rfl, Utf8.encode s, ?_, fun u told u' hread hwrite => ?_⟩
  · rw [houtput]
    cases form with
    | yaml => rw [hblock rfl, if_neg (by decide), List.append_nil]
    | json =>
        rw [hstrict rfl, Utf8.encode_append]
        rfl
  · rw [← hread] at hload
    obtain ⟨rfl, rfl⟩ := Prod.mk.inj ((renderFile_write_run hload).symm.trans hwrite)
    obtain ⟨⟨e, herror⟩, hsame⟩ | hstored := Outcome.stores_of_write hresolve htext rfl
    · exact .inl ⟨exit_written_of_error _ root herror, hsame⟩
    · exact .inr hstored

end

/-- A property file with a log level that ends with breaks and blanks, and with a list. -/
def breaksText : String :=
  "\x7b\"pcap-api\": \x7b\"log_level\": \"info \\n\\n\", \"enable_ip_restriction\": true, " ++
    "\"cidr_allowlist\": [\"10.0.0.0/8\"]\x7d, " ++
    "\"spec\": \x7b\"id\": \"f9281cda-1234-bbcd-ef12-1337cafe0048\"\x7d\x7d"

/-- A tree with that file and nothing else. -/
def breaksTree : FileTree where
  root := .directory [(Bare.path.octets, .file ⟨0o644, Utf8.encode breaksText⟩)]
  current := []

theorem printed_eq_written_breaks : (Path.ofString "a\n").IsText ∧ ∃ said told t' l f,
    (run (.render Bare.path none (.ofString "a\n") .yaml false) : StateM FileTree _) breaksTree =
      (said, breaksTree) ∧
    (run (.render Bare.path none (.ofString "a\n") .yaml true) : StateM FileTree _) breaksTree =
      (told, t') ∧
    said.exit = 0 ∧ told.exit = 0 ∧
    t'.file ((Path.ofString "a\n").join "pcap-api.yml") = .ok (l, f) ∧
    Utf8.encode said.output = f.contents := by
  have hprinted : ((run (.render Bare.path none (.ofString "a\n") .yaml false) :
      StateM FileTree Transcript) breaksTree).1.exit = 0 := by decide +kernel
  have hwritten : ((run (.render Bare.path none (.ofString "a\n") .yaml true) :
      StateM FileTree Transcript) breaksTree).1.exit = 0 := by decide +kernel
  generalize hprint : (run (.render Bare.path none (.ofString "a\n") .yaml false) :
    StateM FileTree Transcript) breaksTree = printed at hprinted
  generalize hwrite : (run (.render Bare.path none (.ofString "a\n") .yaml true) :
    StateM FileTree Transcript) breaksTree = written at hwritten
  obtain ⟨said, t⟩ := printed
  obtain ⟨told, t'⟩ := written
  obtain ⟨rfl, octets, houtput, hstores⟩ := printed_eq_written ⟨"a\n", rfl⟩ hprint hprinted
  obtain ⟨hexit, -⟩ | ⟨l, f, hfile, rfl⟩ := hstores _ told t' rfl hwrite
  · exact absurd hwritten hexit
  · exact ⟨⟨"a\n", rfl⟩, said, told, t', l, f, rfl, rfl, hprinted, hwritten, hfile,
      houtput.trans (List.append_nil _)⟩

end Command

end CaptureConfig

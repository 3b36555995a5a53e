/-
**Which identifier is taken.**

An identifier can be given in three places: it can be asked for besides the property file, it can be
that of the instance in the file, and it can be among the properties.  The first one that is given
is taken, and only that one is looked at: a text of blanks is given too, and is refused although a
good one may stand behind it.

Main definitions:

* `Identifier.IsTaken` — the first text that is given;
* `Properties.KeepsOtherRules` — properties with which nothing but the identifier can be wrong.

Main results:

* `Properties.exists_resolve_iff_of_keepsOtherRules` — then the identifier decides;
* `Outcome.identified_of_load` — **the identifier that a property file is loaded with**.
-/

import CaptureConfig.Proofs.Json.Document
import CaptureConfig.Proofs.Loading
import CaptureConfig.Proofs.Utf8
import CaptureConfig.Proofs.Verdict

set_option relaxedAutoImplicit false
set_option autoImplicit false

namespace CaptureConfig

namespace Identifier

/-- **The text that is taken**: the first one that is given, be it blank. -/
def IsTaken (sources : List (Option String)) (s : String) : Prop :=
  ∃ earlier later, sources = earlier ++ some s :: later ∧ ∀ source ∈ earlier, source = none

/-- Of three places the first one that gives a text is asked. -/
theorem isTaken_iff {asked instanceId property : Option String} {s : String} :
    IsTaken [asked, instanceId, property] s ↔ ((asked <|> instanceId) <|> property) = some s := by
  have hfind : ((asked <|> instanceId) <|> property) =
      [asked, instanceId, property].findSome? id := by
    cases asked <;> cases instanceId <;> cases property <;> rfl
  rw [hfind, List.findSome?_eq_some_iff]
  constructor
  · rintro ⟨earlier, later, h, hnone⟩
    exact ⟨earlier, some s, later, h, rfl, hnone⟩
  · rintro ⟨earlier, source, later, h, rfl, hnone⟩
    exact ⟨earlier, later, h, hnone⟩

end Identifier

open Identifier (IsTaken IsHyphenated isTaken_iff isHyphenated_iff)

namespace Properties

/-- **Nothing but the identifier can be wrong** with these properties. -/
def KeepsOtherRules (p : Properties) : Prop := ∀ i r e, p.Breaks i r e → r = .identifier

variable {p : Properties} {i : Instance} {root : Path}

/-- If nothing else can be wrong, a resolution fails as the reading of the identifier does. -/
theorem failureOf_resolve_of_keepsOtherRules (h : p.KeepsOtherRules) (i : Instance) (root : Path) :
    failureOf (p.resolve i root).result =
      (failureOf (Identifier.ofText (i.id <|> p.id))).map .invalidIdentifier := by
  have horder : Rule.order =
      [.restriction, .buffer, .listener, .director, .captures] ++ [.identifier] := rfl
  have hkept : ∀ r ∈ [Rule.restriction, .buffer, .listener, .director, .captures],
      p.failure? i r = none := by
    intro r hr
    refine (p.failure?_eq_none_iff i).2 fun e hbroken => ?_
    rw [h i r e hbroken] at hr
    exact absurd hr (by decide)
  rw [failureOf_resolve_eq_findSome?, horder, List.findSome?_append,
    List.findSome?_eq_none_iff.2 hkept, Option.none_or, List.findSome?_singleton]
  rfl

/-- If nothing else can be wrong, a resolution succeeds exactly with a hyphenated text. -/
theorem exists_resolve_iff_of_keepsOtherRules (h : p.KeepsOtherRules) :
    (∃ o, (p.resolve i root).result = .ok o) ↔
      ∃ s, (i.id <|> p.id) = some s ∧ IsHyphenated (Text.trim s).toList := by
  rw [← failureOf_eq_none_iff, failureOf_resolve_of_keepsOtherRules h, Option.map_eq_none_iff,
    failureOf_eq_none_iff]
  simp only [Identifier.ofText_eq_ok_iff]
  constructor
  · rintro ⟨_, s, hs, -, hhyphenated⟩
    exact ⟨s, hs, hhyphenated⟩
  · rintro ⟨s, hs, hhyphenated⟩
    exact ⟨_, s, hs, rfl, hhyphenated⟩

/-- If nothing else can be wrong, a resolution that fails complains about the identifier. -/
theorem exists_fault_of_keepsOtherRules (h : p.KeepsOtherRules) {e : Failure}
    (herror : (p.resolve i root).result = .error e) : ∃ fault, e = .invalidIdentifier fault := by
  have hfailure := failureOf_resolve_of_keepsOtherRules h i root
  rw [herror, failureOf_error] at hfailure
  obtain ⟨fault, -, rfl⟩ := Option.map_eq_some_iff.1 hfailure.symm
  exact ⟨fault, rfl⟩

/-- A document that is resolved has the identifier of the text that was read. -/
theorem id_of_resolve {o : Outcome} (h : (p.resolve i root).result = .ok o) :
    ∃ s, (i.id <|> p.id) = some s ∧ IsHyphenated (Text.trim s).toList ∧
      o.config.id = Checked.idPrefix ++ Text.trim s := by
  obtain ⟨c, id, hjudge, hid, hconfig, -⟩ := resolve_eq_ok_iff.1 h
  obtain ⟨t, ht, rfl⟩ := Checked.identifier_eq_ok_iff.1 hid
  rw [Defaulted.id_of_judge hjudge] at ht
  obtain ⟨s, hs, rfl, hhyphenated⟩ := Identifier.ofText_eq_ok_iff.1 ht
  exact ⟨s, hs, hhyphenated, by rw [hconfig]; rfl⟩

end Properties

namespace Outcome

/-- What comes of a property file that is read is its resolution. -/
theorem result_ofReading {path : Path} {read : Except Refusal (List UInt8)} {f : PropertyFile}
    (hfile : (PropertyFile.ofReading path read).result = .ok f) (asked : Option String)
    (root : Path) :
    (ofReading path read asked root).result =
      (f.properties.resolve ⟨asked <|> f.instanceData.id⟩ root).result := by
  rw [ofReading, Traced.result_bind, hfile]
  rfl

open Json in
/-- A property file with nothing but an identifier is read as that. -/
theorem ofText_bare : PropertyFile.ofText .json Bare.text =
    .ok ⟨Properties.empty, ⟨some "f9281cda-1234-bbcd-ef12-1337cafe0048"⟩⟩ := by
  let id := "f9281cda-1234-bbcd-ef12-1337cafe0048"
  have hkey (k : String) (rest : List Char) :
      SpellsKey ('"' :: (k.toList.flatMap escape ++ '"' :: ':' :: rest)) k rest :=
    ⟨.done _, spellsText_flatMap_escape k.toList _, .done _⟩
  have hspace (cs : List Char) : Blanks (' ' :: cs) cs := .more rfl (.done cs)
  have hid (rest : List Char) := Spells.text (spellsText_flatMap_escape id.toList rest)
  have hspells := Spells.object (.last (hkey "spec" _) (hspace _)
    (.object (.last (hkey "id" _) (hspace _) (hid _) (.done _))) (.done ['\x7d']))
  have hspelled : Json.IsSpelledBy (.object [("spec", .object [("id", .text id)])]) Bare.text :=
    ⟨Eq.subst (motive := (Blanks · _)) (by decide +kernel) (.done _), hspells, .done []⟩
  show Reader.document _ _ = _
  rw [document_of_isSpelledBy hspelled ⟨⟨trivial, trivial⟩, trivial⟩ (by decide)]
  rfl

/-- **The identifier that a property file is loaded with**, if nothing else can be wrong with it:
loading succeeds exactly if the first text that is given is hyphenated without the blanks around it,
and then the identifier is that text behind its prefix; else the identifier is complained about. -/
theorem identified_of_load {path : Path} {t : FileTree} {f : PropertyFile}
    (hfile : (PropertyFile.ofReading path (t.read path)).result = .ok f)
    (valid : f.properties.KeepsOtherRules) (asked : Option String) (root : Path) :
    ∃ loaded : Traced Outcome, (Outcome.load path asked root : StateM FileTree _) t = (loaded, t) ∧
      ((∃ o, loaded.result = .ok o) ↔
        ∃ s, IsTaken [asked, f.instanceData.id, f.properties.id] s ∧
          IsHyphenated (Text.trim s).toList) ∧
      (∀ o, loaded.result = .ok o →
        ∃ s, IsTaken [asked, f.instanceData.id, f.properties.id] s ∧
          IsHyphenated (Text.trim s).toList ∧ o.config.id = "pcap-api/" ++ Text.trim s) ∧
      ∀ e, loaded.result = .error e → ∃ fault, e = .invalidIdentifier fault := by
  refine ⟨_, load_run path asked root t, ?_⟩
  rw [result_ofReading hfile]
  simp only [isTaken_iff]
  exact ⟨Properties.exists_resolve_iff_of_keepsOtherRules valid,
    fun o ho => Properties.id_of_resolve ho,
    fun e he => Properties.exists_fault_of_keepsOtherRules valid he⟩

/-- Capitals and blanks around are taken from the text that is asked for, while a blank one hides
the good one in the file. -/
theorem identified_bare : ∃ capital blank : Traced Outcome,
    (Outcome.load Bare.path (some " F9281CDA-1234-BBCD-EF12-1337CAFE0048\u2003\n")
      (.ofString "out") : StateM FileTree _) Bare.tree = (capital, Bare.tree) ∧
    (∃ o, capital.result = .ok o ∧
      o.config.id = "pcap-api/F9281CDA-1234-BBCD-EF12-1337CAFE0048") ∧
    (Outcome.load Bare.path (some "\u2003") (.ofString "out") : StateM FileTree _) Bare.tree =
      (blank, Bare.tree) ∧
    ∃ fault, blank.result = .error (.invalidIdentifier fault) := by
  have hfile : (PropertyFile.ofReading Bare.path (Bare.tree.read Bare.path)).result =
      .ok ⟨Properties.empty, ⟨some "f9281cda-1234-bbcd-ef12-1337cafe0048"⟩⟩ := by
    have hformat : Format.ofPath? Bare.path = some .json := by decide +kernel
    have hread : Bare.tree.read Bare.path = .ok (Utf8.encode Bare.text) := rfl
    simp only [hread, PropertyFile.ofReading, hformat, PropertyFile.ofOctets,
      Utf8.decode?_encode, ofText_bare]
  have valid : Properties.empty.KeepsOtherRules := by
    intro i r e h
    cases h with
    | identifier => rfl
    | restriction h => cases h
    | buffer h => cases h
    | listener h => cases h
    | director h => cases h
    | captures h => cases h
  have hidentified asked := identified_of_load hfile valid asked (.ofString "out")
  obtain ⟨capital, hrun, haccepted, hid, -⟩ :=
    hidentified (some " F9281CDA-1234-BBCD-EF12-1337CAFE0048\u2003\n")
  obtain ⟨blank, hrun', hrefused, -, hfault⟩ := hidentified (some "\u2003")
  refine ⟨capital, blank, hrun, ?_, hrun', ?_⟩
  · obtain ⟨o, ho⟩ := haccepted.2 ⟨_, isTaken_iff.2 rfl,
      (isHyphenated_iff _).1 (by decide +kernel)⟩
    obtain ⟨s, hs, -, hs'⟩ := hid o ho
    cases isTaken_iff.1 hs
    exact ⟨o, ho, hs'.trans (by decide +kernel)⟩
  · cases hresult : blank.result with
    | error e =>
        obtain ⟨fault, rfl⟩ := hfault e hresult
        exact ⟨fault, rfl⟩
    | ok o =>
        obtain ⟨s, hs, hhyphenated⟩ := hrefused.1 ⟨o, hresult⟩
        cases isTaken_iff.1 hs
        exact absurd ((isHyphenated_iff _).2 hhyphenated) (by decide +kernel)

end Outcome

end CaptureConfig

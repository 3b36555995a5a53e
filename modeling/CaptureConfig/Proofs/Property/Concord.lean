/-
**A property file in strict notation means the same in block notation.**

What a printed property file is in strict notation, it is in block notation too, as long as its
texts consist of printable characters of ASCII and its keys are short: a key in block notation has
to end within 1024 characters of where it begins.  The length that counts is that of the key as it is
written, so that the limit is reached by 512 quotes, each behind a backslash.

Main results:

* `PropertyFile.isUsed_of_isWritten` — the reader uses all that is written;
* `PropertyFile.ofText_concord` — **a printed property file is the same in both notations**, and
  leads to the same outcome;
* `PropertyFile.ofText_quotes` — a key of less than 1000 octets can be too long where it is written.
-/

import CaptureConfig.Proofs.Property.Reading
import CaptureConfig.Proofs.Yaml.Strict.Document

set_option relaxedAutoImplicit false
set_option autoImplicit false

namespace CaptureConfig

open Json

/-! ### What is used -/

section

variable {v : Json}

namespace Properties

theorem Buffer.isUsed_of_isWritten {b : Buffer} (h : b.IsWritten v) :
    v.IsUsed (Reading.buffer : Reader Yaml.Atom Buffer).uses :=
  h.isUsed rfl (((areUsed_nil.cons_whole rfl).cons_whole rfl).cons_whole rfl)

theorem Tls.isUsed_of_isWritten {t : Tls} (h : t.IsWritten v) :
    v.IsUsed (Reading.tls : Reader Yaml.Atom Tls).uses := by
  obtain ⟨_, _, _, _, -, -, -, -, h⟩ := h
  exact h.isUsed rfl
    ((((areUsed_nil.cons_whole rfl).cons_whole rfl).cons_whole rfl).cons_whole rfl)

theorem Listen.isUsed_of_isWritten {l : Listen} (h : l.IsWritten v) :
    v.IsUsed (Reading.listen : Reader Yaml.Atom Listen).uses := by
  obtain ⟨_, _, -, htls, h⟩ := h
  exact h.isUsed rfl ((areUsed_nil.cons (htls.isUsed rfl Tls.isUsed_of_isWritten)).cons_whole rfl)

theorem Mtls.isUsed_of_isWritten {m : Mtls} (h : m.IsWritten v) :
    v.IsUsed (Reading.mtls : Reader Yaml.Atom Mtls).uses := by
  obtain ⟨_, _, -, -, h⟩ := h
  exact h.isUsed rfl ((areUsed_nil.cons_whole rfl).cons_whole rfl)

theorem Bosh.isUsed_of_isWritten {b : Bosh} (h : b.IsWritten v) :
    v.IsUsed (Reading.bosh : Reader Yaml.Atom Bosh).uses := by
  obtain ⟨_, hmtls, h⟩ := h
  exact h.isUsed rfl ((((areUsed_nil.cons (hmtls.isUsed rfl Mtls.isUsed_of_isWritten)).cons_whole
    rfl).cons_whole rfl).cons_whole rfl)

/-- Everything is used of what nobody knows. -/
theorem ofKey_of_not_mem_names {k : String} (h : k ∉ names) :
    (Reading.properties : Reader Yaml.Atom Properties).uses.ofKey (some k) = .everything := by
  have hlookup (uses : List (String × Uses)) (huses : uses.map Prod.fst = names) :
      (uses.lookup k).getD .everything = .everything := by
    rw [lookup_eq_none_of_not_mem (huses ▸ h)]
    rfl
  exact hlookup _ rfl

theorem isUsed_of_isWritten {p : Properties} (hp : p.IsPlain) (h : p.IsWritten v) :
    v.IsUsed (Reading.properties : Reader Yaml.Atom Properties).uses := by
  obtain ⟨-, -, -, hbuffer, hlisten, hbosh, -, -, hothers, h⟩ := h
  refine h.isUsed rfl (.append ?_ ?_)
  · exact (((((((areUsed_nil.cons_whole rfl).cons_whole rfl).cons
      (hbosh.isUsed rfl Bosh.isUsed_of_isWritten)).cons
      (hlisten.isUsed rfl Listen.isUsed_of_isWritten)).cons
      (hbuffer.isUsed rfl Buffer.isUsed_of_isWritten)).cons_whole rfl).cons_whole rfl).cons_whole
      rfl
  · refine List.forall_mem_map.2 fun e he w _ => ?_
    have hunknown : e.1 ∉ names :=
      hp.unknown (e.1, e.2.toValue) (hothers ▸ List.mem_map.2 ⟨e, he, rfl⟩)
    show w.IsUsed (Uses.ofKey _ (some e.1))
    rw [ofKey_of_not_mem_names hunknown]
    exact isUsed_everything w

end Properties

/-- **The reader uses all that is written** of a property file. -/
theorem PropertyFile.isUsed_of_isWritten {f : PropertyFile} (hf : f.properties.IsPlain)
    (h : f.IsWritten v) :
    v.IsUsed (Properties.Reading.file : Reader Yaml.Atom PropertyFile).uses := by
  obtain ⟨properties, instanceData, hproperties, ⟨id, -, hinstance⟩, h⟩ := h
  have hinstance : instanceData.IsUsed
      (Properties.Reading.instanceData : Reader Yaml.Atom Instance).uses :=
    hinstance.isUsed rfl (areUsed_nil.cons_whole rfl)
  refine h.isUsed rfl ((areUsed_nil.cons fun w hw => ?_).cons fun w hw => ?_)
  · exact Option.some.inj hw ▸ hinstance
  · exact Option.some.inj hw ▸ Properties.isUsed_of_isWritten hf hproperties

end

/-! ### Both notations -/

namespace PropertyFile

/-- A property file that is printed in strict notation is read in block notation. -/
theorem ofText_yaml_print {f : PropertyFile} (hf : f.properties.IsPlain) {v : Json}
    (h : f.IsWritten v) (hv : v.Holds Yaml.IsAscii Yaml.IsShort) :
    ofText .yaml v.print = .ok f := by
  obtain ⟨entries, rfl⟩ : ∃ entries, v = .object entries := by
    obtain ⟨_, _, -, -, entries, hv, -⟩ := h
    exact ⟨entries, hv⟩
  have hdepth : (Json.object entries).depth ≤ Yaml.Node.deepest :=
    Nat.le_trans (isSound_of_isWritten hf h).depth_le (by decide)
  show Reader.document _ _ = _
  rw [Yaml.document_printed hv hdepth (isUsed_of_isWritten hf h), Reader.document,
    read_treeIn Yaml.lawful_strictSpelling hf h]
  rfl

/-- **A printed property file is the same in both notations**, if its texts consist of printable
characters of ASCII and its keys are short, and it leads to the same outcome. -/
theorem ofText_concord {f : PropertyFile} (hf : f.properties.IsPlain) {v : Json}
    (h : f.IsWritten v) (hv : v.Holds Yaml.IsAscii Yaml.IsShort) :
    ofText .yaml v.print = .ok f ∧ ofText .json v.print = .ok f ∧
      ∀ {p p' : Path} {t t' : FileTree}, Format.ofPath? p = some .yaml →
        Format.ofPath? p' = some .json → t.read p = .ok (Utf8.encode v.print) →
        t'.read p' = .ok (Utf8.encode v.print) → ∀ instanceId root,
        ((Outcome.load p instanceId root : StateM FileTree _) t).1.result =
          ((Outcome.load p' instanceId root : StateM FileTree _) t').1.result := by
  have hyaml := ofText_yaml_print hf h hv
  have hjson := ofText_json hf ⟨v, h, isSpelledBy_print v⟩
  refine ⟨hyaml, hjson, fun hp hp' hread hread' instanceId root => ?_⟩
  rw [result_load hyaml hp hread, result_load hjson hp' hread']

/-! ### Non-vacuity -/

namespace Lookalikes

/-- What stands under a key that nobody knows: texts that look like something else, and numbers at
the limits of 64 bits. -/
def unknown : Json :=
  .object [
    ("null", .array [.null, .text "null", .text "~", .text "", .text " - a: b # c"]),
    ("1e3", .number (-9223372036854775808)),
    ("0x10", .number 18446744073709551615),
    ("\"quoted\" \\", .object []),
    ("[", .array [])]

/-- A property file with such a key. -/
def file : PropertyFile where
  properties :=
    { Properties.empty with
      logLevel := some "*yes: [no]"
      enableIpRestriction := some false
      extra := [("true", unknown.toValue)] }
  instanceData := ⟨some "9281"⟩

/-- It is written as nested objects, the switch as a text. -/
def written : Json :=
  .object [
    ("spec", .object [("id", .text "9281")]),
    ("pcap-api", .object [
      ("log_level", .text "*yes: [no]"),
      ("enable_ip_restriction", .text "False"),
      ("true", unknown)])]

theorem isPlain_properties : file.properties.IsPlain where
  ascending := by
    rw [IsAscending]
    decide
  unknown := by decide
  plain := by
    refine List.forall_mem_cons.2 ⟨⟨unknown, rfl, ?_, ?_, by decide⟩,
      fun _ h => absurd h List.not_mem_nil⟩
    · exact ⟨⟨trivial, trivial, trivial, trivial, trivial, trivial⟩, ⟨by decide, by decide⟩,
        ⟨by decide, by decide⟩, trivial, trivial, trivial⟩
    · exact ⟨by decide, ⟨trivial, trivial, trivial, trivial, trivial, trivial⟩, trivial,
        trivial, ⟨by decide, trivial⟩, trivial, trivial⟩

theorem isWritten_written : file.IsWritten written := by
  refine ⟨_, _, ?_, ⟨_, .written rfl, _, rfl, .refl _⟩, _, rfl, .swap _ _ _⟩
  refine @Properties.IsWritten.intro _ _ none _ none none none none _ none [("true", unknown)]
    .omitted (.written rfl) .omitted .omitted .omitted .omitted (.written (.text ?_)) .omitted rfl
    ⟨_, rfl, .refl _⟩
  decide

theorem holds_written : written.Holds Yaml.IsAscii Yaml.IsShort := by
  simp only [written, unknown, Holds, EntriesHold, ItemsHold]
  decide

/-- A tree with the printed text under a name. -/
def tree (name : String) : FileTree where
  root := .directory [((Path.ofString name).octets, .file ⟨0o644, Utf8.encode written.print⟩)]
  current := []

end Lookalikes

open Lookalikes in
theorem ofText_lookalikes : ofText .yaml written.print = .ok file ∧
    ofText .json written.print = .ok file ∧ ∀ instanceId root,
      ((Outcome.load (.ofString "p.yml") instanceId root : StateM FileTree _)
          (tree "p.yml")).1.result =
        ((Outcome.load (.ofString "p.json") instanceId root : StateM FileTree _)
          (tree "p.json")).1.result := by
  obtain ⟨hyaml, hjson, houtcome⟩ :=
    ofText_concord isPlain_properties isWritten_written holds_written
  exact ⟨hyaml, hjson, houtcome (by decide) (by decide) rfl rfl⟩

/-! ### Keys that are too long -/

namespace Quotes

/-- A key of 512 characters that takes more than 1024 where it is written. -/
def key : String := String.ofList (List.replicate 512 '"')

/-- A property file with that key. -/
def file : PropertyFile where
  properties := { Properties.empty with extra := [(key, .bool true)] }
  instanceData := ⟨none⟩

/-- It is written as nested objects. -/
def written : Json :=
  .object [("pcap-api", .object [(key, .bool true)]), ("spec", .object [])]

theorem toList_key : key.toList = List.replicate 512 '"' := String.toList_ofList

theorem length_toList_key : key.toList.length = 512 := by
  rw [toList_key, List.length_replicate]

theorem isPlain_properties : file.properties.IsPlain where
  ascending := by
    rw [IsAscending]
    decide
  unknown := by
    refine List.forall_mem_cons.2 ⟨fun h => ?_, fun _ h => absurd h List.not_mem_nil⟩
    have hlength : (Properties.names.map fun k => k.toList.length).contains 512 = true := by
      rw [List.contains_iff_mem, ← length_toList_key]
      exact List.mem_map.2 ⟨key, h, rfl⟩
    exact absurd hlength (by decide)
  plain := List.forall_mem_cons.2
    ⟨⟨.bool true, rfl, trivial, trivial, by decide⟩, fun _ h => absurd h List.not_mem_nil⟩

theorem isWritten_written : file.IsWritten written := by
  refine ⟨_, _, ?_, ⟨none, .omitted, _, rfl, .refl _⟩, _, rfl, .refl _⟩
  exact @Properties.IsWritten.intro _ _ none none none none none none none none
    [(key, .bool true)] .omitted .omitted .omitted .omitted .omitted .omitted .omitted .omitted rfl
    ⟨_, rfl, .refl _⟩

theorem isAscii_key : Yaml.IsAscii key := by
  rw [Yaml.IsAscii, toList_key]
  intro c hc
  rw [List.eq_of_mem_replicate hc]
  decide

theorem length_encode_key : (Utf8.encode key).length = 512 := by
  rw [Utf8.encode, toList_key, Utf8.encodeChars, List.length_flatMap, List.map_replicate,
    List.sum_replicate_nat]
  rfl

/-- The colon comes too late for its key, and is out of place. -/
theorem sound_stated : (Yaml.stated (Yaml.tokens (chars 0 written))).sound = false := by
  have hquoted : quoted key = '"' :: (List.replicate 512 '"').flatMap escape ++ ['"'] := by
    rw [quoted, toList_key]
  simp only [written, chars, entryChars, hquoted]
  decide +kernel

end Quotes

open Quotes in
/-- A key of less than 1000 octets can be too long where it is written. -/
theorem ofText_quotes : file.properties.IsPlain ∧ file.IsWritten written ∧
    written.Holds Yaml.IsAscii (fun k => Yaml.IsAscii k ∧ (Utf8.encode k).length < 1000) ∧
    ofText .json written.print = .ok file ∧ ∀ f, ofText .yaml written.print ≠ .ok f := by
  have hholds : written.Holds Yaml.IsAscii
      (fun k => Yaml.IsAscii k ∧ (Utf8.encode k).length < 1000) :=
    ⟨by decide, ⟨⟨isAscii_key, by rw [length_encode_key]; decide⟩, trivial, trivial⟩,
      by decide, trivial, trivial⟩
  refine ⟨isPlain_properties, isWritten_written, hholds,
    ofText_json isPlain_properties ⟨_, isWritten_written, isSpelledBy_print written⟩, fun f h => ?_⟩
  -- The text is refused for its tokens, so that it does not matter what their node is.
  have hprinted : Yaml.IsPrinted (chars 0 written) := by
    rw [← chars_toWide]
    exact Yaml.isPrinted_chars .lines _ 0 (Holds.mono (fun _ hk => hk.1) written hholds).toWide
  have hsound := (Reader.document_eq_ok_iff.1 h).2
  rw [print, Yaml.document_ofList hprinted] at hsound
  rw [sound_stated] at hsound
  cases hsound

end PropertyFile

end CaptureConfig

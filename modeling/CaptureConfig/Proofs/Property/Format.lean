/-
**The notation of a property file is told by its name.**

A path tells the notation if its last part is a name with something before its last dot, and behind
it, in capitals or small letters, one of a few words.  All else tells none, and there are five ways
of that.  A property file at a path that tells no notation is refused before the file system is
asked anything.

Main definitions:

* `Format.extensions`, `Format.IsToldBy` — the extensions of a notation, in any case;
* `Path.IsNamedFor` — **a path that tells a notation**;
* `Path.TellsNothing` — the ways in which a path tells none.

Main results:

* `Utf8.encode_lowerAscii` — capitals are made small in a text as they are in its octets;
* `Format.ofPath?_eq_some_iff`, `Format.ofPath?_eq_none_iff` — the notation that a path tells;
* `Format.told_by_extension` — **nothing but the extension matters**, before the file is read.
-/

import CaptureConfig.Proofs.Extension
import CaptureConfig.Proofs.Loading
import CaptureConfig.Proofs.Utf8

set_option relaxedAutoImplicit false
set_option autoImplicit false

namespace CaptureConfig

/-! ### Capitals as octets -/

namespace Utf8

/-- The octet of a capital made that of the small letter. -/
def lowerOctet (b : UInt8) : UInt8 := if 0x41 ≤ b.toNat ∧ b.toNat ≤ 0x5A then b + 0x20 else b

theorem lowerOctet_of_le {b : UInt8} (h : 0x80 ≤ b.toNat) : lowerOctet b = b :=
  if_neg (by omega)

theorem toNat_le_toNat_lowerOctet (b : UInt8) : b.toNat ≤ (lowerOctet b).toNat := by
  rw [lowerOctet]
  split
  · rw [UInt8.toNat_add]
    have hnumeral : (0x20 : UInt8).toNat = 0x20 := rfl
    omega
  · exact Nat.le_refl _

/-- The octets of a character that takes several are beyond those of letters. -/
theorem le_toNat_of_mem_encodeChar {c : Char} {b : UInt8} (hc : 0x80 ≤ c.toNat)
    (hb : b ∈ String.utf8EncodeChar c) : 0x80 ≤ b.toNat := by
  have hoctet {n : Nat} (hlow : 0x80 ≤ n) (hhigh : n < 0x100) : 0x80 ≤ (UInt8.ofNat n).toNat := by
    rwa [toNat_ofNat_of_lt hhigh]
  -- one case for each number of octets, of which the first has too small a character
  rcases encodeChar_cases c with ⟨h, _⟩ | ⟨_, _, hchar⟩ | ⟨_, _, hchar⟩ | ⟨_, _, hchar⟩
  · omega
  all_goals
    simp only [hchar, List.mem_cons, List.not_mem_nil, or_false] at hb
    rcases hb with rfl | rfl | rfl | rfl
  all_goals exact hoctet (by omega) (by omega)

theorem encodeChar_toLower (c : Char) :
    String.utf8EncodeChar c.toLower = (String.utf8EncodeChar c).map lowerOctet := by
  rcases Nat.lt_or_ge c.toNat 0x80 with h | h
  · have hall : ∀ n < 0x80, String.utf8EncodeChar (Char.ofNat n).toLower =
        (String.utf8EncodeChar (Char.ofNat n)).map lowerOctet := by decide
    have hc := hall c.toNat h
    rwa [Char.ofNat_toNat] at hc
  · have hsame : c.toLower = c := by
      have hval : 0x80 ≤ c.val.toNat := h
      refine dif_neg fun hcapital => ?_
      have hle : c.val.toNat ≤ 'Z'.val.toNat := UInt32.le_iff_toNat_le.1 hcapital.2
      have hnumeral : 'Z'.val.toNat = 0x5A := rfl
      omega
    rw [hsame, List.map_congr_left fun b hb =>
      lowerOctet_of_le (le_toNat_of_mem_encodeChar h hb), List.map_id']

/-- **Capitals are made small in a text as they are in its octets.** -/
theorem encode_lowerAscii (s : String) :
    encode (Text.lowerAscii s) = (encode s).map lowerOctet := by
  rw [encode, encode, Text.lowerAscii, String.toList_ofList, encodeChars, encodeChars,
    List.flatMap_map, List.map_flatMap]
  exact congrArg (s.toList.flatMap ·) (funext encodeChar_toLower)

/-- Octets below those of longer characters are a text. -/
theorem exists_encode_of_lt {bs : List UInt8} (h : ∀ b ∈ bs, b.toNat < 0x80) :
    ∃ s, bs = encode s := by
  induction bs with
  | nil => exact ⟨"", rfl⟩
  | cons b bs ih =>
      obtain ⟨hb, hbs⟩ := List.forall_mem_cons.1 h
      obtain ⟨s, hs⟩ := ih hbs
      refine ⟨String.ofList (Char.ofNat b.toNat :: s.toList), ?_⟩
      rw [hs, encode, encode, String.toList_ofList, encodeChars, encodeChars, List.flatMap_cons,
        encodeChar_of_le_7F (Nat.le_of_lt_succ hb), UInt8.ofNat_toNat]
      rfl

theorem encode_injective {s t : String} (h : encode s = encode t) : s = t := by
  have hs := decode?_encode s
  rw [h, decode?_encode] at hs
  exact (Option.some.inj hs).symm

end Utf8

/-! ### Extensions -/

namespace Format

/-- The extensions of a notation, in small letters. -/
def extensions : Format → List String
  | .yaml => ["yml", "yaml"]
  | .json => ["json"]
  | .hcl => ["hcl"]

/-- **Octets that are an extension of a notation**, whatever the case of its letters. -/
def IsToldBy (format : Format) (ext : List UInt8) : Prop :=
  ∃ word ∈ format.extensions, ext.map Utf8.lowerOctet = Utf8.encode word

variable {format : Format}

theorem ofExtension?_eq_some_iff {ext : String} :
    ofExtension? ext = some format ↔ Text.lowerAscii ext ∈ format.extensions := by
  rw [ofExtension?]
  split <;> cases format <;> simp_all [extensions]

theorem toNat_lt_of_mem_extensions {word : String} (hword : word ∈ format.extensions) {b : UInt8}
    (hb : b ∈ Utf8.encode word) : b.toNat < 0x80 := by
  have hall : ∀ word ∈ format.extensions, ∀ b ∈ Utf8.encode word, b.toNat < 0x80 := by
    cases format <;> decide +kernel
  exact hall word hword b hb

/-- **The octets of an extension tell the notation.**  That they are a text need not be asked. -/
theorem isToldBy_iff {ext : List UInt8} :
    (Utf8.decode? ext).bind ofExtension? = some format ↔ format.IsToldBy ext := by
  rw [Option.bind_eq_some_iff]
  constructor
  · rintro ⟨s, hs, hformat⟩
    rw [Utf8.decode?_eq_some_iff.1 hs]
    exact ⟨_, ofExtension?_eq_some_iff.1 hformat, (Utf8.encode_lowerAscii s).symm⟩
  · rintro ⟨word, hword, hext⟩
    -- making capitals small makes no octet smaller, and those of the word are small
    have hsmall : ∀ b ∈ ext, b.toNat < 0x80 := by
      intro b hb
      refine Nat.lt_of_le_of_lt (Utf8.toNat_le_toNat_lowerOctet b) ?_
      exact toNat_lt_of_mem_extensions hword (hext ▸ List.mem_map_of_mem hb)
    obtain ⟨s, rfl⟩ := Utf8.exists_encode_of_lt hsmall
    rw [← Utf8.encode_lowerAscii] at hext
    exact ⟨s, Utf8.decode?_encode s,
      ofExtension?_eq_some_iff.2 (Utf8.encode_injective hext ▸ hword)⟩

end Format

/-! ### Paths that tell a notation -/

namespace Path

/-- **A path that tells a notation**: its last part is a name with an extension of it. -/
def IsNamedFor (p : Path) (format : Format) : Prop :=
  ∃ stem ext, p.EndsIn (stem ++ dot :: ext) ∧ stem ++ dot :: ext ≠ [dot, dot] ∧ stem ≠ [] ∧
    dot ∉ ext ∧ format.IsToldBy ext

/-- **A path that tells no notation.** -/
inductive TellsNothing (p : Path) : Prop where
  /-- The root, here, or nothing at all. -/
  | idle (h : p.IsIdle)
  | up (h : p.EndsIn [dot, dot])
  | dotless {name : List UInt8} (h : p.EndsIn name) (hdot : dot ∉ name)
  /-- The only dot is the first octet of the name. -/
  | hidden {name : List UInt8} (h : p.EndsIn (dot :: name)) (hdot : dot ∉ name)
  /-- The extension is another one, or no text. -/
  | strange {stem ext : List UInt8} (h : p.EndsIn (stem ++ dot :: ext)) (hdot : dot ∉ ext)
      (hext : ∀ format : Format, ¬ format.IsToldBy ext)

end Path

open CaptureConfig.Path (dot slash EndsIn IsFront IsIdleEnd)

namespace Format

variable {p q : Path} {format : Format} {part : List UInt8}

theorem ofPath?_of_fileName?_eq_none (h : p.fileName? = none) : ofPath? p = none := by
  rw [ofPath?, Path.extension?, h]
  rfl

theorem ofPath?_of_up (h : p.EndsIn [dot, dot]) : ofPath? p = none :=
  ofPath?_of_fileName?_eq_none (by rw [Path.fileName?_of_endsIn h, if_pos rfl])

/-- The notation that the last part of a path tells. -/
theorem ofPath?_of_endsIn (h : p.EndsIn part) (hup : part ≠ [dot, dot]) :
    ofPath? p = ((Path.extensionOf? part).bind Utf8.decode?).bind ofExtension? := by
  rw [ofPath?, Path.extension?, Path.fileName?_of_endsIn h, if_neg hup, Option.bind_some]

/-- Only the last part of a path matters. -/
theorem ofPath?_congr (hp : p.EndsIn part) (hq : q.EndsIn part) : ofPath? p = ofPath? q := by
  by_cases hup : part = [dot, dot]
  · subst hup
    rw [ofPath?_of_up hp, ofPath?_of_up hq]
  · rw [ofPath?_of_endsIn hp hup, ofPath?_of_endsIn hq hup]

theorem ofPath?_of_isNamedFor (h : p.IsNamedFor format) : ofPath? p = some format := by
  obtain ⟨stem, ext, hpart, hup, hstem, hdot, hext⟩ := h
  rw [ofPath?_of_endsIn hpart hup, Path.extensionOf?_append_dot hdot, if_neg hstem,
    Option.bind_some, isToldBy_iff.2 hext]

theorem ofPath?_of_tellsNothing (h : p.TellsNothing) : ofPath? p = none := by
  cases h with
  | idle h => exact ofPath?_of_fileName?_eq_none (Path.fileName?_of_isIdle h)
  | up h => exact ofPath?_of_up h
  | @dotless name h hdot =>
      have hup : name ≠ [dot, dot] := by
        rintro rfl
        exact hdot List.mem_cons_self
      rw [ofPath?_of_endsIn h hup, Path.extensionOf?_of_not_mem hdot]
      rfl
  | @hidden name h hdot =>
      have hup : dot :: name ≠ [dot, dot] := by
        rintro ⟨⟩
        exact hdot List.mem_cons_self
      rw [ofPath?_of_endsIn h hup, ← List.nil_append (dot :: name),
        Path.extensionOf?_append_dot hdot]
      rfl
  | @strange stem ext h hdot hext =>
      have hother : (Utf8.decode? ext).bind ofExtension? = none :=
        Option.eq_none_iff_forall_ne_some.2 fun format hformat =>
          hext format (isToldBy_iff.1 hformat)
      -- the way up has this form too, and so has a hidden name
      by_cases hup : stem ++ dot :: ext = [dot, dot]
      · exact ofPath?_of_up (hup ▸ h)
      rw [ofPath?_of_endsIn h hup, Path.extensionOf?_append_dot hdot]
      by_cases hstem : stem = []
      · rw [if_pos hstem]
        rfl
      · rw [if_neg hstem, Option.bind_some, hother]

/-- Every path tells a notation, or none in one of the ways. -/
theorem tellsNothing_or_isNamedFor (p : Path) : p.TellsNothing ∨ ∃ format, p.IsNamedFor format := by
  obtain hidle | ⟨part, hpart⟩ := p.isIdle_or_endsIn
  · exact .inl (.idle hidle)
  by_cases hup : part = [dot, dot]
  · exact .inl (.up (hup ▸ hpart))
  by_cases hmem : dot ∈ part
  · obtain ⟨stem, ext, rfl, hdot⟩ := Path.exists_of_dot_mem hmem
    by_cases hstem : stem = []
    · subst hstem
      exact .inl (.hidden hpart hdot)
    by_cases hext : ∃ format : Format, format.IsToldBy ext
    · obtain ⟨format, hext⟩ := hext
      exact .inr ⟨format, stem, ext, hpart, hup, hstem, hdot, hext⟩
    · exact .inl (.strange hpart hdot (not_exists.1 hext))
  · exact .inl (.dotless hpart hmem)

theorem ofPath?_eq_some_iff : ofPath? p = some format ↔ p.IsNamedFor format := by
  refine ⟨fun h => ?_, ofPath?_of_isNamedFor⟩
  obtain hnothing | ⟨format', hnamed⟩ := tellsNothing_or_isNamedFor p
  · rw [ofPath?_of_tellsNothing hnothing] at h
    cases h
  · rw [ofPath?_of_isNamedFor hnamed] at h
    exact Option.some.inj h ▸ hnamed

theorem ofPath?_eq_none_iff : ofPath? p = none ↔ p.TellsNothing := by
  refine ⟨fun h => ?_, ofPath?_of_tellsNothing⟩
  obtain hnothing | ⟨format, hnamed⟩ := tellsNothing_or_isNamedFor p
  · exact hnothing
  · rw [ofPath?_of_isNamedFor hnamed] at h
    cases h

end Format

/-! ### Loading -/

namespace PropertyFile

/-- At a path that tells no notation nothing is read. -/
theorem load_of_tellsNothing {p : Path} (h : p.TellsNothing) {m : Type → Type} [Monad m]
    [FileSystem m] :
    (load p : m _) = pure (Traced.quiet (.error (.unsupportedFormat p))) := by
  rw [load, Format.ofPath?_of_tellsNothing h]

/-- Octets that are read are not refused for the name of their file. -/
theorem result_ofOctets_ne (p q : Path) (format : Format) (octets : List UInt8) :
    (ofOctets p format octets).result ≠ .error (.unsupportedFormat q) := by
  intro h
  rw [ofOctets] at h
  split at h
  next => cases h
  next => split at h <;> cases h

/-- A file is refused for its name only at a path that tells no notation. -/
theorem tellsNothing_of_result_eq {p q : Path} {read : Except Refusal (List UInt8)}
    (h : (ofReading p read).result = .error (.unsupportedFormat q)) : p.TellsNothing := by
  rw [ofReading] at h
  split at h
  next hformat => exact Format.ofPath?_eq_none_iff.1 hformat
  next format _ =>
    split at h
    next => cases h
    next octets => exact absurd h (result_ofOctets_ne p q format octets)

end PropertyFile

namespace Format

/-- **Nothing but the extension matters.**  A path tells a notation exactly if its last part is a
name with an extension of it, and otherwise it tells none in one of the ways.  Then, and only then,
a property file is refused for its name, and on no file system is anything asked before.  Whatever
directories stand before a path with a name and whatever slashes and dots behind it, it tells the
same. -/
theorem told_by_extension (p : Path) :
    (∀ format, ofPath? p = some format ↔ p.IsNamedFor format) ∧
    (ofPath? p = none ↔ p.TellsNothing) ∧
    (p.TellsNothing → ∀ (m : Type → Type) [Monad m] [FileSystem m],
      (PropertyFile.load p : m _) = pure (Traced.quiet (.error (.unsupportedFormat p)))) ∧
    (∀ (t : FileTree) (q : Path), ((PropertyFile.load p : StateM FileTree _) t).1.result =
      .error (.unsupportedFormat q) → p.TellsNothing) ∧
    ∀ part, p.EndsIn part → ∀ front ending, IsFront front → IsIdleEnd ending →
      ofPath? ⟨front ++ p.octets ++ ending⟩ = ofPath? p := by
  refine ⟨fun format => ofPath?_eq_some_iff, ofPath?_eq_none_iff,
    fun h m _ _ => PropertyFile.load_of_tellsNothing h, fun t q h => ?_,
    fun part hpart front ending hfront hending =>
      ofPath?_congr (hpart.surround hfront hending) hpart⟩
  rw [PropertyFile.load_run] at h
  exact PropertyFile.tellsNothing_of_result_eq h

/-- A name in capitals behind dots and doubled slashes, the same name with more around it, and a
path that goes up at its end. -/
theorem told_by_extension_cluttered :
    (ofPath? (.ofString "./etc//.pcap.YmL/.//") = some .yaml ∧
      ofPath? (.ofString "../a.json/./etc//.pcap.YmL/.///./") = some .yaml ∧
      ∀ (t : FileTree) (q : Path), ((PropertyFile.load (.ofString "./etc//.pcap.YmL/.//") :
        StateM FileTree _) t).1.result ≠ .error (.unsupportedFormat q)) ∧
    ∀ (m : Type → Type) [Monad m] [FileSystem m],
      (PropertyFile.load (.ofString "a.yml/..") : m _) =
        pure (Traced.quiet (.error (.unsupportedFormat (.ofString "a.yml/..")))) := by
  have hname : (Path.ofString "./etc//.pcap.YmL/.//").EndsIn (Utf8.encode ".pcap.YmL") :=
    ⟨rfl, by decide +kernel, Utf8.encode "./etc//", [slash, dot, slash, slash],
      .inr ⟨Utf8.encode "./etc/", rfl⟩, .here (.more (.more .done)), by decide +kernel⟩
  have hup : (Path.ofString "a.yml/..").EndsIn [dot, dot] :=
    ⟨rfl, by decide, Utf8.encode "a.yml/", [], .inr ⟨Utf8.encode "a.yml", rfl⟩, .done, rfl⟩
  obtain ⟨htold, hnone, -, hrefused, haround⟩ :=
    told_by_extension (.ofString "./etc//.pcap.YmL/.//")
  have hyaml := (htold .yaml).2 ⟨Utf8.encode ".pcap", Utf8.encode "YmL", hname, by decide +kernel,
    by decide +kernel, by decide +kernel, "yml", by decide, by decide +kernel⟩
  refine ⟨⟨hyaml, ?_, fun t q h => ?_⟩, (told_by_extension (.ofString "a.yml/..")).2.2.1 (.up hup)⟩
  · rw [← hyaml, ← haround _ hname (Utf8.encode "../a.json/") [slash, dot, slash]
      (.inr ⟨Utf8.encode "../a.json", rfl⟩) (.here (.more .done))]
    exact congrArg ofPath? (by decide +kernel)
  · exact nomatch hyaml.symm.trans (hnone.2 (hrefused t q h))

end Format

end CaptureConfig

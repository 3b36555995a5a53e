/-
**How a document ends.**

Printing a document takes the blanks off its end and puts one break there.  Nothing of the document
is lost by that if it ends with a character that is no blank, or with one break behind such a
character.  In strict notation that is a brace.  In block notation it depends on the last entry
alone: a truth value ends so, and a text ends so in every style if its own last character is no
blank, since quotes are no blanks and a text below a bar has to end with a break to end its line
itself.  However many breaks an earlier text ends with, they stand before the last entry.

Main definitions:

* `Text.EndsVisibly` — characters that end with one that is no blank;
* `Text.EndsWithBreak` — such characters with one break behind them;
* `Doc.EndsVisibly` — a document whose last text ends so.

Main results:

* `Text.dropBlanksEnd_of_endsVisibly`, `Text.dropBlanksEnd_of_endsWithBreak` — what trimming leaves;
* `Yaml.endsVisibly_scalarChars` — a scalar ends as its text does, or with a quote;
* `Yaml.endsWithBreak_print` — **a document in block notation ends as its last entry does**;
* `Json.endsVisibly_chars` — an object in strict notation ends with a brace;
* `Config.trimEnd_text` — **nothing of the document of a configuration is lost by trimming**.
-/

import CaptureConfig.Proofs.Blank
import CaptureConfig.Proofs.RoundTrip

set_option relaxedAutoImplicit false
set_option autoImplicit false

namespace CaptureConfig

namespace Text

/-! ### Ends of characters -/

/-- **Characters that end with one that is no blank.** -/
def EndsVisibly (cs : List Char) : Prop := ∃ front c, cs = front ++ [c] ∧ isBlank c = false

/-- **Such characters with one break behind them.** -/
def EndsWithBreak (cs : List Char) : Prop := ∃ line, cs = line ++ ['\n'] ∧ EndsVisibly line

variable {cs : List Char}

theorem endsVisibly_singleton {c : Char} (h : isBlank c = false) : EndsVisibly [c] :=
  ⟨[], c, rfl, h⟩

theorem EndsVisibly.append (h : EndsVisibly cs) (front : List Char) :
    EndsVisibly (front ++ cs) := by
  obtain ⟨before, c, rfl, hc⟩ := h
  exact ⟨front ++ before, c, (List.append_assoc _ _ _).symm, hc⟩

theorem EndsVisibly.cons (h : EndsVisibly cs) (c : Char) : EndsVisibly (c :: cs) := h.append [c]

theorem EndsWithBreak.append (h : EndsWithBreak cs) (front : List Char) :
    EndsWithBreak (front ++ cs) := by
  obtain ⟨line, rfl, hline⟩ := h
  exact ⟨front ++ line, (List.append_assoc _ _ _).symm, hline.append front⟩

theorem dropBlanksEnd_concat (cs : List Char) (c : Char) :
    dropBlanksEnd (cs ++ [c]) = if isBlank c then dropBlanksEnd cs else cs ++ [c] := by
  rw [dropBlanksEnd, List.reverse_append, List.reverse_singleton, List.singleton_append,
    List.dropWhile_cons]
  split
  next => rfl
  next => rw [List.reverse_cons, List.reverse_reverse]

/-- **Nothing is taken off** characters that end with one that is no blank. -/
theorem dropBlanksEnd_of_endsVisibly (h : EndsVisibly cs) : dropBlanksEnd cs = cs := by
  obtain ⟨front, c, rfl, hc⟩ := h
  rw [dropBlanksEnd_concat, if_neg (by rw [hc]; exact Bool.false_ne_true)]

/-- **Only the break is taken off** behind such characters. -/
theorem dropBlanksEnd_of_endsWithBreak (h : EndsWithBreak cs) :
    dropBlanksEnd cs ++ ['\n'] = cs := by
  obtain ⟨line, rfl, hline⟩ := h
  rw [dropBlanksEnd_concat, if_pos (by decide), dropBlanksEnd_of_endsVisibly hline]

end Text

open Text (EndsVisibly EndsWithBreak)

namespace Yaml

/-! ### Ends of scalars -/

/-- A text between single quotes ends with a quote. -/
theorem endsVisibly_singleBody (indent : Nat) (atBreak : Bool) (cs : List Char) :
    EndsVisibly (singleBody indent atBreak cs) := by
  induction cs generalizing atBreak with
  | nil => exact (Text.endsVisibly_singleton (by decide)).append _
  | cons c cs ih =>
      rw [singleBody]
      split
      · exact (ih true).cons c
      · exact (ih false).append _

/-- Breaks are blanks. -/
theorem isBreak_eq_false {c : Char} (h : Text.isBlank c = false) : isBreak c = false := by
  rw [← Bool.not_eq_true, isBreak_iff]
  rintro (rfl | rfl | rfl | rfl | rfl) <;> exact absurd h (by decide)

/-- The lines below a bar end as their text does. -/
theorem endsVisibly_literalBody {cs : List Char} (h : EndsVisibly cs) (indent : Nat)
    (atBreak : Bool) : EndsVisibly (literalBody indent atBreak cs) := by
  obtain ⟨front, last, rfl, hlast⟩ := h
  induction front generalizing atBreak with
  | nil =>
      rw [List.nil_append, literalBody, isBreak_eq_false hlast, literalBody]
      exact (Text.endsVisibly_singleton hlast).append _
  | cons c front ih =>
      rw [List.cons_append, literalBody]
      split
      · exact (ih true).cons c
      · exact ((ih false).cons c).append _

section

variable {s : String}

/-- **A scalar ends as its text does**, or with a quote. -/
theorem endsVisibly_scalarChars (h : EndsVisibly s.toList) (indent : Nat) :
    EndsVisibly (scalarChars indent s) := by
  have hquote (q : Char) (hq : Text.isBlank q = false) (cs : List Char) : EndsVisibly (cs ++ [q]) :=
    (Text.endsVisibly_singleton hq).append cs
  rw [scalarChars]
  cases styleOf s.toList with
  | plain => exact h
  | single => exact (endsVisibly_singleBody indent false s.toList).cons '\''
  | double => exact hquote '"' (by decide) _
  | literal => exact (((endsVisibly_literalBody h indent true).cons '\n').append _).cons '|'

/-- The break behind such a scalar does not belong to it. -/
theorem endsLine_eq_false (h : EndsVisibly s.toList) : endsLine s = false := by
  obtain ⟨front, c, hs, hc⟩ := h
  rw [endsLine, hs, List.getLast?_concat, Option.any_some, isBreak_eq_false hc, Bool.and_false]

end

end Yaml

/-! ### Ends of documents -/

/-- **A document whose last text, if it ends with one, ends with a character that is no blank.** -/
inductive Doc.EndsVisibly : Doc → Prop
  | text {s : String} (h : Text.EndsVisibly s.toList) : EndsVisibly (.text s)
  | number (n : Nat) : EndsVisibly (.number n)
  | flag (b : Bool) : EndsVisibly (.flag b)
  | empty : EndsVisibly (.block [])
  | block {d : Doc} (before : List (String × Doc)) (k : String) (h : EndsVisibly d) :
      EndsVisibly (.block (before ++ [(k, d)]))

theorem Digits.endsVisibly_ofNat (n : Nat) : Text.EndsVisibly (ofNat n) := by
  obtain hnil | ⟨front, c, heq⟩ := List.eq_nil_or_concat (ofNat n)
  · exact absurd hnil (ofNat_ne_nil n)
  · rw [List.concat_eq_append] at heq
    have hmem : c ∈ ofNat n := heq ▸ List.mem_append_right front List.mem_cons_self
    obtain ⟨hlow, hhigh⟩ := toNat_of_isDigit (isDigit_of_mem_ofNat hmem)
    refine ⟨front, c, heq, ?_⟩
    simp only [Text.isBlank, Bool.or_eq_false_iff, Bool.and_eq_false_iff, decide_eq_false_iff_not,
      beq_eq_false_iff_ne]
    omega

namespace Yaml

theorem entryChars_append (column : Nat) (before rest : List (String × Doc)) :
    entryChars column (before ++ rest) = entryChars column before ++ entryChars column rest := by
  induction before with
  | nil => rw [List.nil_append, entryChars, List.nil_append]
  | cons e before ih =>
      rw [List.cons_append, entryChars, entryChars, ih]
      simp only [List.append_assoc, List.cons_append]

theorem entryChars_singleton (column : Nat) (k : String) (d : Doc) : entryChars column [(k, d)] =
    (indentChars column ++ scalarChars (column + 2) k ++ [':']) ++ valueChars column d := by
  rw [entryChars, entryChars, List.append_nil]
  simp only [List.append_assoc, List.cons_append, List.nil_append]

theorem valueChars_concat (column : Nat) (before : List (String × Doc)) (e : String × Doc) :
    valueChars column (.block (before ++ [e])) =
      '\n' :: entryChars (column + 2) (before ++ [e]) := by
  cases before with
  | nil => rw [List.nil_append, valueChars]
  | cons f before => rw [List.cons_append, valueChars]

/-- **What stands behind a key ends with one break**, if its last text ends visibly. -/
theorem endsWithBreak_valueChars {d : Doc} (h : d.EndsVisibly) (column : Nat) :
    EndsWithBreak (valueChars column d) := by
  induction h generalizing column with
  | text h =>
      rw [valueChars, endsLine_eq_false h, if_neg Bool.false_ne_true, ← List.cons_append]
      exact ⟨_, rfl, (endsVisibly_scalarChars h _).cons ' '⟩
  | number n =>
      rw [valueChars, ← List.cons_append]
      exact ⟨_, rfl, (Digits.endsVisibly_ofNat n).cons ' '⟩
  | flag b =>
      rw [valueChars, ← List.cons_append]
      refine ⟨_, rfl, EndsVisibly.cons ?_ ' '⟩
      cases b with
      | false => exact ⟨"fals".toList, 'e', rfl, by decide⟩
      | true => exact ⟨"tru".toList, 'e', rfl, by decide⟩
  | empty =>
      rw [valueChars]
      exact ⟨" \x7b\x7d".toList, rfl, " \x7b".toList, '\x7d', rfl, by decide⟩
  | block before k h ih =>
      rw [valueChars_concat, entryChars_append, entryChars_singleton, ← List.singleton_append]
      exact (((ih (column + 2)).append _).append _).append _

theorem toList_print_concat (before : List (String × Doc)) (e : String × Doc) :
    (print (.block (before ++ [e]))).toList = entryChars 0 (before ++ [e]) := by
  cases before with
  | nil => exact String.toList_ofList
  | cons f before => exact String.toList_ofList

/-- **A document in block notation ends with one break** behind a character that is no blank. -/
theorem endsWithBreak_print {before : List (String × Doc)} {k : String} {d : Doc}
    (h : d.EndsVisibly) : EndsWithBreak (print (.block (before ++ [(k, d)]))).toList := by
  rw [toList_print_concat, entryChars_append, entryChars_singleton]
  exact ((endsWithBreak_valueChars h 0).append _).append _

end Yaml

/-! ### Ends of objects in strict notation -/

/-- An object ends with a brace. -/
theorem Json.endsVisibly_chars (depth : Nat) (entries : List (String × Json)) :
    EndsVisibly (chars depth (.object entries)) := by
  have hbrace : EndsVisibly ['\x7d'] := Text.endsVisibly_singleton (by decide)
  cases entries with
  | nil => exact hbrace.cons '\x7b'
  | cons e rest =>
      rw [chars]
      exact (hbrace.append _).cons '\x7b'

/-! ### Ends of configuration documents -/

namespace Config

/-- What is last in the document: whether addresses are restricted, or else the path of the list. -/
theorem exists_doc_eq (c : Config) : ∃ before k d, c.doc = .block (before ++ [(k, d)]) ∧
    ((∃ b, d = .flag b) ∨ ∃ p ∈ c.cidrAllowlist, d = .text p.display) := by
  let front : List (String × Option Doc) :=
    [("id", some (.text c.id)), ("log_level", some (.text c.logLevel)),
      ("concurrent_captures", c.concurrentCaptures.map fun n => .number n.toNat),
      ("buffer", c.buffer.map bufferDoc), ("listen", some c.listenDoc),
      ("bosh", c.bosh.map boshDoc)]
  have hdoc : c.doc = .block (present
      (front ++ [("enable_ip_restriction", some (.flag c.enableIpRestriction))] ++
        [("cidr_allowlist", c.cidrAllowlist.map fun p => .text p.display)])) := rfl
  rw [present, List.filterMap_append, List.filterMap_append] at hdoc
  cases hlist : c.cidrAllowlist with
  | none =>
      rw [hlist] at hdoc
      exact ⟨_, _, _, hdoc.trans (congrArg Doc.block (List.append_nil _)), .inl ⟨_, rfl⟩⟩
  | some p =>
      rw [hlist] at hdoc
      exact ⟨_, _, _, hdoc, .inr ⟨p, rfl, rfl⟩⟩

/-- **Nothing of the document is lost** when the blanks are taken off its end and one break is put
there: in block notation the document comes back, in strict notation the break comes behind it. -/
theorem trimEnd_text {c : Config} (hend : ∀ p ∈ c.cidrAllowlist, EndsVisibly p.display.toList)
    {form : Form} {s : String} (h : c.text form = .ok s) :
    (form = .yaml → Text.trimEnd s ++ "\n" = s) ∧ (form = .json → Text.trimEnd s = s) := by
  obtain ⟨before, k, d, hdoc, hlast⟩ := c.exists_doc_eq
  have hs : s = form.print (.block (before ++ [(k, d)])) := by
    obtain hprint | herror := c.text_cases form
    · exact hdoc ▸ Except.ok.inj (h.symm.trans hprint)
    · cases h.symm.trans herror
  constructor
  · rintro rfl
    have hd : d.EndsVisibly := by
      obtain ⟨b, rfl⟩ | ⟨p, hp, rfl⟩ := hlast
      · exact .flag b
      · exact .text (hend p hp)
    have hline : EndsWithBreak (Yaml.print (.block (before ++ [(k, d)]))).toList :=
      Yaml.endsWithBreak_print hd
    rw [hs, ← String.toList_inj, String.toList_append, Text.trimEnd, String.toList_ofList]
    exact Text.dropBlanksEnd_of_endsWithBreak hline
  · rintro rfl
    have hbrace := Text.dropBlanksEnd_of_endsVisibly
      (Json.endsVisibly_chars 0 (Doc.entriesToJson (before ++ [(k, d)])))
    rw [hs, Text.trimEnd, Form.print, Doc.toJson, Json.print, String.toList_ofList, hbrace]

end Config

end CaptureConfig

/-
**A report in strict notation.**

A report quotes what the operator wrote: an entry, a level or a key stands in it as it is, with its
quotes, its backslashes and its breaks.  In strict notation none of that is lost.  A text that
denotes a value is read as that value by a reader that knows no schema, and a report is such a
value: an object with one key, under which the warnings stand in the order in which they were made.
So two reports are printed alike only if they say the same.

Main definitions:

* `Report.after` — the report after findings made one after another;
* `Warning.value`, `Report.value` — a warning and a report without a schema.

Main results:

* `Json.read_anything_of_isSpelledBy` — **a text that denotes a value is read as that value**;
* `Json.eq_of_print_eq` — what is printed alike is the same;
* `Report.told_after` — **nothing that a report says is lost**.
-/

import CaptureConfig.Proofs.Json.Value
import CaptureConfig.Proofs.RoundTrip
import CaptureConfig.Report

set_option relaxedAutoImplicit false
set_option autoImplicit false

namespace CaptureConfig

namespace Json

/-- **A text that denotes a value is read as that value**, without a schema. -/
theorem read_anything_of_isSpelledBy {v : Json} {s : String} (h : v.IsSpelledBy s)
    (hfits : v.Fits) (hdistinct : v.IsDistinct) (hdepth : v.depth ≤ deepest) :
    read Reader.anything s = .ok v.toValue := by
  rw [read, document_eq_treeIn h hfits hdepth]
  refine Reader.document_sound.trans ?_
  show (treeIn strict v).keep.bind Value.distinct = _
  rw [keep_treeIn lawful_strict v hfits]
  exact distinct_toValue hdistinct

/-- **What is printed alike is the same.** -/
theorem eq_of_print_eq {v w : Json} (hv : v.Fits ∧ v.IsDistinct ∧ v.depth ≤ deepest)
    (hw : w.Fits ∧ w.IsDistinct ∧ w.depth ≤ deepest) (h : v.print = w.print) : v = w := by
  have readv := read_anything_of_isSpelledBy (isSpelledBy_print v) hv.1 hv.2.1 hv.2.2
  have readw := read_anything_of_isSpelledBy (isSpelledBy_print w) hw.1 hw.2.1 hw.2.2
  rw [h, readw, Except.ok.injEq] at readv
  exact toValue_injective v w readv.symm

end Json

namespace Report

/-- **The report after findings** made one after another, the first one first. -/
def after (findings : List Finding) : Report := findings.foldl add empty

/-- What a text that may be missing is without a schema. -/
def optionValue : Option String → Value
  | .none => .null
  | .some s => .text s

end Report

/-- **A warning without a schema**: its message, its property and its help, in this order. -/
def Warning.value (w : Warning) : Value :=
  .map [(.text "message", .text w.message), (.text "property", .text w.property),
    (.text "help", Report.optionValue w.help)]

namespace Report

/-- **A report without a schema**: one key, with the warnings in order. -/
def value (r : Report) : Value := .map [(.text "warnings", .seq (r.warnings.map Warning.value))]

/-! ### Reports as values -/

/-- Findings are kept in the order in which they are made. -/
theorem findings_foldl_add (findings : List Finding) (r : Report) :
    (findings.foldl add r).findings = r.findings ++ findings := by
  induction findings generalizing r with
  | nil => exact (List.append_nil _).symm
  | cons f rest ih => rw [List.foldl_cons, ih, add, List.append_assoc, List.singleton_append]

theorem warnings_after (findings : List Finding) :
    (after findings).warnings = findings.map Finding.warning := by
  rw [warnings, after, findings_foldl_add]
  rfl

theorem toValue_warningJson (w : Warning) : (warningJson w).toValue = w.value := by
  obtain ⟨message, property, help⟩ := w
  cases help <;> rfl

theorem itemValues_warningJson (ws : List Warning) :
    Json.itemValues (ws.map warningJson) = ws.map Warning.value := by
  induction ws with
  | nil => rfl
  | cons w rest ih =>
      rw [List.map_cons, Json.itemValues, toValue_warningJson, ih, List.map_cons]

theorem toValue_json (r : Report) : r.json.toValue = r.value := by
  rw [json, Json.toValue, Json.entryValues, Json.toValue, itemValues_warningJson, Json.entryValues,
    value]

theorem itemsFit_warningJson (ws : List Warning) : Json.ItemsFit (ws.map warningJson) := by
  induction ws with
  | nil => trivial
  | cons w rest ih =>
      obtain ⟨message, property, help⟩ := w
      cases help <;> exact ⟨⟨trivial, trivial, trivial, trivial⟩, ih⟩

theorem itemsAreDistinct_warningJson (ws : List Warning) :
    Json.ItemsAreDistinct (ws.map warningJson) := by
  have keys : ["message", "property", "help"].Nodup := by decide
  induction ws with
  | nil => trivial
  | cons w rest ih =>
      obtain ⟨message, property, help⟩ := w
      cases help <;> exact ⟨⟨keys, trivial, trivial, trivial, trivial⟩, ih⟩

theorem itemsDepth_warningJson (ws : List Warning) : Json.itemsDepth (ws.map warningJson) ≤ 1 := by
  induction ws with
  | nil => exact Nat.zero_le 1
  | cons w rest ih =>
      obtain ⟨message, property, help⟩ := w
      cases help <;> exact Nat.max_le.2 ⟨Nat.le_refl 1, ih⟩

/-- A report is a value that can be read: it is not deep, and no key stands twice. -/
theorem readable_json (r : Report) : r.json.Fits ∧ r.json.IsDistinct ∧
    r.json.depth ≤ Json.deepest := by
  refine ⟨⟨itemsFit_warningJson _, trivial⟩,
    ⟨by simp, itemsAreDistinct_warningJson _, trivial⟩, ?_⟩
  have := itemsDepth_warningJson r.warnings
  simp only [json, Json.depth, Json.entriesDepth, Json.deepest]
  omega

/-- **A printed report is read as what it says.** -/
theorem read_print_json (r : Report) : Json.read Reader.anything r.json.print = .ok r.value := by
  obtain ⟨hfits, hdistinct, hdepth⟩ := r.readable_json
  rw [Json.read_anything_of_isSpelledBy (Json.isSpelledBy_print _) hfits hdistinct hdepth,
    toValue_json]

theorem warningJson_injective {w x : Warning} (h : warningJson w = warningJson x) : w = x := by
  obtain ⟨_, _, help⟩ := w
  obtain ⟨_, _, help'⟩ := x
  cases help <;> cases help' <;> simp_all [warningJson, optionJson]

/-- **Reports are printed alike exactly if their warnings are the same.** -/
theorem print_json_eq_iff (r r' : Report) :
    r.json.print = r'.json.print ↔ r.warnings = r'.warnings := by
  constructor
  · intro h
    have hjson := Json.eq_of_print_eq r.readable_json r'.readable_json h
    simp only [json, Json.object.injEq, List.cons.injEq, Prod.mk.injEq, Json.array.injEq] at hjson
    exact (List.map_inj_right fun _ _ => warningJson_injective).1 hjson.1.2
  · intro h
    rw [json, json, h]

/-- **Nothing that a report says is lost in strict notation**, whatever findings were made: it is
read as the warnings in the order in which they were made, and the text tells reports apart that do
not say the same. -/
theorem told_after (findings : List Finding) :
    (after findings).warnings = findings.map Finding.warning ∧
      Json.read Reader.anything (after findings).json.print =
        .ok (.map [(.text "warnings", .seq ((after findings).warnings.map Warning.value))]) ∧
      ∀ others, (after findings).json.print = (after others).json.print ↔
        (after findings).warnings = (after others).warnings :=
  ⟨warnings_after findings, read_print_json _, fun _ => print_json_eq_iff _ _⟩

end Report

end CaptureConfig

/-
**Whole numbers from the property file to the document.**

Six quantities are whole numbers of 16, 32 or 64 bits.  Digits in a property file may be of any
length: too long for 64 bits they are taken for a number with a point or for none at all in strict
notation, and for a wider number or a text in block notation.  Either way a quantity is the number that
is written or the property file is refused, and what a configuration has is what its document says.

Main definitions:

* `Quantity` — the quantities, where each of them stands, and what bounds it;
* `Tree.IsTakenFor` — a datum counts as a whole number, or is refused;
* `Quantity.Stands` — a text is a property file with the digits of a number at a quantity.

Main results:

* `Json.isTakenFor_ofInt`, `Yaml.isTakenFor_ofInt` — digits count as the number that they are;
* `Quantity.carried_of_resolve`, `Quantity.at?_value` — a quantity reaches the document;
* `Quantity.stands_strict`, `Quantity.stands_printed`, `Quantity.stands_block` — **any number can stand
  in a text**: in every spelling of strict notation, in its printed form, and in nested blocks;
* `Quantity.stands_of_isWritten` — the same wherever a property file is written;
* `Quantity.heeded_of_stands` — **a number is refused, or arrives as it is written**.
-/

import CaptureConfig.Proofs.Agreement
import CaptureConfig.Proofs.Json.Exchange
import CaptureConfig.Proofs.Json.Frame
import CaptureConfig.Proofs.Property.Concord
import CaptureConfig.Proofs.Property.Place
import CaptureConfig.Proofs.Yaml.Block

set_option relaxedAutoImplicit false
set_option autoImplicit false

namespace CaptureConfig

/-! ### Data that count as whole numbers -/

/-- **A datum counts as a whole number**: something is there, and where a number below a bound of up
to 64 bits is expected, it is that number or is refused. -/
structure Tree.IsTakenFor {σ : Type} [Scalar σ] (t : Tree σ) (n : Int) : Prop where
  isNull : Reader.isNull t = .ok false
  read : ∀ {bound : Nat}, bound ≤ Nat.pow 2 64 → ∀ expected m,
    (Reader.number bound expected).read t = .ok m ↔ (m : Int) = n ∧ m < bound

/-- A scalar that is no other number than a given one, and is that one if it has 64 bits. -/
theorem isTakenFor_scalar {σ : Type} [Scalar σ] {a : σ} {n : Int}
    (hnull : Scalar.isNull a = .ok false) (honly : ∀ i, Scalar.integer? a = some i → i = n)
    (hfits : 0 ≤ n → n < (Nat.pow 2 64 : Int) → Scalar.integer? a = some n) :
    (Tree.scalar a).IsTakenFor n where
  isNull := congrArg Tree.complaining hnull
  read {bound} hbound expected m := by
    rw [Reader.number, Reader.scalar]
    cases hinteger : Scalar.integer? a with
    | none =>
        simp only [hinteger]
        refine iff_of_false (by simp) fun h => ?_
        obtain ⟨hm, hlt⟩ := h
        have hsome := hfits (by omega) (by rw [← hm]; exact Int.ofNat_lt.2 (by omega))
        rw [hinteger] at hsome
        cases hsome
    | some i =>
        obtain rfl := honly i hinteger
        simp only [hinteger]
        split
        next hin =>
          rw [Except.ok.injEq]
          omega
        next hout =>
          refine iff_of_false (by simp) fun h => hout ?_
          obtain ⟨hm, hlt⟩ := h
          exact ⟨by omega, by omega⟩

namespace Json

/-- **What digits are read as**, in strict notation. -/
def digitsTree (n : Int) : Tree Atom := (Literal.ofInt n).tree

theorem digitsTree_of_fitsWord {n : Int} (h : FitsWord n) : digitsTree n = .scalar (.int n) :=
  tree_ofInt h

/-- **In strict notation digits count as their number**: what does not fit 64 bits is no whole
number. -/
theorem isTakenFor_ofInt (n : Int) : (digitsTree n).IsTakenFor n := by
  by_cases hn : FitsWord n
  · rw [digitsTree_of_fitsWord hn]
    exact isTakenFor_scalar rfl (fun i hi => (Option.some.inj hi).symm) fun _ _ => rfl
  · have hout : 0 ≤ n → n < (Nat.pow 2 64 : Int) → False :=
      fun hlow hhigh => hn ⟨Int.le_trans (by decide) hlow, hhigh⟩
    rw [digitsTree, Literal.tree, Numeral.value?, int?_ofInt_eq_none hn]
    cases (Literal.ofInt n).numeral.float? with
    | some f =>
        have hno (i : Int) : Scalar.integer? (Atom.float f) ≠ some i := by
          intro h
          cases h
        exact isTakenFor_scalar rfl (fun i h => absurd h (hno i)) fun h h' => (hout h h').elim
    | none =>
        refine ⟨rfl, fun hbound expected m => iff_of_false (fun h => ?_) fun h => ?_⟩
        · cases h
        · obtain ⟨hm, hlt⟩ := h
          exact hout (by omega) (by rw [← hm]; exact Int.ofNat_lt.2 (by omega))

end Json

namespace Yaml

/-- **What digits are read as**, in block notation: a plain scalar, however many they are. -/
def digitsTree (n : Int) : Tree Atom := .scalar ⟨Digits.ofInt n, .plainly, .none⟩

/-- **In block notation digits count as their number**: those behind a minus, and those that do not
fit 64 bits, are no number that is expected anywhere. -/
theorem isTakenFor_ofInt (n : Int) : (digitsTree n).IsTakenFor n := by
  cases n with
  | ofNat m =>
      have hnull : Scalar.isNull (Atom.mk (Digits.ofNat m) .plainly .none) = .ok false :=
        congrArg Except.ok (isNull_ofNat m)
      refine isTakenFor_scalar hnull (fun i hi => ?_) fun _ h => integer?_ofNat (Int.ofNat_lt.1 h)
      by_cases hm : m < Nat.pow 2 64
      · exact (Option.some.inj ((integer?_ofNat hm).symm.trans hi)).symm
      · have hnone : Scalar.integer? (Atom.mk (Digits.ofNat m) .plainly .none) = none := by
          refine (if_pos rfl).trans ?_
          rw [unsigned?_ofNat, Option.filter_some, if_neg (by rw [decide_eq_true_eq]; exact hm)]
          rfl
        cases hnone.symm.trans hi
  | negSucc m =>
      have hinteger : Scalar.integer? (Atom.mk ('-' :: Digits.ofNat (m + 1)) .plainly .none) =
          none := by
        refine (if_pos rfl).trans ?_
        rw [unsigned?_minus]
        rfl
      refine isTakenFor_scalar (congrArg Except.ok (isNull_minus (m + 1))) (fun i hi => ?_)
        fun h _ => absurd h (by simp)
      rw [Digits.ofInt, hinteger] at hi
      cases hi

end Yaml

/-! ### The quantities -/

/-- **The quantities of a property file.** -/
inductive Quantity where
  | port
  | agentPort
  | concurrentCaptures
  | size
  | upperLimit
  | lowerLimit
  deriving DecidableEq, Repr

namespace Quantity

open Properties

/-- The fields around the record of a quantity. -/
def path : Quantity → List (List String × String)
  | port => [(PropertyFile.names, "pcap-api"), (Properties.names, "listen")]
  | agentPort => [(PropertyFile.names, "pcap-api"), (Properties.names, "bosh")]
  | concurrentCaptures => [(PropertyFile.names, "pcap-api")]
  | size | upperLimit | lowerLimit =>
      [(PropertyFile.names, "pcap-api"), (Properties.names, "buffer")]

/-- The keys of the record of a quantity. -/
def names : Quantity → List String
  | port => Listen.names
  | agentPort => Bosh.names
  | concurrentCaptures => Properties.names
  | size | upperLimit | lowerLimit => Buffer.names

/-- The key of a quantity. -/
def name : Quantity → String
  | port => "port"
  | agentPort => "agent_port"
  | concurrentCaptures => "concurrent_captures"
  | size => "size"
  | upperLimit => "upper_limit"
  | lowerLimit => "lower_limit"

/-- What a quantity stays below. -/
def bound : Quantity → Nat
  | port | agentPort => Nat.pow 2 16
  | concurrentCaptures => Nat.pow 2 32
  | size | upperLimit | lowerLimit => Nat.pow 2 64

/-- How a quantity is called in a complaint. -/
def expected : Quantity → String
  | port | agentPort => "u16"
  | concurrentCaptures => "u32"
  | size | upperLimit | lowerLimit => "u64"

/-- A quantity of properties, if it is there. -/
def get? : Quantity → Properties → Option Nat
  | port, p => (p.listen.bind Listen.port).map UInt16.toNat
  | agentPort, p => p.bosh.map fun b => b.agentPort.toNat
  | concurrentCaptures, p => p.concurrentCaptures.map UInt32.toNat
  | size, p => p.buffer.map fun b => b.size.toNat
  | upperLimit, p => p.buffer.map fun b => b.upperLimit.toNat
  | lowerLimit, p => p.buffer.map fun b => b.lowerLimit.toNat

/-- A quantity of a configuration, if it is there. -/
def configured? : Quantity → Config → Option Nat
  | port, c => some c.port.toNat
  | agentPort, c => c.bosh.map fun b => b.agentPort.toNat
  | concurrentCaptures, c => c.concurrentCaptures.map UInt32.toNat
  | size, c => c.buffer.map fun b => b.size.toNat
  | upperLimit, c => c.buffer.map fun b => b.upperLimit.toNat
  | lowerLimit, c => c.buffer.map fun b => b.lowerLimit.toNat

/-- The keys under which a document has a quantity, the outermost first. -/
def documentKeys : Quantity → List String
  | port => ["listen", "port"]
  | agentPort => ["bosh", "agent_port"]
  | concurrentCaptures => ["concurrent_captures"]
  | size => ["buffer", "size"]
  | upperLimit => ["buffer", "upper_limit"]
  | lowerLimit => ["buffer", "lower_limit"]

theorem bound_le (q : Quantity) : q.bound ≤ Nat.pow 2 64 := by
  cases q <;> decide

/-! ### Reading a quantity -/

section

variable {σ : Type} [Scalar σ]

open Reader

/-- A number that may be missing, where there is something. -/
theorem read_optional {α : Type} {r : Reader σ α} {t : Tree σ} (h : isNull t = .ok false) :
    (optional r).read t = (r.read t).map some := by
  show (isNull t).bind _ = _
  rw [h]
  rfl

/-- A number that is not missing, changed or not. -/
theorem read_map_number {α β : Type} {bound : Nat} {expected : String} {r : Reader σ α} {t : Tree σ}
    {make : Nat → α} (h : r.read t = ((number bound expected).read t).map make) (g : α → β) :
    (r.read t).map g = ((number bound expected).read t).map fun m => g (make m) := by
  rw [h]
  cases (number bound expected).read t <;> rfl

variable {path : List (List String × String)} {names : List String} {name : String}

/-- A property file with something in a field of numbers. -/
theorem read_number {α β : Type} {p : Part PropertyFile α} {r : Reader σ α} {p' : Part α β}
    {r' : Reader σ β} {bound : Nat} {expected : String} {make : Nat → β}
    (h : Reading.file.Reaches path r p.IsMadeBy) (h' : r.Opens names name r' p'.IsMadeBy)
    (hnumber : ∀ t, isNull t = .ok false →
      r'.read t = ((number bound expected).read t).map make)
    {outer : List (Frame σ)} {f : Frame σ} {d : Tree σ} {file : PropertyFile}
    (houter : Frame.AreAlong path outer) (hf : f.IsOf names name)
    (hd : Reading.file.read (Frame.fillAll outer (f.fill d)) = .ok file) :
    ∃ g : Nat → PropertyFile, (∀ m, (p.comp p').get? (g m) = some (make m)) ∧
      ∀ t, isNull t = .ok false → Reading.file.read (Frame.fillAll outer (f.fill t)) =
        ((number bound expected).read t).map g := by
  obtain ⟨g, c, hg, -, hall⟩ := h.put h' houter hf hd
  refine ⟨fun m => g (make m), fun m => hg.get? _, fun t ht => ?_⟩
  rw [Frame.fill, hall (some t) (absurd · (Option.some_ne_none t))]
  exact read_map_number (hnumber t ht) g

omit [Scalar σ] in
theorem map_toNat {α : Type} {a? : Option α} {get : α → UInt64} {m : Nat}
    (h : (a?.bind fun a => some (get a)) = some (.ofNat m)) (hm : m < Nat.pow 2 64) :
    (a?.map fun a => (get a).toNat) = some m := by
  obtain ⟨a, rfl, ha⟩ := Option.bind_eq_some_iff.1 h
  rw [Option.map_some, Option.some.inj ha]
  exact congrArg some (UInt64.toNat_ofNat_of_lt hm)

/-- **A property file with something at a quantity**: the reader of numbers says what the quantity
becomes. -/
theorem read_fill (q : Quantity) {outer : List (Frame σ)} {f : Frame σ} {d : Tree σ}
    {file : PropertyFile} (houter : Frame.AreAlong q.path outer) (hf : f.IsOf q.names q.name)
    (hd : Reading.file.read (Frame.fillAll outer (f.fill d)) = .ok file) :
    ∃ g : Nat → PropertyFile, (∀ m < q.bound, q.get? (g m).properties = some m) ∧
      ∀ t, isNull t = .ok false → Reading.file.read (Frame.fillAll outer (f.fill t)) =
        ((number q.bound q.expected).read t).map g := by
  have hpath {β : Type} {r : Reader σ β} {name : String} {p : Part Properties β}
      (h : Reading.properties.Opens Properties.names name r p.IsMadeBy) :=
    (PropertyFile.opens_properties (σ := σ)).reaches_comp h.reaches_last
  cases q with
  | port =>
      obtain ⟨g, hg, hall⟩ := read_number (hpath opens_listen) Listen.opens_port.ofSome
        (fun t ht => (read_optional ht).trans (read_map_number rfl some)) houter hf hd
      refine ⟨g, fun m hm => ?_, hall⟩
      obtain ⟨l, hl, hport⟩ := Option.bind_eq_some_iff.1 (hg m)
      have hl : (g m).properties.listen = some l := hl
      rw [get?, hl, Option.bind_some, Option.some.inj hport]
      exact congrArg some (UInt16.toNat_ofNat_of_lt hm)
  | agentPort =>
      obtain ⟨g, hg, hall⟩ := read_number (hpath opens_bosh) Bosh.opens_agentPort.ofSome
        (fun t _ => rfl) houter hf hd
      refine ⟨g, fun m hm => ?_, hall⟩
      obtain ⟨b, hb, hport⟩ := Option.bind_eq_some_iff.1 (hg m)
      have hb : (g m).properties.bosh = some b := hb
      rw [get?, hb, Option.map_some, Option.some.inj hport]
      exact congrArg some (UInt16.toNat_ofNat_of_lt hm)
  | concurrentCaptures =>
      obtain ⟨g, hg, hall⟩ := read_number PropertyFile.opens_properties.reaches_last
        opens_concurrentCaptures
        (fun t ht => (read_optional ht).trans (read_map_number rfl some)) houter hf hd
      refine ⟨g, fun m hm => ?_, hall⟩
      have hcaptures : (g m).properties.concurrentCaptures = some (UInt32.ofNat m) :=
        Option.some.inj (hg m)
      rw [get?, hcaptures]
      exact congrArg some (UInt32.toNat_ofNat_of_lt hm)
  | size =>
      obtain ⟨g, hg, hall⟩ := read_number (hpath opens_buffer) Buffer.opens_size.ofSome
        (fun t _ => rfl) houter hf hd
      exact ⟨g, fun m hm => map_toNat (hg m) hm, hall⟩
  | upperLimit =>
      obtain ⟨g, hg, hall⟩ := read_number (hpath opens_buffer) Buffer.opens_upperLimit.ofSome
        (fun t _ => rfl) houter hf hd
      exact ⟨g, fun m hm => map_toNat (hg m) hm, hall⟩
  | lowerLimit =>
      obtain ⟨g, hg, hall⟩ := read_number (hpath opens_buffer) Buffer.opens_lowerLimit.ofSome
        (fun t _ => rfl) houter hf hd
      exact ⟨g, fun m hm => map_toNat (hg m) hm, hall⟩

end

/-! ### The document -/

/-- **A quantity of the properties is one of the configuration.** -/
theorem carried_of_resolve {q : Quantity} {p : Properties} {i : Instance} {root : Path} {o : Outcome}
    (h : (p.resolve i root).result = .ok o) {m : Nat} (hm : q.get? p = some m) :
    q.configured? o.config = some m := by
  obtain ⟨c, id, hj, -, hc, -⟩ := resolve_eq_ok_iff.1 h
  obtain ⟨list, _, tls, bosh, _, -, -, -, hbosh, -, rfl, -⟩ := Defaulted.judge_eq_ok_iff.1 hj
  rw [hc]
  cases q with
  | port =>
      obtain ⟨port, hport, rfl⟩ := Option.map_eq_some_iff.1 hm
      show some ((p.listen.bind Listen.port).getD defaultPort).toNat = _
      rw [hport]
      rfl
  | agentPort =>
      obtain ⟨b, hb, rfl⟩ := Option.map_eq_some_iff.1 hm
      have hnarrows : Option.Rel Bosh.Narrows p.bosh bosh := Defaulted.narrows_of_director hbosh
      rw [hb] at hnarrows
      cases hnarrows with
      | some hnarrows => exact congrArg (fun port => some port.toNat) hnarrows.agentPort
  | _ => exact hm

end Quantity

/-! ### Looking into values -/

/-- What a value has under keys, the outermost first. -/
def Value.at? : List String → Value → Option Value
  | [], v => some v
  | k :: keys, .map entries =>
      (entries.find? fun e => Value.same (.text k) e.1).bind fun e => at? keys e.2
  | _ :: _, _ => none

/-- What a mapping of fields has under a key is found among the fields that there are. -/
theorem Value.find?_record (fields : List (String × Option Value)) (k : String) :
    ((fields.filterMap fun f => f.2.map fun v => (Value.text f.1, v)).find?
      fun e => Value.same (.text k) e.1).map Prod.snd = (present fields).lookup k := by
  induction fields with
  | nil => rfl
  | cons f rest ih =>
      obtain ⟨l, v?⟩ := f
      cases v? with
      | none => exact ih
      | some v =>
          have hsame : Value.same (.text k) (.text l) = (k == l) := by rw [same]
          rw [present_cons_some, List.lookup_cons]
          show Option.map _ (List.find? _ ((Value.text l, v) :: List.filterMap _ rest)) = _
          rw [List.find?_cons, hsame]
          cases k == l with
          | true => rfl
          | false => exact ih

/-- What a record has under a key is what is in its field. -/
theorem Value.at?_record {fields : List (String × Option Value)} {k : String} {v? : Option Value}
    (hnodup : (fields.map Prod.fst).Nodup) (h : (k, v?) ∈ fields) (keys : List String) :
    (Value.record fields).at? (k :: keys) = v?.bind (at? keys) := by
  have hfound := find?_record fields k
  rw [lookup_present k hnodup, lookup_of_mem hnodup h, Option.join_some] at hfound
  rw [record, at?, ← hfound]
  cases List.find? _ _ <;> rfl

/-- What a block has under keys, if it is there. -/
theorem Value.at?_block {α : Type} {value : α → Value} {m : α → Nat} {keys : List String}
    (h : ∀ b, (value b).at? keys = some (.int (m b))) (block : Option α) :
    (block.map value).bind (at? keys) = (block.map m).map fun n => .int n := by
  cases block with
  | none => rfl
  | some b => exact h b

namespace Quantity

/-- **A document has a quantity under its keys.** -/
theorem at?_value (q : Quantity) (c : Config) :
    c.value.at? q.documentKeys = (q.configured? c).map fun m => .int m := by
  have hbuffer (keys : List String) : c.value.at? ("buffer" :: keys) = _ :=
    Value.at?_record (by simp) (.tail _ (.tail _ (.tail _ (.head _)))) keys
  have hlisten (keys : List String) : c.value.at? ("listen" :: keys) = _ :=
    Value.at?_record (by simp) (.tail _ (.tail _ (.tail _ (.tail _ (.head _))))) keys
  have hbosh (keys : List String) : c.value.at? ("bosh" :: keys) = _ :=
    Value.at?_record (by simp) (.tail _ (.tail _ (.tail _ (.tail _ (.tail _ (.head _)))))) keys
  cases q with
  | port =>
      rw [documentKeys, hlisten, Option.bind_some]
      exact Value.at?_record (by simp) (.head _) []
  | agentPort =>
      rw [documentKeys, hbosh]
      exact Value.at?_block (fun b => Value.at?_record (by simp) (.head _) []) c.bosh
  | concurrentCaptures =>
      rw [documentKeys, configured?]
      have hcaptures : c.value.at? ["concurrent_captures"] = _ :=
        Value.at?_record (by simp) (.tail _ (.tail _ (.head _))) []
      rw [hcaptures]
      cases c.concurrentCaptures <;> rfl
  | size =>
      rw [documentKeys, hbuffer]
      exact Value.at?_block (fun b => Value.at?_record (by simp) (.head _) []) c.buffer
  | upperLimit =>
      rw [documentKeys, hbuffer]
      exact Value.at?_block (fun b => Value.at?_record (by simp) (.tail _ (.head _)) []) c.buffer
  | lowerLimit =>
      rw [documentKeys, hbuffer]
      exact Value.at?_block (fun b => Value.at?_record (by simp) (.tail _ (.tail _ (.head _))) [])
        c.buffer

/-! ### Property files -/

open Properties

/-- **A text is a property file with the digits of a number at a quantity.**  Its data around the
digits are in order: with some datum there they are those of a property file. -/
inductive Stands (q : Quantity) (n : Int) : Format → String → Prop
  /-- Both texts are spelled in any way that strict notation allows. -/
  | json {outer : List (Frame Json.Atom)} {f : Frame Json.Atom} {d : Tree Json.Atom}
      {v v' : Json.Wide} {file : PropertyFile} {s s' : String}
      (around : Frame.AreAlong q.path outer) (here : f.IsOf q.names q.name)
      (others : v'.tree = Frame.fillAll outer (f.fill d)) (spelled' : v'.IsSpelledBy s')
      (valid : PropertyFile.ofText .json s' = .ok file)
      (digits : v.tree = Frame.fillAll outer (f.fill (Json.digitsTree n)))
      (spelled : v.IsSpelledBy s) : Stands q n .json s
  | yaml {outer : List (Frame Yaml.Atom)} {f : Frame Yaml.Atom} {d : Tree Yaml.Atom}
      {file : PropertyFile} {s : String} (around : Frame.AreAlong q.path outer)
      (here : f.IsOf q.names q.name)
      (valid : Reading.file.read (Frame.fillAll outer (f.fill d)) = .ok file)
      (document : Yaml.document (Reading.file : Reader Yaml.Atom PropertyFile).uses s =
        ⟨Frame.fillAll outer (f.fill (Yaml.digitsTree n)), true⟩) : Stands q n .yaml s

/-- What is read of a text with digits is told by a reader of numbers. -/
theorem Stands.exists_ofText_eq {q : Quantity} {n : Int} {format : Format} {s : String}
    (h : q.Stands n format s) :
    ∃ (g : Nat → PropertyFile) (r : Except Fault Nat),
      (∀ m < q.bound, q.get? (g m).properties = some m) ∧
      (∀ m, r = .ok m ↔ (m : Int) = n ∧ m < q.bound) ∧ PropertyFile.ofText format s = r.map g := by
  cases h with
  | json around here others spelled' valid digits spelled =>
      -- What is nested too deep is cut off in both texts alike.
      have hlimit : Json.IsLimit (Json.deepest - q.path.length - 1 + q.path.length + 1)
          (Json.limit Json.deepest (Reading.file : Reader Json.Atom PropertyFile).uses) := by
        have hdeepest : Json.deepest - q.path.length - 1 + q.path.length + 1 = Json.deepest := by
          cases q <;> rfl
        rw [hdeepest]
        exact .limited _
      obtain ⟨outer', f', cut, around', here', hcut, hfill⟩ := hlimit.exists_fillAll here around
      replace valid : Reader.document _ _ = _ := valid
      rw [Json.Wide.document_of_isSpelledBy spelled', Reader.document_sound, others, hfill] at valid
      obtain ⟨g, hg, hall⟩ := q.read_fill around' here' valid
      have htaken := Json.isTakenFor_ofInt n
      refine ⟨g, _, hg, fun m => htaken.read q.bound_le q.expected m, ?_⟩
      show Reader.document _ _ = _
      rw [Json.Wide.document_of_isSpelledBy spelled, Reader.document_sound, digits, hfill,
        Json.digitsTree, hcut.literal, ← Json.digitsTree, hall _ htaken.isNull]
  | yaml around here valid document =>
      obtain ⟨g, hg, hall⟩ := q.read_fill around here valid
      have htaken := Yaml.isTakenFor_ofInt n
      refine ⟨g, _, hg, fun m => htaken.read q.bound_le q.expected m, ?_⟩
      show Reader.document _ _ = _
      rw [document, Reader.document_sound, hall _ htaken.isNull]

/-! ### Texts with digits at a quantity -/

/-- The keys under which a property file has a quantity, the outermost first. -/
def keys (q : Quantity) : List String := q.path.map Prod.snd ++ [q.name]

section

variable {q : Quantity} {m n : Int} {file : PropertyFile}

/-- **Every text of strict notation stands**: where a property file has one number at a quantity, any
other may stand there, in any spelling. -/
theorem stands_strict {v w : Json} (hw : Json.DiffersAt m n q.keys v w) {s s' : String}
    (hs' : v.IsSpelledBy s') (valid : PropertyFile.ofText .json s' = .ok file)
    (hs : w.IsSpelledBy s) : q.Stands n .json s := by
  obtain ⟨outer, f, houter, hf, hothers, hdigits⟩ :=
    hw.exists_frames (fun v => v.toWide.tree) Json.tree_toWide_object Json.lawful_strict.text?
  exact .json houter hf hothers (Json.isSpelledBy_iff.1 hs') valid hdigits
    (Json.isSpelledBy_iff.1 hs)

/-- Two texts of block notation that are read as trees of values which differ at a quantity. -/
theorem stands_of_document {sp : Json.Spelling Yaml.Atom} (hsp : sp.Lawful)
    (hobject : ∀ entries, sp.object entries = .none)
    (hnumber : ∀ n, sp.number n = ⟨Digits.ofInt n, .plainly, .none⟩) {v w : Json}
    (hw : Json.DiffersAt m n q.keys v w) {s s' : String}
    (hs' : Yaml.document (Reading.file : Reader Yaml.Atom PropertyFile).uses s' =
      ⟨Json.treeIn sp v, true⟩) (valid : PropertyFile.ofText .yaml s' = .ok file)
    (hs : Yaml.document (Reading.file : Reader Yaml.Atom PropertyFile).uses s =
      ⟨Json.treeIn sp w, true⟩) : q.Stands n .yaml s := by
  obtain ⟨outer, f, houter, hf, hothers, hdigits⟩ :=
    hw.exists_frames (Json.treeIn sp) (fun _ => Json.treeIn_object (hobject _)) hsp.text?
  replace valid : Reader.document _ _ = _ := valid
  rw [hs', Reader.document_sound, hothers] at valid
  refine .yaml houter hf valid ?_
  rw [hs, hdigits, Json.treeIn, hnumber, Yaml.digitsTree]

/-- **Every printed text of strict notation stands as one of block notation**, if the texts in it
consist of printable characters of ASCII, the keys are short, and the reader uses all of it. -/
theorem stands_printed {v w : Json} (hw : Json.DiffersAt m n q.keys v w)
    (hshort : v.Holds Yaml.IsAscii Yaml.IsShort) (hdepth : v.depth ≤ Yaml.Node.deepest)
    (hused : v.IsUsed (Reading.file : Reader Yaml.Atom PropertyFile).uses)
    (valid : PropertyFile.ofText .yaml v.print = .ok file) : q.Stands n .yaml w.print := by
  obtain ⟨entries, entries', rfl, rfl⟩ := hw.exists_entries (by simp [keys])
  exact stands_of_document Yaml.lawful_strictSpelling (fun _ => rfl) (fun _ => rfl) hw
    (Yaml.document_printed hshort hdepth hused) valid
    (Yaml.document_printed (hw.holds hshort) (hw.depth_le hdepth) (hw.isUsed hused))

/-- **Every text of nested blocks stands**, if the keys are short and the reader uses all of it. -/
theorem stands_block {before after : List (String × Doc)}
    (hw : Json.DiffersAt m n q.keys (Doc.block before).toJson (Doc.block after).toJson)
    (hbefore : Yaml.IsKeyed (.block before)) (hafter : Yaml.IsKeyed (.block after))
    (hdepth : (Doc.block before).toJson.depth ≤ Yaml.Node.deepest)
    (hused : (Doc.block before).toJson.IsUsed (Reading.file : Reader Yaml.Atom PropertyFile).uses)
    (valid : PropertyFile.ofText .yaml (Yaml.print (.block before)) = .ok file) :
    q.Stands n .yaml (Yaml.print (.block after)) :=
  stands_of_document Yaml.lawful_blockSpelling (fun _ => rfl) (fun _ => rfl) hw
    (Yaml.document_block hbefore hdepth hused) valid
    (Yaml.document_block hafter (hw.depth_le hdepth) (hw.isUsed hused))

/-- **Wherever a property file is written with a number at a quantity, any other may stand there**, in
strict notation in any spelling, and in block notation as it is printed. -/
theorem stands_of_isWritten {v w : Json} (hfile : file.properties.IsPlain) (hv : file.IsWritten v)
    (hw : Json.DiffersAt m n q.keys v w) :
    (∀ s, w.IsSpelledBy s → q.Stands n .json s) ∧
      (v.Holds Yaml.IsAscii Yaml.IsShort → q.Stands n .yaml w.print) := by
  have hprinted := Json.isSpelledBy_print v
  refine ⟨fun s => stands_strict hw hprinted (PropertyFile.ofText_json hfile ⟨v, hv, hprinted⟩),
    fun hshort => stands_printed hw hshort ?_ (PropertyFile.isUsed_of_isWritten hfile hv)
      (PropertyFile.ofText_yaml_print hfile hv hshort)⟩
  exact Nat.le_trans (PropertyFile.isSound_of_isWritten hfile hv).depth_le (by decide)

end

/-- **A number is refused, or arrives as it is written**: a property file with digits at a quantity is
read exactly if their number is within the bounds of the quantity, and if a configuration can be made
of it, both documents have that number under the keys of the quantity. -/
theorem heeded_of_stands {q : Quantity} {n : Int} {format : Format} {s : String}
    (h : q.Stands n format s) :
    ((∃ file, PropertyFile.ofText format s = .ok file) ↔ 0 ≤ n ∧ n < (q.bound : Int)) ∧
    ∀ file, PropertyFile.ofText format s = .ok file → ∀ instanceId root o,
      (file.resolve instanceId root).result = .ok o →
        (∀ form t, o.config.text form = .ok t →
          ∃ v, form.value t = .ok v ∧ v.at? q.documentKeys = some (.int n)) ∧
        (root.IsText → ∀ form, ∃ t, o.config.text form = .ok t) := by
  obtain ⟨g, r, hg, hr, htext⟩ := h.exists_ofText_eq
  refine ⟨⟨fun ⟨file, hfile⟩ => ?_, fun ⟨hlow, hhigh⟩ => ?_⟩, fun file hfile instanceId root o ho => ?_⟩
  · obtain ⟨m, hm, -⟩ := map_eq_ok_iff.1 (htext.symm.trans hfile)
    obtain ⟨rfl, hlt⟩ := (hr m).1 hm
    exact ⟨Int.natCast_nonneg m, Int.ofNat_lt.2 hlt⟩
  · obtain ⟨m, rfl⟩ := Int.eq_ofNat_of_zero_le hlow
    refine ⟨g m, ?_⟩
    rw [htext, (hr m).2 ⟨rfl, Int.ofNat_lt.1 hhigh⟩]
    rfl
  · obtain ⟨m, hm, rfl⟩ := map_eq_ok_iff.1 (htext.symm.trans hfile)
    obtain ⟨rfl, hlt⟩ := (hr m).1 hm
    have hcarried := carried_of_resolve ho (hg m hlt)
    refine ⟨fun form t ht => ⟨o.config.value, ?_, ?_⟩, fun hroot form => ?_⟩
    · obtain hprinted | herror := o.config.text_cases form
      · obtain rfl := Except.ok.inj (hprinted.symm.trans ht)
        exact Config.value_print o.config form
      · cases herror.symm.trans ht
    · rw [at?_value, hcarried]
      rfl
    · exact ⟨_, Config.text_eq_ok (isText_of_resolve ho hroot) form⟩

/-! ### Non-vacuity -/

namespace Ported

open Json

/-- A property file with the greatest port. -/
def file : PropertyFile where
  properties := { Properties.empty with listen := some ⟨some 65535, none⟩ }
  instanceData := ⟨none⟩

/-- Nested objects with a port. -/
def written (n : Int) : Json :=
  .object [("pcap-api", .object [("listen", .object [("port", .number n)])])]

/-- The same in nested blocks. -/
def blocks (n : Nat) : List (String × Doc) :=
  [("pcap-api", .block [("listen", .block [("port", .number n)])])]

/-- How the blocks are written. -/
def text (n : Nat) : String := "pcap-api:\n  listen:\n    port: " ++ Digits.text n ++ "\n"

theorem isKey_keys :
    Yaml.IsKey "pcap-api".toList ∧ Yaml.IsKey "listen".toList ∧ Yaml.IsKey "port".toList := by
  decide +kernel

theorem print_blocks (n : Nat) : Yaml.print (.block (blocks n)) = text n := by
  obtain ⟨hfile, hlisten, hport⟩ := isKey_keys
  have htext : (text n).toList = _ := Digits.toList_append_text _ _ n
  have hfront : "pcap-api:\n  listen:\n    port: ".toList =
      Yaml.indentChars 0 ++ "pcap-api".toList ++ ':' :: '\n' :: (Yaml.indentChars 2 ++
        "listen".toList ++ ':' :: '\n' :: (Yaml.indentChars 4 ++ "port".toList ++ [':', ' '])) := by
    decide
  refine String.toList_injective ?_
  show (String.ofList (Yaml.entryChars 0 (blocks n))).toList = _
  rw [htext, hfront, String.toList_ofList, blocks, Yaml.entryChars_of_isKey hfile, Yaml.valueChars,
    Yaml.entryChars_of_isKey hlisten, Yaml.valueChars, Yaml.entryChars_of_isKey hport,
    Yaml.valueChars]
  simp

theorem isKeyed_blocks (n : Nat) : Yaml.IsKeyed (.block (blocks n)) := by
  obtain ⟨hfile, hlisten, hport⟩ := isKey_keys
  have hinner : Yaml.IsKeyed (.block [("port", .number n)]) :=
    ⟨by simp, hport, trivial, trivial⟩
  have houter : Yaml.IsKeyed (.block [("listen", .block [("port", .number n)])]) :=
    ⟨by simp, hlisten, hinner, trivial⟩
  exact ⟨by simp [blocks], hfile, houter, trivial⟩

theorem fits_written : (written 65535).Fits :=
  ⟨⟨⟨⟨by decide, by decide⟩, trivial⟩, trivial⟩, trivial⟩

theorem holds_written : (written 65535).Holds Yaml.IsAscii Yaml.IsShort := by
  simp only [written, Holds, EntriesHold]
  decide

theorem isUsed_written :
    (written 65535).IsUsed (Reading.file : Reader Yaml.Atom PropertyFile).uses :=
  ⟨rfl, ⟨rfl, ⟨rfl, rfl, trivial⟩, trivial⟩, trivial⟩

theorem ofText_written : PropertyFile.ofText .json (written 65535).print = .ok file := by
  show Reader.document _ _ = _
  rw [document_eq_treeIn (isSpelledBy_print _) fits_written (by decide), Reader.document_sound]
  rfl

theorem ofNat_port : Digits.ofNat 65535 = "65535".toList := by
  rw [Digits.ofNat]
  simp [Digits.inBase]
  decide

theorem ofNat_next : Digits.ofNat 65536 = "65536".toList := by
  rw [Digits.ofNat]
  simp [Digits.inBase]
  decide

theorem ofText_yaml_written : PropertyFile.ofText .yaml (written 65535).print = .ok file := by
  have hport : Digits.ofInt 65535 = "65535".toList := ofNat_port
  show Reader.document _ _ = _
  rw [written, Yaml.document_printed holds_written (by decide) isUsed_written,
    Reader.document_sound]
  simp only [treeIn, entryTreesIn, Yaml.strictSpelling, hport]
  rfl

theorem ofText_text : PropertyFile.ofText .yaml (text 65535) = .ok file := by
  obtain ⟨hfile, hlisten, hport⟩ := isKey_keys
  have hdigits : Digits.ofInt (65535 : Nat) = "65535".toList := ofNat_port
  show Reader.document _ _ = _
  rw [← print_blocks, Yaml.document_block (isKeyed_blocks _) (by decide) isUsed_written,
    Reader.document_sound]
  simp only [blocks, Doc.toJson, Doc.entriesToJson, treeIn, entryTreesIn, Yaml.blockSpelling,
    Yaml.strictSpelling, hfile.1, hlisten.1, hport.1, hdigits]
  rfl

theorem text_eq {n : Nat} {digits s : String} (h : Digits.ofNat n = digits.toList)
    (hs : "pcap-api:\n  listen:\n    port: " ++ digits ++ "\n" = s) : text n = s := by
  have hdigits : Digits.text n = digits := by
    rw [Digits.text, h, String.ofList_toList]
  rw [← hs, ← hdigits]
  rfl

theorem text_port : text 65535 = "pcap-api:\n  listen:\n    port: 65535\n" :=
  text_eq ofNat_port rfl

theorem text_next : text 65536 = "pcap-api:\n  listen:\n    port: 65536\n" :=
  text_eq ofNat_next rfl

theorem differsAt (n : Int) : DiffersAt 65535 n port.keys (written 65535) (written n) :=
  .under [] [] (.under [] [] (.under [] [] .here))

theorem stands_json (n : Int) {s : String} (hs : (written n).IsSpelledBy s) :
    port.Stands n .json s :=
  stands_strict (differsAt n) (isSpelledBy_print _) ofText_written hs

theorem stands_yaml (n : Int) : port.Stands n .yaml (written n).print :=
  stands_printed (differsAt n) holds_written (by decide) isUsed_written ofText_yaml_written

theorem stands_text (n : Nat) : port.Stands n .yaml (text n) :=
  print_blocks n ▸ stands_block (differsAt n) (isKeyed_blocks _) (isKeyed_blocks _) (by decide)
    isUsed_written (print_blocks _ ▸ ofText_text)

/-- The configuration that is made of it. -/
def outcome : Outcome where
  config :=
    { id := "pcap-api/f9281cda-1234-bbcd-ef12-1337cafe0048", logLevel := "info",
      concurrentCaptures := none, buffer := none, port := 65535, tls := none, bosh := none,
      enableIpRestriction := false, cidrAllowlist := none }
  materials := ⟨[]⟩
  report := ⟨[]⟩

theorem resolve_file :
    (file.resolve (some "f9281cda-1234-bbcd-ef12-1337cafe0048") (.ofString "r")).result =
      .ok outcome := rfl

end Ported

open Ported in
theorem heeded_ported :
    (∃ file, PropertyFile.ofText .json (written 65535).print = .ok file) ∧
      (∀ form, ∃ t v, outcome.config.text form = .ok t ∧ form.value t = .ok v ∧
        v.at? ["listen", "port"] = some (.int 65535)) ∧
      (∃ file, PropertyFile.ofText .yaml "pcap-api:\n  listen:\n    port: 65535\n" = .ok file) ∧
      (¬ ∃ file, PropertyFile.ofText .yaml "pcap-api:\n  listen:\n    port: 65536\n" = .ok file) ∧
      (∀ n s, (written n).IsSpelledBy s →
        ((∃ file, PropertyFile.ofText .json s = .ok file) ↔ 0 ≤ n ∧ n < 65536)) ∧
      (∀ n, (∃ file, PropertyFile.ofText .yaml (written n).print = .ok file) ↔
        0 ≤ n ∧ n < 65536) ∧
      ∀ n, (∃ file, PropertyFile.ofText .yaml (text n) = .ok file) ↔ n < 65536 := by
  have htext (n : Nat) : (∃ file, PropertyFile.ofText .yaml (text n) = .ok file) ↔ n < 65536 := by
    refine (heeded_of_stands (stands_text n)).1.trans ?_
    show 0 ≤ (n : Int) ∧ (n : Int) < 65536 ↔ n < 65536
    omega
  refine ⟨⟨_, ofText_written⟩, fun form => ?_, ?_, ?_,
    fun n s hs => (heeded_of_stands (stands_json n hs)).1,
    fun n => (heeded_of_stands (stands_yaml n)).1, htext⟩
  · obtain ⟨hvalue, htext⟩ := (heeded_of_stands (stands_json 65535 (Json.isSpelledBy_print _))).2 file
      ofText_written _ _ outcome resolve_file
    obtain ⟨t, ht⟩ := htext ⟨"r", rfl⟩ form
    obtain ⟨v, hv, hat⟩ := hvalue form t ht
    exact ⟨t, v, ht, hv, hat⟩
  · rw [← text_port, htext]
    decide
  · rw [← text_next, htext]
    decide

end Quantity

end CaptureConfig

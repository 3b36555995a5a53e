/-
**Places in a property file.**

A property file is a record of records.  For each field it is known what a property file with another
datum there is: the reader of the field says what the field becomes, and everything else stays as it
was.

Main definitions:

* `Part` — a part of a structure: how it is found and how it is changed;
* `PropertyFile.names`, `Buffer.names`, … — the keys of each record.

Main results:

* `PropertyFile.opens_properties`, `Properties.opens_listen`, … — one for each field on the way to a
  number or a switch.
-/

import CaptureConfig.Proofs.Document.Frame
import CaptureConfig.Proofs.Property.Written

set_option relaxedAutoImplicit false
set_option autoImplicit false

namespace CaptureConfig

/-! ### Parts of structures -/

/-- **A part of a structure**, which may be missing: how it is found, and how it is changed. -/
structure Part (α β : Type) where
  get? : α → Option β
  modify : (β → β) → α → α

namespace Part

variable {α β γ : Type}

/-- The structure with another part in its place. -/
def put (p : Part α β) (b : β) (a : α) : α := p.modify (fun _ => b) a

/-- A part of a part. -/
def comp (p : Part α β) (q : Part β γ) : Part α γ where
  get? a := (p.get? a).bind q.get?
  modify φ := p.modify (q.modify φ)

/-- What may be missing. -/
def some : Part (Option α) α where
  get? := id
  modify := Option.map

/-- The part of what may be missing. -/
def ofSome (p : Part α β) : Part (Option α) β := some.comp p

/-- **A function makes the structure of its part**, and nothing else depends on that part. -/
structure IsMadeBy (p : Part α β) (g : β → α) : Prop where
  get? : ∀ b, p.get? (g b) = .some b
  modify : ∀ φ b, p.modify φ (g b) = g (φ b)

theorem IsMadeBy.put {p : Part α β} {g : β → α} (h : p.IsMadeBy g) (b b' : β) :
    p.put b (g b') = g b := h.modify _ b'

theorem IsMadeBy.comp {p : Part α β} {q : Part β γ} {g : β → α} {g' : γ → β} (h : p.IsMadeBy g)
    (h' : q.IsMadeBy g') : (p.comp q).IsMadeBy (g ∘ g') where
  get? c := by
    show (p.get? (g (g' c))).bind q.get? = _
    rw [h.get?]
    exact h'.get? c
  modify φ c := by
    show p.modify (q.modify φ) (g (g' c)) = _
    rw [h.modify, h'.modify]
    rfl

theorem IsMadeBy.ofSome {p : Part α β} {g : β → α} (h : p.IsMadeBy g) :
    p.ofSome.IsMadeBy (Option.some ∘ g) where
  get? b := h.get? b
  modify φ b := congrArg Option.some (h.modify φ b)

end Part

namespace Reader

variable {σ α β γ : Type} [Scalar σ] {R : Reader σ α} {r : Reader σ β} {r' : Reader σ γ}
  {names : List String} {name : String} {path : List (List String × String)}

theorem Opens.ofSome {p : Part α β} (h : R.Opens names name r p.IsMadeBy) :
    (Reader.optional R).Opens names name r p.ofSome.IsMadeBy := by
  intro f hf d a hd
  obtain ⟨_, ⟨g, hg, rfl⟩, hall⟩ := h.optional f hf d a hd
  exact ⟨_, hg.ofSome, hall⟩

theorem Opens.reaches_comp {p : Part α β} {q : Part β γ} (h : R.Opens names name r p.IsMadeBy)
    (h' : r.Reaches path r' q.IsMadeBy) :
    R.Reaches ((names, name) :: path) r' (p.comp q).IsMadeBy := by
  refine (h.reaches h').mono ?_
  rintro _ ⟨g, g', hg, hg', rfl⟩
  exact hg.comp hg'

/-- A field at the end of a path. -/
theorem Opens.reaches_last {p : Part α β} (h : R.Opens names name r p.IsMadeBy) :
    R.Reaches [(names, name)] r p.IsMadeBy := by
  refine (h.reaches (reaches_self r)).mono ?_
  rintro _ ⟨g, _, hg, rfl, rfl⟩
  exact hg

/-- **What is read with a datum at the end of a path, or without one**: the reader of the field says
what the part becomes, and everything else is as it was. -/
theorem Reaches.put {p : Part α β} {q : Part β γ} (h : R.Reaches path r p.IsMadeBy)
    (h' : r.Opens names name r' q.IsMadeBy) {outer : List (Frame σ)} {f : Frame σ}
    (houter : Frame.AreAlong path outer) (hf : f.IsOf names name) {d : Tree σ} {a : α}
    (hd : R.read (Frame.fillAll outer (f.fill d)) = .ok a) :
    ∃ g c, (p.comp q).IsMadeBy g ∧ a = g c ∧ ∀ t?, (t? = none → f.isKeyed = true) →
      R.read (Frame.fillAll outer (f.put t?)) = (Layout.readField name r' t?).map g := by
  obtain ⟨g, hg, hall⟩ := h outer houter _ a hd
  obtain ⟨b, hb, rfl⟩ := map_eq_ok_iff.1 ((hall _).symm.trans hd)
  obtain ⟨g', hg', hall', hbare⟩ := h' f hf d b hb
  obtain ⟨c, -, rfl⟩ := map_eq_ok_iff.1 ((hall' d).symm.trans hb)
  refine ⟨g ∘ g', c, hg.comp hg', rfl, fun t? hkeyed => ?_⟩
  have hinner : r.read (f.put t?) = (Layout.readField name r' t?).map g' := by
    cases t? with
    | none => exact hbare (hkeyed rfl)
    | some t => exact hall' t
  rw [hall, hinner]
  cases Layout.readField name r' t? <;> rfl

end Reader

/-! ### Keys -/

/-- The keys of a property file. -/
def PropertyFile.names : List String := ["pcap-api", "spec"]

/-- The keys of an instance. -/
def Instance.names : List String := ["id"]

/-- The keys of the buffer's limits. -/
def Buffer.names : List String := ["size", "upper_limit", "lower_limit"]

/-- The keys of the listener. -/
def Properties.Listen.names : List String := ["port", "tls"]

/-- The keys of the contents for the encrypted listener. -/
def Properties.Tls.names : List String := ["enabled", "certificate", "private_key", "ca"]

/-- The keys of the director. -/
def Properties.Bosh.names : List String := ["agent_port", "director_url", "token_scope", "mtls"]

/-- The keys about proving oneself to the director. -/
def Properties.Mtls.names : List String := ["common_name", "skip_verify"]

/-! ### Fields -/

section

open Layout Reader

variable {σ : Type} [Scalar σ]

namespace PropertyFile

/-- The properties in a property file. -/
def propertiesPart : Part PropertyFile Properties where
  get? f := some f.properties
  modify φ f := { f with properties := φ f.properties }

theorem opens_properties : (Properties.Reading.file : Reader σ PropertyFile).Opens names "pcap-api"
    { Properties.Reading.properties with absent := some .empty } propertiesPart.IsMadeBy := by
  refine Layout.Opens.record (.seq (.firstOr _ ?made) ?_) rfl rfl _ rfl (by decide)
  case made => exact fun _ => ⟨fun _ => rfl, fun _ _ => rfl⟩
  all_goals apply_rules [Ignores.map, Ignores.seq, ignores_others, ignores_fieldOr, ignores_field]
  all_goals decide

end PropertyFile

namespace Properties

/-- The greatest number of captures in the properties. -/
def concurrentCapturesPart : Part Properties (Option UInt32) where
  get? p := some p.concurrentCaptures
  modify φ p := { p with concurrentCaptures := φ p.concurrentCaptures }

/-- The limits of the buffer in the properties. -/
def bufferPart : Part Properties (Option Buffer) where
  get? p := some p.buffer
  modify φ p := { p with buffer := φ p.buffer }

/-- The listener in the properties. -/
def listenPart : Part Properties (Option Listen) where
  get? p := some p.listen
  modify φ p := { p with listen := φ p.listen }

/-- The director in the properties. -/
def boshPart : Part Properties (Option Bosh) where
  get? p := some p.bosh
  modify φ p := { p with bosh := φ p.bosh }

/-- The switch for the allowlist in the properties. -/
def enableIpRestrictionPart : Part Properties (Option Bool) where
  get? p := some p.enableIpRestriction
  modify φ p := { p with enableIpRestriction := φ p.enableIpRestriction }

theorem opens_concurrentCaptures : (Reading.properties : Reader σ Properties).Opens names
    "concurrent_captures" (optional u32) concurrentCapturesPart.IsMadeBy := by
  refine Layout.Opens.record (.seq (.seq (.seq (.seq (.seq (.seq
    (.field ?_ (.seq (.map (yields_any _) ?made)))
    ?_) ?_) ?_) ?_) ?_) ?_) rfl rfl _ rfl (by decide)
  case made => exact fun _ _ _ _ _ _ _ _ _ => ⟨fun _ => rfl, fun _ _ => rfl⟩
  all_goals apply_rules [Ignores.map, Ignores.seq, ignores_others, ignores_fieldOr, ignores_field]
  all_goals decide

theorem opens_buffer : (Reading.properties : Reader σ Properties).Opens names "buffer"
    (optional Reading.buffer) bufferPart.IsMadeBy := by
  refine Layout.Opens.record (.seq (.seq (.seq (.seq (.seq
    (.field ?_ (.seq (.seq (.map (yields_any _) ?made))))
    ?_) ?_) ?_) ?_) ?_) rfl rfl _ rfl (by decide)
  case made => exact fun _ _ _ _ _ _ _ _ _ => ⟨fun _ => rfl, fun _ _ => rfl⟩
  all_goals apply_rules [Ignores.map, Ignores.seq, ignores_others, ignores_fieldOr, ignores_field]
  all_goals decide

theorem opens_listen : (Reading.properties : Reader σ Properties).Opens names "listen"
    (optional Reading.listen) listenPart.IsMadeBy := by
  refine Layout.Opens.record (.seq (.seq (.seq (.seq
    (.field ?_ (.seq (.seq (.seq (.map (yields_any _) ?made)))))
    ?_) ?_) ?_) ?_) rfl rfl _ rfl (by decide)
  case made => exact fun _ _ _ _ _ _ _ _ _ => ⟨fun _ => rfl, fun _ _ => rfl⟩
  all_goals apply_rules [Ignores.map, Ignores.seq, ignores_others, ignores_fieldOr, ignores_field]
  all_goals decide

theorem opens_bosh : (Reading.properties : Reader σ Properties).Opens names "bosh"
    (optional Reading.bosh) boshPart.IsMadeBy := by
  refine Layout.Opens.record (.seq (.seq (.seq
    (.field ?_ (.seq (.seq (.seq (.seq (.map (yields_any _) ?made))))))
    ?_) ?_) ?_) rfl rfl _ rfl (by decide)
  case made => exact fun _ _ _ _ _ _ _ _ _ => ⟨fun _ => rfl, fun _ _ => rfl⟩
  all_goals apply_rules [Ignores.map, Ignores.seq, ignores_others, ignores_fieldOr, ignores_field]
  all_goals decide

theorem opens_enableIpRestriction : (Reading.properties : Reader σ Properties).Opens names
    "enable_ip_restriction" flag
    enableIpRestrictionPart.IsMadeBy := by
  refine Layout.Opens.record (.seq (.seq
    (.fieldOr _ ?_ (.seq (.seq (.seq (.seq (.seq (.map (yields_any _) ?made)))))))
    ?_) ?_) rfl rfl _ rfl (by decide)
  case made => exact fun _ _ _ _ _ _ _ _ _ => ⟨fun _ => rfl, fun _ _ => rfl⟩
  all_goals apply_rules [Ignores.map, Ignores.seq, ignores_others, ignores_fieldOr, ignores_field]
  all_goals decide

namespace Listen

/-- The port of a listener. -/
def portPart : Part Listen (Option UInt16) where
  get? l := some l.port
  modify φ l := { l with port := φ l.port }

/-- The contents for the encrypted listener. -/
def tlsPart : Part Listen (Option Tls) where
  get? l := some l.tls
  modify φ l := { l with tls := φ l.tls }

theorem opens_port : (Reading.listen : Reader σ Listen).Opens names "port" (optional u16)
    portPart.IsMadeBy := by
  refine Layout.Opens.record (.seq (.first ?made) ?_) rfl rfl _ rfl (by decide)
  case made => exact fun _ => ⟨fun _ => rfl, fun _ _ => rfl⟩
  all_goals apply_rules [Ignores.map, Ignores.seq, ignores_others, ignores_fieldOr, ignores_field]
  all_goals decide

theorem opens_tls : (Reading.listen : Reader σ Listen).Opens names "tls" (optional Reading.tls)
    tlsPart.IsMadeBy := by
  refine Layout.Opens.record (.field ?_ (.map (yields_any _) ?made)) rfl rfl _ rfl (by decide)
  case made => exact fun _ _ => ⟨fun _ => rfl, fun _ _ => rfl⟩
  all_goals apply_rules [Ignores.map, Ignores.seq, ignores_others, ignores_fieldOr, ignores_field]
  all_goals decide

end Listen

/-- The switch of the contents for the encrypted listener. -/
def Tls.enabledPart : Part Tls (Option Bool) where
  get? t := some t.enabled
  modify φ t := { t with enabled := φ t.enabled }

theorem Tls.opens_enabled : (Reading.tls : Reader σ Tls).Opens names "enabled"
    flag enabledPart.IsMadeBy := by
  refine Layout.Opens.record (.seq (.seq (.seq (.firstOr _ ?made) ?_) ?_) ?_) rfl rfl _ rfl (by decide)
  case made => exact fun _ _ _ => ⟨fun _ => rfl, fun _ _ => rfl⟩
  all_goals apply_rules [Ignores.map, Ignores.seq, ignores_others, ignores_fieldOr, ignores_field]
  all_goals decide

namespace Bosh

/-- The port of the agents. -/
def agentPortPart : Part Bosh UInt16 where
  get? b := some b.agentPort
  modify φ b := { b with agentPort := φ b.agentPort }

/-- What is said about proving oneself to the director. -/
def mtlsPart : Part Bosh (Option Mtls) where
  get? b := some b.mtls
  modify φ b := { b with mtls := φ b.mtls }

theorem opens_agentPort : (Reading.bosh : Reader σ Bosh).Opens names "agent_port" u16
    agentPortPart.IsMadeBy := by
  refine Layout.Opens.record (.seq (.seq (.seq (.first ?made) ?_) ?_) ?_) rfl rfl _ rfl (by decide)
  case made => exact fun _ _ _ => ⟨fun _ => rfl, fun _ _ => rfl⟩
  all_goals apply_rules [Ignores.map, Ignores.seq, ignores_others, ignores_fieldOr, ignores_field]
  all_goals decide

theorem opens_mtls : (Reading.bosh : Reader σ Bosh).Opens names "mtls" (optional Reading.mtls)
    mtlsPart.IsMadeBy := by
  refine Layout.Opens.record (.field ?_ (.seq (.seq (.map (yields_any _) ?made)))) rfl rfl _ rfl (by decide)
  case made => exact fun _ _ _ _ => ⟨fun _ => rfl, fun _ _ => rfl⟩
  all_goals apply_rules [Ignores.map, Ignores.seq, ignores_others, ignores_fieldOr, ignores_field]
  all_goals decide

end Bosh

/-- The switch for not looking at certificates. -/
def Mtls.skipVerifyPart : Part Mtls (Option Bool) where
  get? m := some m.skipVerify
  modify φ m := { m with skipVerify := φ m.skipVerify }

theorem Mtls.opens_skipVerify : (Reading.mtls : Reader σ Mtls).Opens names "skip_verify"
    flag skipVerifyPart.IsMadeBy := by
  refine Layout.Opens.record (.fieldOr _ ?_ (.map (yields_any _) ?made)) rfl rfl _ rfl (by decide)
  case made => exact fun _ _ => ⟨fun _ => rfl, fun _ _ => rfl⟩
  all_goals apply_rules [Ignores.map, Ignores.seq, ignores_others, ignores_fieldOr, ignores_field]
  all_goals decide

end Properties

namespace Buffer

open Properties

/-- The size of the buffer. -/
def sizePart : Part Buffer UInt64 where
  get? b := some b.size
  modify φ b := { b with size := φ b.size }

/-- The upper limit of the buffer. -/
def upperLimitPart : Part Buffer UInt64 where
  get? b := some b.upperLimit
  modify φ b := { b with upperLimit := φ b.upperLimit }

/-- The lower limit of the buffer. -/
def lowerLimitPart : Part Buffer UInt64 where
  get? b := some b.lowerLimit
  modify φ b := { b with lowerLimit := φ b.lowerLimit }

theorem opens_size : (Reading.buffer : Reader σ Buffer).Opens names "size" u64
    sizePart.IsMadeBy := by
  refine Layout.Opens.record (.seq (.seq (.first ?made) ?_) ?_) rfl rfl _ rfl (by decide)
  case made => exact fun _ _ => ⟨fun _ => rfl, fun _ _ => rfl⟩
  all_goals apply_rules [Ignores.map, Ignores.seq, ignores_others, ignores_fieldOr, ignores_field]
  all_goals decide

theorem opens_upperLimit : (Reading.buffer : Reader σ Buffer).Opens names "upper_limit" u64
    upperLimitPart.IsMadeBy := by
  refine Layout.Opens.record (.seq (.field ?_ (.map (yields_any _) ?made)) ?_) rfl rfl _ rfl (by decide)
  case made => exact fun _ _ _ => ⟨fun _ => rfl, fun _ _ => rfl⟩
  all_goals apply_rules [Ignores.map, Ignores.seq, ignores_others, ignores_fieldOr, ignores_field]
  all_goals decide

theorem opens_lowerLimit : (Reading.buffer : Reader σ Buffer).Opens names "lower_limit" u64
    lowerLimitPart.IsMadeBy := by
  refine Layout.Opens.record (.field ?_ (.seq (.map (yields_any _) ?made))) rfl rfl _ rfl (by decide)
  case made => exact fun _ _ _ => ⟨fun _ => rfl, fun _ _ => rfl⟩
  all_goals apply_rules [Ignores.map, Ignores.seq, ignores_others, ignores_fieldOr, ignores_field]
  all_goals decide

end Buffer

end

end CaptureConfig

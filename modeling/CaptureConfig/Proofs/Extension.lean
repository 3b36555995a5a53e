/-
**The name at the end of a path, and its extension.**

The name of a path is looked for among its components.  Told by the octets alone, the last part of a
path that says something stands between a front, which is empty or ends with a slash, and an end of
slashes, each of them alone or with a single dot behind it.  A path without such a part consists of
nothing else than slashes and single dots.  So whatever is put before a path up to a slash, and
whatever slashes and dots are put behind it, its last part stays the same.

Main definitions:

* `Path.IsFront`, `Path.IsIdleEnd` — what may stand before and behind the last part of a path;
* `Path.EndsIn` — **the last part of a path** that says something;
* `Path.IsIdle` — a path that says nothing, or only where it starts.

Main results:

* `Path.isIdle_or_endsIn` — every path says nothing or has a last part;
* `Path.EndsIn.surround` — **more before and behind a path leaves its last part as it is**;
* `Path.fileName?_of_endsIn`, `Path.fileName?_of_isIdle` — the name of either path;
* `Path.extensionOf?_append_dot`, `Path.extensionOf?_of_not_mem` — the extension of a name.
-/

import CaptureConfig.Proofs.Component
import Mathlib.Data.List.TakeWhile

set_option relaxedAutoImplicit false
set_option autoImplicit false

namespace CaptureConfig

namespace Path

/-! ### The last part of a path -/

/-- What may stand before the last part of a path: nothing, or octets that end with a slash. -/
def IsFront (front : List UInt8) : Prop := front = [] ∨ ∃ directory, front = directory ++ [slash]

/-- What may stand behind the last part of a path: slashes, alone or with a dot behind. -/
inductive IsIdleEnd : List UInt8 → Prop where
  | done : IsIdleEnd []
  | more {rest : List UInt8} (h : IsIdleEnd rest) : IsIdleEnd (slash :: rest)
  | here {rest : List UInt8} (h : IsIdleEnd rest) : IsIdleEnd (slash :: dot :: rest)

/-- **The last part of a path**: a stretch that says something, with a front before it and an idle
end behind it. -/
def EndsIn (p : Path) (part : List UInt8) : Prop :=
  isIdle part = false ∧ slash ∉ part ∧
    ∃ front ending, IsFront front ∧ IsIdleEnd ending ∧ p.octets = front ++ part ++ ending

/-- A path of slashes and single dots: the root, here, or nothing at all. -/
def IsIdle (p : Path) : Prop :=
  IsIdleEnd p.octets ∨ ∃ ending, IsIdleEnd ending ∧ p.octets = dot :: ending

section

variable {a b part front ending : List UInt8} {p : Path}

theorem IsFront.append (ha : IsFront a) (hb : IsFront b) : IsFront (a ++ b) := by
  obtain rfl | ⟨directory, rfl⟩ := hb
  · rwa [List.append_nil]
  · exact .inr ⟨a ++ directory, (List.append_assoc ..).symm⟩

theorem IsIdleEnd.append (ha : IsIdleEnd a) (hb : IsIdleEnd b) : IsIdleEnd (a ++ b) := by
  induction ha with
  | done => exact hb
  | more _ ih => exact .more ih
  | here _ ih => exact .here ih

/-- **More before and behind a path leaves its last part as it is.** -/
theorem EndsIn.surround (h : p.EndsIn part) (hfront : IsFront front) (hending : IsIdleEnd ending) :
    EndsIn ⟨front ++ p.octets ++ ending⟩ part := by
  obtain ⟨hidle, hslash, front', ending', hfront', hending', hoctets⟩ := h
  refine ⟨hidle, hslash, front ++ front', ending' ++ ending, hfront.append hfront',
    hending'.append hending, ?_⟩
  simp only [hoctets, List.append_assoc]

/-- An octet before a path with a last part goes to the front, or to the part itself. -/
theorem EndsIn.cons {c : UInt8} (h : EndsIn ⟨a⟩ part) : ∃ part', EndsIn ⟨c :: a⟩ part' := by
  by_cases hc : c = slash
  · refine ⟨part, ?_⟩
    have hsurround := h.surround (.inr ⟨[], rfl⟩) .done
    rwa [List.append_nil, List.nil_append, ← hc] at hsurround
  obtain ⟨hidle, hslash, front, ending, rfl | ⟨directory, rfl⟩, hending, hoctets⟩ := h
  · -- without a front the part grows, and still says something
    refine ⟨c :: part, ?_, ?_, [], ending, .inl rfl, hending, congrArg (c :: ·) hoctets⟩
    · cases part with
      | nil => cases hidle
      | cons d part => simp [isIdle]
    · exact List.not_mem_cons_of_ne_of_not_mem (Ne.symm hc) hslash
  · exact ⟨part, hidle, hslash, c :: directory ++ [slash], ending, .inr ⟨_, rfl⟩, hending,
      congrArg (c :: ·) hoctets⟩

/-- **Every path says nothing or has a last part.** -/
theorem isIdle_or_endsIn (p : Path) : p.IsIdle ∨ ∃ part, p.EndsIn part := by
  obtain ⟨a⟩ := p
  induction a with
  | nil => exact .inl (.inl .done)
  | cons c a ih =>
      obtain hidle | ⟨part, hpart⟩ := ih
      · by_cases hc : c = slash
        · subst hc
          obtain hending | ⟨ending, hending, rfl⟩ := hidle
          · exact .inl (.inl (.more hending))
          · exact .inl (.inl (.here hending))
        obtain hending | ⟨ending, hending, rfl⟩ := hidle
        · by_cases hdot : c = dot
          · exact .inl (.inr ⟨a, hending, by rw [hdot]⟩)
          · exact .inr ⟨[c], by simp [isIdle, hdot], by simpa using Ne.symm hc, [], a, .inl rfl,
              hending, rfl⟩
        · -- the dot that said nothing is the second octet of a name
          exact .inr ⟨[c, dot], by simp [isIdle], by simpa using ⟨Ne.symm hc, by decide⟩, [],
            ending, .inl rfl, hending, rfl⟩
      · exact .inr hpart.cons

/-! ### The name of a path -/

/-- An idle end adds no component. -/
theorem IsIdleEnd.namesOf_append (h : IsIdleEnd ending) (a : List UInt8) :
    namesOf (a ++ ending) = namesOf a := by
  induction h generalizing a with
  | done => rw [List.append_nil]
  | more _ ih =>
      have hrest := ih []
      rw [List.nil_append] at hrest
      rw [namesOf_append_slash, hrest]
      exact List.append_nil _
  | here _ ih =>
      have hrest := ih [dot]
      rw [List.singleton_append] at hrest
      rw [namesOf_append_slash, hrest]
      exact List.append_nil _

theorem namesOf_of_isIdle (h : p.IsIdle) : namesOf p.octets = [] := by
  obtain h | ⟨ending, h, hoctets⟩ := h
  · exact h.namesOf_append []
  · rw [hoctets]
    exact h.namesOf_append [dot]

/-- The last part of a path is its last component. -/
theorem getLast?_namesOf_of_endsIn (h : p.EndsIn part) :
    (namesOf p.octets).getLast? = some (.ofStretch part) := by
  obtain ⟨hidle, hslash, front, ending, hfront, hending, hoctets⟩ := h
  have hpart := namesOf_of_not_mem hidle hslash
  rw [hoctets, hending.namesOf_append]
  obtain rfl | ⟨directory, rfl⟩ := hfront
  · rw [List.nil_append, hpart]
    rfl
  · rw [List.append_assoc, List.singleton_append, namesOf_append_slash, hpart,
      List.getLast?_concat]

/-- A path that says nothing has no name. -/
theorem fileName?_of_isIdle (h : p.IsIdle) : p.fileName? = none := by
  rw [fileName?, components_eq, namesOf_of_isIdle h, List.append_nil, frontOf]
  cases p.isAbsolute <;> cases p.startsHere <;> rfl

/-- **The name of a path is its last part**, unless that is the way up. -/
theorem fileName?_of_endsIn (h : p.EndsIn part) :
    p.fileName? = if part = [dot, dot] then none else some part := by
  rw [fileName?, components_eq, List.getLast?_append, getLast?_namesOf_of_endsIn h, Option.some_or,
    Component.ofStretch]
  by_cases hup : part = [dot, dot]
  · simp [hup]
  · simp [hup]

end

/-! ### The extension of a name -/

section

variable {name stem ext : List UInt8}

theorem extensionOf?_of_not_mem (h : dot ∉ name) : extensionOf? name = none := by
  have hall : name.reverse.takeWhile (· != dot) = name.reverse := by
    rw [List.takeWhile_eq_self_iff]
    intro b hb
    exact bne_iff_ne.2 fun hdot => h (hdot ▸ List.mem_reverse.1 hb)
  rw [extensionOf?, hall, List.reverse_reverse]
  exact if_neg (by omega)

/-- **The extension is what stands behind the last dot**, unless nothing stands before it. -/
theorem extensionOf?_append_dot (h : dot ∉ ext) :
    extensionOf? (stem ++ dot :: ext) = if stem = [] then none else some ext := by
  have hall : ∀ b ∈ ext.reverse, (b != dot) = true := fun b hb =>
    bne_iff_ne.2 fun hdot => h (hdot ▸ List.mem_reverse.1 hb)
  have htake : (stem ++ dot :: ext).reverse.takeWhile (· != dot) = ext.reverse := by
    rw [List.reverse_append, List.reverse_cons, List.append_assoc,
      List.takeWhile_append_of_pos hall, List.singleton_append, List.takeWhile_cons_of_neg,
      List.append_nil]
    decide
  rw [extensionOf?, htake, List.reverse_reverse, List.length_append, List.length_cons]
  cases stem with
  | nil => simp
  | cons b stem => simp

/-- A name with a dot in it can be taken apart at the last one. -/
theorem exists_of_dot_mem (h : dot ∈ name) : ∃ stem ext, name = stem ++ dot :: ext ∧ dot ∉ ext := by
  obtain ⟨before, after, hname, hbefore⟩ := List.eq_append_cons_of_mem (List.mem_reverse.2 h)
  refine ⟨after.reverse, before.reverse, ?_, fun hdot => hbefore (List.mem_reverse.1 hdot)⟩
  rw [← List.reverse_reverse name, hname]
  simp

end

end Path

end CaptureConfig

/-
**The components of a joined path.**

A path is octets, and joining a name to it looks only at its last octet.  What a path names is told
by its components, and there joining is plain: whatever the octets of the path are — none at all,
doubled slashes, a slash at the end, dots — its components stay as they are and one name is added
behind them.

Main definitions:

* `Path.IsPlain` — a name that is a component as it stands;
* `Path.frontOf`, `Path.namesOf` — how a path starts, and the components of its stretches.

Main results:

* `Path.stretches_append_slash`, `Path.stretches_of_not_mem` — stretches of octets put together;
* `Path.join_cases` — the three ways in which a name is joined;
* `Path.components_join` — **joining a plain name adds one component**.
-/

import CaptureConfig.Path

set_option relaxedAutoImplicit false
set_option autoImplicit false

namespace CaptureConfig

namespace Path

/-! ### Stretches -/

theorem stretches_cons_slash (a : List UInt8) : stretches (slash :: a) = [] :: stretches a := by
  rw [stretches, if_pos rfl]

theorem stretches_ne_nil (a : List UInt8) : stretches a ≠ [] := by
  cases a with
  | nil => simp [stretches]
  | cons b a =>
      rw [stretches]
      split
      · simp
      · split <;> simp

theorem stretches_append_slash (a b : List UInt8) :
    stretches (a ++ slash :: b) = stretches a ++ stretches b := by
  induction a with
  | nil => rw [List.nil_append, stretches_cons_slash]; rfl
  | cons c a ih =>
      rw [List.cons_append]
      by_cases hc : c = slash
      · rw [hc, stretches_cons_slash, stretches_cons_slash, ih, List.cons_append]
      · rw [stretches, stretches, if_neg hc, if_neg hc, ih]
        cases h : stretches a with
        | nil => exact absurd h (stretches_ne_nil a)
        | cons first others => rfl

theorem head?_stretches_append_slash (a b : List UInt8) :
    (stretches (a ++ slash :: b)).head? = (stretches a).head? := by
  rw [stretches_append_slash]
  cases h : stretches a with
  | nil => exact absurd h (stretches_ne_nil a)
  | cons first others => rfl

theorem stretches_of_not_mem {a : List UInt8} (h : slash ∉ a) : stretches a = [a] := by
  induction a with
  | nil => rfl
  | cons c a ih =>
      rw [List.mem_cons, not_or] at h
      rw [stretches, if_neg (Ne.symm h.1), ih h.2]

/-! ### Components -/

/-- The components of the stretches of a list of octets. -/
def namesOf (a : List UInt8) : List Component :=
  ((stretches a).filter (! isIdle ·)).map Component.ofStretch

/-- How a path starts: at the root, here, or with its first name. -/
def frontOf (p : Path) : List Component :=
  if p.isAbsolute then [.root] else if p.startsHere then [.here] else []

theorem components_eq (p : Path) : p.components = p.frontOf ++ namesOf p.octets := rfl

theorem namesOf_append_slash (a b : List UInt8) :
    namesOf (a ++ slash :: b) = namesOf a ++ namesOf b := by
  rw [namesOf, stretches_append_slash, List.filter_append, List.map_append]
  rfl

/-- A stretch that says something is one component. -/
theorem namesOf_of_not_mem {part : List UInt8} (hidle : isIdle part = false)
    (hslash : slash ∉ part) : namesOf part = [.ofStretch part] := by
  simp [namesOf, stretches_of_not_mem hslash, hidle]

theorem frontOf_congr {p q : Path} (habsolute : p.isAbsolute = q.isAbsolute)
    (hhere : p.startsHere = q.startsHere) : p.frontOf = q.frontOf := by
  rw [frontOf, frontOf, habsolute, hhere]

/-- What stands behind a slash does not change how a path starts. -/
theorem frontOf_append_slash (a b c : List UInt8) :
    frontOf ⟨a ++ slash :: b⟩ = frontOf ⟨a ++ slash :: c⟩ := by
  refine frontOf_congr ?_ ?_
  · cases a <;> rfl
  · rw [startsHere, startsHere, head?_stretches_append_slash, head?_stretches_append_slash]

/-- Neither does a slash behind a path that is not empty. -/
theorem frontOf_append {a : List UInt8} (h : a ≠ []) (b : List UInt8) :
    frontOf ⟨a ++ slash :: b⟩ = frontOf ⟨a⟩ := by
  refine frontOf_congr ?_ ?_
  · obtain ⟨c, a, rfl⟩ := List.exists_cons_of_ne_nil h
    rfl
  · rw [startsHere, startsHere, head?_stretches_append_slash]

/-! ### Joining -/

/-- **A name that is a component as it stands**: it says something, is not the way up, and has no
slash in it. -/
def IsPlain (name : List UInt8) : Prop :=
  isIdle name = false ∧ name ≠ [dot, dot] ∧ slash ∉ name

instance (name : List UInt8) : Decidable (IsPlain name) :=
  inferInstanceAs (Decidable (_ ∧ _ ∧ _))

theorem namesOf_of_isPlain {name : List UInt8} (h : IsPlain name) :
    namesOf name = [.name name] := by
  obtain ⟨hidle, hup, hslash⟩ := h
  simp [namesOf_of_not_mem hidle hslash, Component.ofStretch, hup]

theorem frontOf_of_isPlain {name : List UInt8} (h : IsPlain name) : frontOf ⟨name⟩ = [] := by
  obtain ⟨hidle, -, hslash⟩ := h
  have habsolute : isAbsolute ⟨name⟩ = false := by
    rw [isAbsolute, beq_eq_false_iff_ne]
    intro hhead
    exact hslash (List.mem_of_mem_head? hhead)
  have hhere : startsHere ⟨name⟩ = false := by
    rw [startsHere, beq_eq_false_iff_ne, stretches_of_not_mem hslash]
    rintro ⟨⟩
    exact absurd hidle (by decide)
  rw [frontOf, habsolute, hhere]
  rfl

/-- What is joined stands alone, behind the slash at the end, or behind a slash of its own. -/
theorem join_cases (p : Path) (name : String) :
    (p.octets = [] ∧ p.join name = ⟨Utf8.encode name⟩) ∨
    (∃ a, p.octets = a ++ [slash] ∧ p.join name = ⟨a ++ slash :: Utf8.encode name⟩) ∨
    (p.octets ≠ [] ∧ p.join name = ⟨p.octets ++ slash :: Utf8.encode name⟩) := by
  obtain ⟨a⟩ := p
  cases hlast : a.getLast? with
  | none =>
      obtain rfl := List.getLast?_eq_none_iff.1 hlast
      exact .inl ⟨rfl, by simp [join]⟩
  | some b =>
      by_cases hb : b = slash
      · obtain ⟨front, rfl⟩ := List.getLast?_eq_some_iff.1 hlast
        exact .inr (.inl ⟨front, by rw [hb], by simp [join, hb]⟩)
      · refine .inr (.inr ⟨?_, by simp [join, hlast, hb]⟩)
        rintro rfl
        exact absurd hlast (by simp)

/-- **Joining a plain name adds one component**, whatever the path is. -/
theorem components_join (p : Path) {name : String} (h : IsPlain (Utf8.encode name)) :
    (p.join name).components = p.components ++ [.name (Utf8.encode name)] := by
  obtain ⟨a⟩ := p
  obtain ⟨rfl, hjoin⟩ | ⟨front, rfl, hjoin⟩ | ⟨ha, hjoin⟩ := join_cases ⟨a⟩ name
  · rw [hjoin, components_eq, frontOf_of_isPlain h, namesOf_of_isPlain h]
    rfl
  · -- the slash at the end is the one that joins
    rw [hjoin, components_eq, components_eq, frontOf_append_slash front _ [],
      namesOf_append_slash, namesOf_append_slash, namesOf_of_isPlain h]
    simp [namesOf, stretches, isIdle]
  · rw [hjoin, components_eq, components_eq, frontOf_append ha, namesOf_append_slash,
      namesOf_of_isPlain h, List.append_assoc]

end Path

end CaptureConfig

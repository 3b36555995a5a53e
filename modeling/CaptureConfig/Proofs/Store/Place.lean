/-
**The place of a path.**

There are no links, so where a path leads can be told from its names alone: a name goes down, two
dots take the last name away.  A path that can be followed leads to that place.  One that cannot be
followed, because a directory on the way is missing, has that place all the same; and unless the
path goes up again behind the gap, nothing is there.  So only paths that leave a missing directory
again can hide something that is there.

The directories above a path are beginnings of its way.  Where a path is not of that kind and
something is at its place, none of them is missing, and no directory is made for it.

Main definitions:

* `Hop.next`, `FileTree.place` — where ways and paths lead by their names alone;
* `FileTree.ClimbsOut` — a path that leaves a missing directory again;
* `Path.Begins` — a path that is a beginning of another one.

Main results:

* `FileTree.place_of_locate` — a path leads to its place;
* `FileTree.get?_place_eq_none` — **nothing is at the place of a path with a gap**, unless it climbs
  out of it;
* `Path.begins_of_mem_ancestors` — what is above a path is a beginning of it;
* `FileTree.run_makeDirectories_of_isSome` — **no directory is made above something that is there**.
-/

import CaptureConfig.Proofs.Store.Readiness

set_option relaxedAutoImplicit false
set_option autoImplicit false

namespace CaptureConfig

/-- Where a way leads by its name alone. -/
def Hop.next (here : Location) : Hop → Location
  | .stay => here
  | .up => here.dropLast
  | .down name => here ++ [name]

namespace FileTree

/-- **The place of a path**: where it leads by its names alone. -/
def place (t : FileTree) (p : Path) : Location :=
  p.hops.foldl Hop.next (if p.isAbsolute then [] else t.current)

/-- **A path that leaves a missing directory again**: one of its ways goes up where the ways before
it cannot be followed, since something on them is missing. -/
def ClimbsOut (t : FileTree) (p : Path) : Prop :=
  ∃ here before after, t.start p = .ok here ∧ p.hops = before ++ .up :: after ∧
    t.walk here before = .error .notFound

section

variable {t : FileTree} {p q : Path} {here l : Location} {hop : Hop} {hops rest : List Hop}

/-! ### Ways that can be followed -/

theorem eq_next_of_enter (h : t.enter here hop = .ok l) : l = hop.next here := by
  cases hop with
  | stay => exact (Except.ok.inj h).symm
  | up => exact (Except.ok.inj h).symm
  | down name => exact (enter_down_eq_ok_iff.1 h).2.2

theorem eq_foldl_of_walk (h : t.walk here hops = .ok l) : l = hops.foldl Hop.next here := by
  induction hops generalizing here with
  | nil => exact (Except.ok.inj h).symm
  | cons hop rest ih =>
      obtain ⟨k, hk, hrest⟩ := walk_cons_eq_ok_iff.1 h
      rw [List.foldl_cons, ← eq_next_of_enter hk]
      exact ih hrest

theorem walk_cons_of_enter {k : Location} (h : t.enter here hop = .ok k) :
    t.walk here (hop :: rest) = t.walk k rest := by
  rw [walk, h]
  rfl

theorem walk_cons_of_error {why : Refusal} (h : t.enter here hop = .error why) :
    t.walk here (hop :: rest) = .error why := by
  rw [walk, h]
  rfl

/-- Ways are followed up to the first that cannot be. -/
theorem walk_append_of_error {why : Refusal} (h : t.walk here hops = .error why) :
    t.walk here (hops ++ rest) = .error why := by
  induction hops generalizing here with
  | nil => cases h
  | cons hop more ih =>
      rw [List.cons_append]
      cases henter : t.enter here hop with
      | error e =>
          rw [walk_cons_of_error henter] at h ⊢
          exact h
      | ok k =>
          rw [walk_cons_of_enter henter] at h ⊢
          exact ih h

theorem walk_append_of_ok (h : t.walk here hops = .ok l) :
    t.walk here (hops ++ rest) = t.walk l rest := by
  induction hops generalizing here with
  | nil => cases h; rfl
  | cons hop more ih =>
      obtain ⟨k, hk, hmore⟩ := walk_cons_eq_ok_iff.1 h
      rw [List.cons_append, walk_cons_of_enter hk]
      exact ih hmore

theorem place_of_leads {s : Slot} (h : t.Leads p s) : t.place p =
    match s with
    | .directory l => l
    | .entry parent name => parent ++ [name] := by
  cases h with
  | entry _ start target walk =>
      rw [place, (start_eq_ok_iff.1 start).2, Path.hops_of_target? target, List.foldl_append,
        ← eq_foldl_of_walk walk]
      rfl
  | directory _ start _ walk =>
      rw [place, (start_eq_ok_iff.1 start).2]
      exact (eq_foldl_of_walk walk).symm

/-- **A path that leads anywhere leads to its place.** -/
theorem place_of_locate (h : t.locate p = .ok l) : t.place p = l := by
  obtain ⟨s, hleads⟩ := leads_of_locate h
  cases s with
  | directory k =>
      rw [place_of_leads hleads]
      exact Except.ok.inj ((locate_of_directory hleads).symm.trans h)
  | entry parent name => rw [place_of_leads hleads, ((locate_entry_iff hleads).1 h).1]

/-! ### Ways with a gap -/

/-- A way that leads nowhere is a name that nothing has. -/
theorem exists_down_of_enter (h : t.enter here hop = .error .notFound) :
    ∃ name, hop = .down name ∧ t.root.get? (here ++ [name]) = none := by
  cases hop with
  | stay => cases h
  | up => cases h
  | down name =>
      refine ⟨name, rfl, ?_⟩
      rw [enter, entry?] at h
      split at h
      next => cases h
      next =>
        cases hget : t.root.get? (here ++ [name]) with
        | none => rfl
        | some x =>
            rw [node?, hget] at h
            cases x <;> cases h

theorem enter_down_of_get?_eq_none {name : Name} (hlength : name.length ≤ 255)
    (h : t.root.get? (here ++ [name]) = none) : t.enter here (.down name) = .error .notFound := by
  rw [enter, entry?, if_neg (Nat.not_lt.2 hlength), node?, h]
  rfl

/-- Ways that never go up stay below. -/
theorem prefix_foldl_next (h : .up ∉ hops) (here : Location) :
    here <+: hops.foldl Hop.next here := by
  induction hops generalizing here with
  | nil => exact List.prefix_refl here
  | cons hop rest ih =>
      rw [List.mem_cons, not_or] at h
      refine List.IsPrefix.trans ?_ (ih h.2 (hop.next here))
      cases hop with
      | stay => exact List.prefix_refl here
      | up => exact absurd rfl h.1
      | down name => exact List.prefix_append here [name]

/-- Below a gap there is nothing. -/
theorem get?_eq_none_of_prefix {n : Node} {k l : Location} (h : n.get? k = none) (hkl : k <+: l) :
    n.get? l = none := by
  obtain ⟨rest, rfl⟩ := hkl
  rw [Node.get?_append, h]
  rfl

/-- **Behind a gap there is nothing**, unless a way goes up there. -/
theorem get?_foldl_eq_none (h : t.walk here hops = .error .notFound)
    (hclimb : ∀ before after, hops = before ++ .up :: after →
      t.walk here before ≠ .error .notFound) :
    t.root.get? (hops.foldl Hop.next here) = none := by
  induction hops generalizing here with
  | nil => cases h
  | cons hop rest ih =>
      cases henter : t.enter here hop with
      | ok k =>
          rw [walk_cons_of_enter henter] at h
          rw [List.foldl_cons, ← eq_next_of_enter henter]
          refine ih h fun before after hrest hbefore => ?_
          refine hclimb (hop :: before) after (by rw [hrest, List.cons_append]) ?_
          rwa [walk_cons_of_enter henter]
      | error why =>
          rw [walk_cons_of_error henter, Except.error.injEq] at h
          rw [h] at henter
          obtain ⟨name, rfl, hnone⟩ := exists_down_of_enter henter
          -- the gap is here, so that no way behind it may go up
          have hup : Hop.up ∉ rest := by
            intro hmem
            obtain ⟨before, after, rfl⟩ := List.append_of_mem hmem
            exact hclimb (.down name :: before) after rfl (walk_cons_of_error henter)
          exact get?_eq_none_of_prefix hnone (prefix_foldl_next hup (here ++ [name]))

/-- **Nothing is at the place of a path with a gap**, unless the path climbs out of it. -/
theorem get?_place_eq_none (start : t.start p = .ok here) (h : t.walk here p.hops = .error .notFound)
    (hclimb : ¬ t.ClimbsOut p) : t.root.get? (t.place p) = none := by
  rw [place, (start_eq_ok_iff.1 start).2]
  exact get?_foldl_eq_none h fun before after hhops hbefore =>
    hclimb ⟨here, before, after, start, hhops, hbefore⟩

end

end FileTree

/-! ### The paths above a path -/

namespace Path

section

variable {p q r : Path}

/-- **A path that is a beginning of another one**: it starts from the same place, and its ways are
the first ones of the other. -/
structure Begins (q p : Path) : Prop where
  isAbsolute : q.isAbsolute = p.isAbsolute
  hops : q.hops <+: p.hops

theorem Begins.refl (p : Path) : p.Begins p := ⟨rfl, List.prefix_refl _⟩

theorem Begins.trans (h : r.Begins q) (h' : q.Begins p) : r.Begins p :=
  ⟨h.isAbsolute.trans h'.isAbsolute, h.hops.trans h'.hops⟩

/-- What stands before a slash is a beginning. -/
theorem begins_of_append_slash {rest : List UInt8} (hq : q.octets ≠ [])
    (h : p.octets = q.octets ++ slash :: rest) : q.Begins p where
  isAbsolute := by
    obtain ⟨b, more, hcons⟩ := List.exists_cons_of_ne_nil hq
    rw [Path.isAbsolute, Path.isAbsolute, h, hcons]
    rfl
  hops := by
    rw [Path.hops, Path.hops, h, stretches_append_slash, List.filter_append, List.map_append]
    exact List.prefix_append _ _

theorem ofStretches_singleton (a : List UInt8) : ofStretches [a] = a :=
  List.intercalate_singleton ..

theorem ofStretches_cons_cons (a b : List UInt8) (parts : List (List UInt8)) :
    ofStretches (a :: b :: parts) = a ++ slash :: ofStretches (b :: parts) := by
  rw [ofStretches, List.intercalate_cons_cons]
  simp [ofStretches]

theorem ofStretches_stretches (a : List UInt8) : ofStretches (stretches a) = a := by
  induction a with
  | nil => rfl
  | cons b rest ih =>
      obtain ⟨first, others, hrest⟩ := List.exists_cons_of_ne_nil (stretches_ne_nil rest)
      rw [hrest] at ih
      by_cases hb : b = slash
      · rw [hb, stretches_cons_slash, hrest, ofStretches_cons_cons, ih, List.nil_append]
      · rw [stretches, if_neg hb, hrest, ← ih]
        cases others with
        | nil => rw [ofStretches_singleton, ofStretches_singleton]
        | cons second others =>
            rw [ofStretches_cons_cons, ofStretches_cons_cons, List.cons_append]

theorem exists_of_mem_leads {parts all : List (List UInt8)} (h : parts ∈ leads all) :
    parts ≠ [] ∧ parts <+: all := by
  induction all generalizing parts with
  | nil => cases h
  | cons part rest ih =>
      rw [leads, List.mem_append] at h
      obtain h | h := h
      · obtain ⟨more, hmore, rfl⟩ := List.mem_map.1 h
        exact ⟨List.cons_ne_nil _ _, (List.prefix_cons_inj part).2 (ih hmore).2⟩
      · split at h
        next => cases h
        next =>
          obtain rfl := List.mem_singleton.1 h
          exact ⟨List.cons_ne_nil _ _, ⟨rest, rfl⟩⟩

/-- Stretches that begin others are octets that begin others. -/
theorem ofStretches_append {parts more : List (List UInt8)} (hparts : parts ≠ [])
    (hmore : more ≠ []) :
    ofStretches (parts ++ more) = ofStretches parts ++ slash :: ofStretches more := by
  induction parts with
  | nil => exact absurd rfl hparts
  | cons part rest ih =>
      cases rest with
      | nil =>
          obtain ⟨first, others, rfl⟩ := List.exists_cons_of_ne_nil hmore
          rw [List.singleton_append, ofStretches_cons_cons, ofStretches_singleton]
      | cons next rest =>
          rw [List.cons_append, List.cons_append, ofStretches_cons_cons, ← List.cons_append,
            ih (List.cons_ne_nil _ _), ofStretches_cons_cons, List.append_assoc, List.cons_append]

theorem eq_or_of_mem_leads {parts : List (List UInt8)} {a : List UInt8}
    (h : parts ∈ leads (stretches a)) :
    a = ofStretches parts ∨ ∃ rest, a = ofStretches parts ++ slash :: rest := by
  obtain ⟨hne, more, hmore⟩ := exists_of_mem_leads h
  rw [← ofStretches_stretches a, ← hmore]
  cases more with
  | nil => exact .inl (by rw [List.append_nil])
  | cons first others => exact .inr ⟨_, ofStretches_append hne (List.cons_ne_nil _ _)⟩

/-- Octets whose first stretch is a dot are a dot, or start with one before a slash. -/
theorem eq_or_of_startsHere (h : p.startsHere = true) :
    p.octets = [dot] ∨ ∃ rest, p.octets = [dot] ++ slash :: rest := by
  rw [startsHere, beq_iff_eq] at h
  by_cases hslash : slash ∈ p.octets
  · obtain ⟨before, rest, hoctets, hbefore⟩ := List.eq_append_cons_of_mem hslash
    rw [hoctets, head?_stretches_append_slash, stretches_of_not_mem hbefore] at h
    exact .inr ⟨rest, by rw [hoctets, Option.some.inj h]⟩
  · rw [stretches_of_not_mem hslash] at h
    exact .inl (Option.some.inj h)

/-- The front of a path is a beginning of it. -/
theorem begins_take_front (h : p.isAbsolute = true ∨ p.startsHere = true) :
    Begins ⟨p.octets.take 1⟩ p := by
  obtain h | h := h
  · obtain ⟨octets⟩ := p
    cases octets with
    | nil => cases h
    | cons b rest =>
        obtain rfl : b = slash := Option.some.inj (beq_iff_eq.1 h)
        exact ⟨rfl, List.nil_prefix⟩
  · obtain hoctets | ⟨rest, hoctets⟩ := eq_or_of_startsHere h
    · obtain ⟨octets⟩ := p
      obtain rfl : octets = [dot] := hoctets
      exact .refl _
    · rw [hoctets]
      exact begins_of_append_slash (q := ⟨[dot]⟩) (List.cons_ne_nil _ _) hoctets

/-- **What is above a path is a beginning of it.** -/
theorem begins_of_mem_ancestors (h : q ∈ p.ancestors) (hq : q.octets ≠ []) : q.Begins p := by
  rw [ancestors] at h
  generalize hkept : (if (p.isAbsolute || p.startsHere) = true then 1 else 0) = kept at h
  obtain h | h := List.mem_append.1 h
  · obtain ⟨parts, hparts, rfl⟩ := List.mem_map.1 h
    obtain hrest | ⟨rest, hrest⟩ := eq_or_of_mem_leads hparts
    · have hself : (⟨p.octets.take kept ++ ofStretches parts⟩ : Path) = p := by
        rw [← hrest, List.take_append_drop]
      rw [hself]
      exact .refl p
    · refine begins_of_append_slash hq (?_ : _ = _ ++ slash :: rest)
      rw [List.append_assoc, ← hrest, List.take_append_drop]
  · obtain rfl | h := List.mem_cons.1 h
    · split at hkept
      next hfront =>
        rw [← hkept]
        exact begins_take_front (by simpa using hfront)
      next =>
        rw [← hkept, List.take_zero] at hq
        exact absurd rfl hq
    · split at h
      next => exact absurd (congrArg Path.octets (List.mem_singleton.1 h)) hq
      next => cases h

/-- The directories that have to be there for a path to be one are beginnings of it. -/
theorem begins_of_mem_chain (h : q ∈ p.chain) : q.Begins p := by
  rw [chain, List.mem_filter] at h
  obtain ⟨h, hq⟩ := h
  obtain rfl | h := List.mem_cons.1 h
  · exact .refl q
  · exact begins_of_mem_ancestors (List.mem_of_mem_tail h) (by simpa using hq)

theorem begins_of_parent? (h : p.parent? = some q) (hq : q.octets ≠ []) : q.Begins p :=
  begins_of_mem_ancestors (List.mem_of_mem_tail (List.mem_of_mem_head? h)) hq

end

end Path

namespace FileTree

section

variable {t : FileTree} {p q : Path}

/-! ### Directories above something that is there -/

/-- Where something is at the place of a path, no beginning of it is missing. -/
theorem makeDirectory_of_begins (hq : q.Begins p) (hthere : (t.root.get? (t.place p)).isSome = true)
    (hclimb : ¬ t.ClimbsOut p) : ∃ why, t.makeDirectory q = .error why := by
  cases hmake : t.makeDirectory q with
  | error why => exact ⟨why, rfl⟩
  | ok t' =>
      obtain ⟨parent, name, hleads, hlength, hnone, -⟩ := makeDirectory_eq_ok_iff.1 hmake
      cases hleads with
      | @entry here _ _ _ start target walk =>
          have hstart : t.start p = .ok here :=
            start_eq_ok_iff.2 (hq.isAbsolute ▸ start_eq_ok_iff.1 start)
          obtain ⟨rest, hrest⟩ := hq.hops
          -- The gap is where the directory would be made.
          have hgap : t.walk here p.hops = .error .notFound := by
            rw [← hrest, Path.hops_of_target? target]
            refine walk_append_of_error ?_
            rw [walk_append_of_ok walk]
            exact walk_cons_of_error (enter_down_of_get?_eq_none hlength hnone)
          rw [get?_place_eq_none hstart hgap hclimb] at hthere
          cases hthere

/-- Settling for a directory that is there changes nothing. -/
theorem settleDirectory_snd (result : Except Refusal Unit) :
    (settleDirectory look q result t).2 = t := by
  cases result <;> rfl

/-- Directories none of which can be made leave the tree as it is. -/
theorem makeMissing_of_refused {paths : List Path}
    (h : ∀ q ∈ paths, ∃ why, t.makeDirectory q = .error why) :
    (makeMissing make look paths t).2 = t := by
  induction paths with
  | nil => rfl
  | cons q above ih =>
      obtain ⟨why, hwhy⟩ := h q List.mem_cons_self
      have hmake : make q t = (.error why, t) := by rw [make, change, hwhy]
      replace ih := ih fun r hr => h r (List.mem_cons_of_mem q hr)
      rw [makeMissing_cons_run, hmake]
      split
      next =>
        split
        next =>
          show (settleDirectory look q _ _).2 = t
          rw [settleDirectory_snd, ih, hmake]
        next => exact ih
      next => exact settleDirectory_snd _

/-- **No directory is made above something that is there.** -/
theorem run_makeDirectories_of_isSome (hq : q.octets ≠ [] → q.Begins p)
    (hthere : (t.root.get? (t.place p)).isSome = true) (hclimb : ¬ t.ClimbsOut p) :
    ((Step.makeDirectories q).run t).2 = t := by
  by_cases hnil : q.octets = []
  · rw [run_makeDirectories_of_isDirectory (.inl hnil)]
  · refine makeMissing_of_refused fun r hr => ?_
    exact makeDirectory_of_begins ((Path.begins_of_mem_chain hr).trans (hq hnil)) hthere hclimb

end

end FileTree

end CaptureConfig

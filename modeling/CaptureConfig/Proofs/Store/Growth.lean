/-
**Paths in a tree that grows.**

What is written to a tree of files never takes anything away: a directory stays a directory, and a
file stays a file, whatever becomes of its contents.  In a tree that has grown in this way, every
path that led somewhere still leads there.

Main definitions:

* `FileTree.Grows` — one tree has grown from another;
* `Path.target?` — the name that a path ends with;
* `FileTree.Leads` — where a path leads.

Main results:

* `Node.view_put_of_ne` — what putting a node leaves as it is;
* `FileTree.Grows.leads`, `FileTree.Grows.locate` — **a path leads where it led before**;
* `Path.target?_join` — a path ends with the name that was joined to it.
-/

import CaptureConfig.Proofs.Component
import CaptureConfig.Store.FileTree

set_option relaxedAutoImplicit false
set_option autoImplicit false

namespace CaptureConfig

namespace Node

/-! ### Places below places -/

theorem get?_append (l k : Location) (n : Node) : n.get? (l ++ k) = (n.get? l).bind (·.get? k) := by
  induction l generalizing n with
  | nil => rw [get?_nil]; rfl
  | cons name rest ih =>
      cases n with
      | file f => rw [List.cons_append, get?_file_cons, get?_file_cons]; rfl
      | directory entries =>
          rw [List.cons_append, get?_directory_cons, get?_directory_cons]
          cases entries.lookup name with
          | none => rfl
          | some child => exact ih child

section

variable {n : Node} {l k : Location} {f : File}

theorem fileAt?_eq_some_iff : n.fileAt? l = some f ↔ n.get? l = some (.file f) := by
  rw [fileAt?]
  cases n.get? l with
  | none => exact ⟨by rintro ⟨⟩, by rintro ⟨⟩⟩
  | some x =>
      cases x with
      | file g => exact ⟨fun h => by rw [Option.some.inj h], fun h => by cases h; rfl⟩
      | directory entries => exact ⟨by rintro ⟨⟩, by rintro ⟨⟩⟩

/-- A place with a file is no directory. -/
theorem directoryAt_of_fileAt? (h : n.fileAt? l = some f) : n.directoryAt l = false := by
  rw [directoryAt, fileAt?_eq_some_iff.1 h]
  rfl

theorem directoryAt_of_get?_eq_none (h : n.get? l = none) : n.directoryAt l = false := by
  rw [directoryAt, h]
  rfl

/-- Below a place that is no directory there is nothing. -/
theorem get?_below_eq_none (h : n.directoryAt l = false) (name : Name) :
    n.get? (l ++ name :: k) = none := by
  rw [get?_append]
  rw [directoryAt] at h
  cases hget : n.get? l with
  | none => rfl
  | some x =>
      cases x with
      | file f => exact get?_file_cons f name k
      | directory entries => rw [hget] at h; cases h

/-- What is above a directory is one. -/
theorem directoryAt_of_append (h : n.directoryAt (l ++ k) = true) : n.directoryAt l = true := by
  cases k with
  | nil => rwa [List.append_nil] at h
  | cons name rest =>
      rw [← Bool.not_eq_false]
      intro hl
      rw [directoryAt, get?_below_eq_none hl] at h
      cases h

theorem directoryAt_dropLast (h : n.directoryAt l = true) : n.directoryAt l.dropLast = true := by
  obtain rfl | ⟨front, name, rfl⟩ := List.eq_nil_or_concat l
  · exact h
  · rw [List.concat_eq_append] at h ⊢
    rw [List.dropLast_concat]
    exact directoryAt_of_append h

/-! ### Putting a file -/

/-- A node that takes the place of another one is there. -/
theorem get?_put_of_isSome (x : Node) (h : (n.get? l).isSome = true) :
    (n.put l x).get? l = some x := by
  obtain rfl | ⟨front, name, rfl⟩ := List.eq_nil_or_concat l
  · rw [put, get?_nil]
  · rw [List.concat_eq_append] at h ⊢
    refine get?_put_self x name front n ?_
    rw [← Bool.not_eq_false]
    intro hfront
    rw [get?_below_eq_none hfront] at h
    cases h

section

variable {x : Node} (hput : (n.put l x).get? l = some x) (hl : n.directoryAt l = false)
  (hx : ∀ name rest, x.get? (name :: rest) = none) (hne : k ≠ l)

include hput hl hx hne

/-- What holds of files or of directories is as before at every other place, if a node without
entries is put where no directory was. -/
theorem view_put_of_ne {α : Type} (view : Node → Option α)
    (same : ∀ entries entries', view (.directory entries) = view (.directory entries')) :
    ((n.put l x).get? k).bind view = (n.get? k).bind view := by
  by_cases hprefix : l <+: k
  · -- Below the place there was nothing, and below the node there is nothing.
    obtain ⟨rest, rfl⟩ := hprefix
    cases rest with
    | nil => exact absurd (List.append_nil l) hne
    | cons name rest =>
        rw [get?_below_eq_none hl, get?_append, hput, Option.bind_some, hx name rest]
  · exact view_put view same x l k n hprefix

theorem fileAt?_put_of_ne : (n.put l x).fileAt? k = n.fileAt? k :=
  view_put_of_ne hput hl hx hne file? fun _ _ => rfl

theorem directoryAt_put_of_ne : (n.put l x).directoryAt k = n.directoryAt k := by
  have hview (m : Node) : m.directoryAt k =
      ((m.get? k).bind fun y => if y.isDirectory then some () else none).isSome := by
    rw [directoryAt]
    cases m.get? k with
    | none => rfl
    | some y => cases y <;> rfl
  rw [hview, hview]
  exact congrArg Option.isSome (view_put_of_ne hput hl hx hne _ fun _ _ => rfl)

end

end

end Node

/-! ### Growth -/

namespace FileTree

/-- **One tree has grown from another**: the current directory is the same, directories stay
directories, and files stay files. -/
structure Grows (t t' : FileTree) : Prop where
  current : t'.current = t.current
  directory : ∀ l, t.root.directoryAt l = true → t'.root.directoryAt l = true
  file : ∀ l, (t.root.fileAt? l).isSome = true → (t'.root.fileAt? l).isSome = true

namespace Grows

theorem refl (t : FileTree) : t.Grows t := ⟨rfl, fun _ h => h, fun _ h => h⟩

theorem trans {t t' t'' : FileTree} (h : t.Grows t') (h' : t'.Grows t'') : t.Grows t'' :=
  ⟨h'.current.trans h.current, fun l hl => h'.directory l (h.directory l hl),
    fun l hl => h'.file l (h.file l hl)⟩

end Grows

section

variable {t t' : FileTree} {p : Path}

/-- A name leads into a directory that is there. -/
theorem enter_down_eq_ok_iff {here l : Location} {name : Name} :
    t.enter here (.down name) = .ok l ↔
      name.length ≤ 255 ∧ t.root.directoryAt (here ++ [name]) = true ∧ l = here ++ [name] := by
  rw [enter, entry?]
  by_cases hlength : 255 < name.length
  · rw [if_pos hlength]
    exact ⟨by rintro ⟨⟩, fun h => absurd h.1 (Nat.not_le.2 hlength)⟩
  · rw [if_neg hlength, Node.directoryAt, node?]
    cases t.root.get? (here ++ [name]) with
    | none => exact ⟨by rintro ⟨⟩, by rintro ⟨-, ⟨⟩, -⟩⟩
    | some x =>
        cases x with
        | file f => exact ⟨by rintro ⟨⟩, by rintro ⟨-, ⟨⟩, -⟩⟩
        | directory entries =>
            exact ⟨fun h => ⟨Nat.not_lt.1 hlength, rfl, (Except.ok.inj h).symm⟩,
              fun h => congrArg Except.ok h.2.2.symm⟩

/-- One hop from a directory leads to a directory. -/
theorem directoryAt_of_enter {here l : Location} {hop : Hop}
    (hhere : t.root.directoryAt here = true) (h : t.enter here hop = .ok l) :
    t.root.directoryAt l = true := by
  cases hop with
  | stay => cases h; exact hhere
  | up => cases h; exact Node.directoryAt_dropLast hhere
  | down name =>
      obtain ⟨-, hdirectory, rfl⟩ := enter_down_eq_ok_iff.1 h
      exact hdirectory

theorem walk_cons_eq_ok_iff {here l : Location} {hop : Hop} {rest : List Hop} :
    t.walk here (hop :: rest) = .ok l ↔ ∃ k, t.enter here hop = .ok k ∧ t.walk k rest = .ok l := by
  rw [walk]
  cases t.enter here hop with
  | error why => exact ⟨by rintro ⟨⟩, by rintro ⟨_, ⟨⟩, -⟩⟩
  | ok k => exact ⟨fun h => ⟨k, rfl, h⟩, by rintro ⟨_, ⟨⟩, h⟩; exact h⟩

theorem directoryAt_of_walk {hops : List Hop} {here l : Location}
    (hhere : t.root.directoryAt here = true) (h : t.walk here hops = .ok l) :
    t.root.directoryAt l = true := by
  induction hops generalizing here with
  | nil => cases h; exact hhere
  | cons hop rest ih =>
      obtain ⟨k, hk, hrest⟩ := walk_cons_eq_ok_iff.1 h
      exact ih (directoryAt_of_enter hhere hk) hrest

theorem start_eq_ok_iff {l : Location} : t.start p = .ok l ↔
    t.root.directoryAt l = true ∧ (if p.isAbsolute then [] else t.current) = l := by
  rw [start]
  generalize (if p.isAbsolute then [] else t.current) = k
  split
  next hk => rw [Except.ok.injEq]; exact ⟨fun h => ⟨h ▸ hk, h⟩, fun h => h.2⟩
  next hk => exact ⟨by rintro ⟨⟩, fun h => absurd (h.2 ▸ h.1) hk⟩

end

namespace Grows

variable {t t' : FileTree} (h : t.Grows t')

include h

theorem enter {here l : Location} {hop : Hop} (hl : t.enter here hop = .ok l) :
    t'.enter here hop = .ok l := by
  cases hop with
  | stay => exact hl
  | up => exact hl
  | down name =>
      obtain ⟨hlength, hdirectory, rfl⟩ := enter_down_eq_ok_iff.1 hl
      exact enter_down_eq_ok_iff.2 ⟨hlength, h.directory _ hdirectory, rfl⟩

theorem walk {hops : List Hop} {here l : Location} (hl : t.walk here hops = .ok l) :
    t'.walk here hops = .ok l := by
  induction hops generalizing here with
  | nil => exact hl
  | cons hop rest ih =>
      obtain ⟨k, hk, hrest⟩ := walk_cons_eq_ok_iff.1 hl
      exact walk_cons_eq_ok_iff.2 ⟨k, h.enter hk, ih hrest⟩

theorem start {p : Path} {l : Location} (hl : t.start p = .ok l) : t'.start p = .ok l := by
  obtain ⟨hdirectory, horigin⟩ := start_eq_ok_iff.1 hl
  exact start_eq_ok_iff.2 ⟨h.directory l hdirectory, h.current ▸ horigin⟩

end Grows

/-! ### Where paths lead -/

end FileTree

namespace Path

/-- The name that a path ends with. -/
def target? (p : Path) : Option Name :=
  match p.hops.getLast? with
  | some (.down name) => some name
  | _ => none

/-- The last way of a path that ends with a name. -/
theorem hops_of_target? {p : Path} {name : Name} (h : p.target? = some name) :
    p.hops = p.hops.dropLast ++ [.down name] := by
  rw [target?] at h
  cases hlast : p.hops.getLast? with
  | none => rw [hlast] at h; cases h
  | some hop =>
      rw [hlast] at h
      cases hop <;> cases h
      obtain ⟨front, hfront⟩ := List.getLast?_eq_some_iff.1 hlast
      rw [hfront, List.dropLast_concat]

/-- What is joined to a path is what is left of it, or stands behind a slash. -/
theorem stretches_join (p : Path) {name : String} (h : IsPlain (Utf8.encode name)) :
    ∃ front, stretches (p.join name).octets = front ++ [Utf8.encode name] := by
  have hname := stretches_of_not_mem h.2.2
  obtain ⟨-, hjoin⟩ | ⟨front, -, hjoin⟩ | ⟨-, hjoin⟩ := join_cases p name <;> rw [hjoin]
  · exact ⟨[], hname⟩
  · exact ⟨stretches front, by rw [stretches_append_slash, hname]⟩
  · exact ⟨stretches p.octets, by rw [stretches_append_slash, hname]⟩

/-- **A path ends with the name that was joined to it.** -/
theorem target?_join (p : Path) {name : String} (h : IsPlain (Utf8.encode name)) :
    (p.join name).target? = some (Utf8.encode name) := by
  obtain ⟨front, hfront⟩ := p.stretches_join h
  obtain ⟨hidle, hup, -⟩ := h
  rw [isIdle, Bool.or_eq_false_iff, beq_eq_false_iff_ne] at hidle
  have hhops : (p.join name).hops =
      (front.filter (! ·.isEmpty)).map Hop.ofStretch ++ [.down (Utf8.encode name)] := by
    rw [hops, hfront, List.filter_append, List.map_append]
    simp [hidle.1, Hop.ofStretch, hidle.2, hup]
  rw [target?, hhops, List.getLast?_concat]

end Path

namespace FileTree

/-- **Where a path leads**: to a name in a directory, or, if it ends with none, to a directory. -/
inductive Leads (t : FileTree) (p : Path) : Slot → Prop
  /-- To the name that the path ends with, in the directory of what is before. -/
  | entry {here parent : Location} {name : Name} (check : p.check = .ok ())
      (start : t.start p = .ok here) (target : p.target? = some name)
      (walk : t.walk here p.hops.dropLast = .ok parent) : Leads t p (.entry parent name)
  /-- To a directory, if the path ends in dots or is the root. -/
  | directory {here l : Location} (check : p.check = .ok ()) (start : t.start p = .ok here)
      (target : p.target? = none) (walk : t.walk here p.hops = .ok l) : Leads t p (.directory l)

section

variable {t t' : FileTree} {p : Path}

theorem slot_of_start {here : Location} (check : p.check = .ok ()) (start : t.start p = .ok here) :
    t.slot p = match p.target? with
      | some name => (t.walk here p.hops.dropLast).map fun l => .entry l name
      | none => (t.walk here p.hops).map .directory := by
  rw [slot, check, start, Path.target?]
  have hmap {β : Type} (x : Except Refusal Location) (f : Location → β) :
      (do pure (f (← x)) : Except Refusal β) = x.map f := by cases x <;> rfl
  cases p.hops.getLast? with
  | none => exact hmap _ _
  | some hop => cases hop <;> exact hmap _ _

theorem slot_eq_ok_iff {s : Slot} : t.slot p = .ok s ↔ t.Leads p s := by
  constructor
  · intro h
    -- The path is looked at as a whole, and then a place is found to start from.
    have hstart : ∃ here, p.check = .ok () ∧ t.start p = .ok here := by
      rw [slot] at h
      cases hcheck : p.check with
      | error why => rw [hcheck] at h; cases h
      | ok _ =>
          cases hstart : t.start p with
          | error why => rw [hcheck, hstart] at h; cases h
          | ok here => exact ⟨here, rfl, rfl⟩
    obtain ⟨here, check, start⟩ := hstart
    rw [slot_of_start check start] at h
    split at h
    next name target =>
      cases walk : t.walk here p.hops.dropLast with
      | error why => rw [walk] at h; cases h
      | ok parent => rw [walk] at h; cases h; exact .entry check start target walk
    next target =>
      cases walk : t.walk here p.hops with
      | error why => rw [walk] at h; cases h
      | ok l => rw [walk] at h; cases h; exact .directory check start target walk
  · intro h
    cases h with
    | entry check start target walk => rw [slot_of_start check start, target]; simp only [walk]; rfl
    | directory check start target walk =>
        rw [slot_of_start check start, target]
        simp only [walk]
        rfl

/-- A path that leads to a name leads into a directory. -/
theorem Leads.directoryAt {parent : Location} {name : Name} (h : t.Leads p (.entry parent name)) :
    t.root.directoryAt parent = true := by
  cases h with
  | entry _ start _ walk => exact directoryAt_of_walk (start_eq_ok_iff.1 start).1 walk

theorem Leads.target?_eq {parent : Location} {name : Name} (h : t.Leads p (.entry parent name)) :
    p.target? = some name := by
  cases h with
  | entry _ _ target _ => exact target

/-- **A path leads where it led before.** -/
theorem Grows.leads (hgrows : t.Grows t') {s : Slot} (h : t.Leads p s) : t'.Leads p s := by
  cases h with
  | entry check start target walk =>
      exact .entry check (hgrows.start start) target (hgrows.walk walk)
  | directory check start target walk =>
      exact .directory check (hgrows.start start) target (hgrows.walk walk)

/-- A path whose place is known leads somewhere. -/
theorem leads_of_locate {l : Location} (h : t.locate p = .ok l) : ∃ s, t.Leads p s := by
  rw [locate] at h
  cases hslot : t.slot p with
  | error why => rw [hslot] at h; cases h
  | ok s => exact ⟨s, slot_eq_ok_iff.1 hslot⟩

theorem locate_of_directory {l : Location} (h : t.Leads p (.directory l)) : t.locate p = .ok l := by
  rw [locate, slot_eq_ok_iff.2 h]
  rfl

/-- **The place of what a path that ends with a name names**: a directory, or, unless a slash is
behind the name, a file. -/
theorem locate_entry_iff {parent l : Location} {name : Name} (h : t.Leads p (.entry parent name)) :
    t.locate p = .ok l ↔ l = parent ++ [name] ∧ name.length ≤ 255 ∧
      (t.root.directoryAt (parent ++ [name]) = true ∨
        (t.root.fileAt? (parent ++ [name])).isSome = true ∧ p.endsWithSlash = false) := by
  rw [locate, slot_eq_ok_iff.2 h]
  show Except.bind ( t.entry? parent name) _ = _ ↔ _
  rw [ entry?]
  by_cases hlength : 255 < name.length
  · rw [if_pos hlength]
    exact ⟨by rintro ⟨⟩, fun h => absurd h.2.1 (Nat.not_le.2 hlength)⟩
  · have hlength' := Nat.not_lt.1 hlength
    rw [if_neg hlength, node?, Node.directoryAt, Node.fileAt?, Except.bind]
    cases t.root.get? (parent ++ [name]) with
    | none => simp
    | some x =>
        cases x with
        | directory entries =>
            exact ⟨fun h => ⟨(Except.ok.inj h).symm, hlength', .inl rfl⟩,
              fun h => congrArg Except.ok h.1.symm⟩
        | file f =>
            cases p.endsWithSlash with
            | true => simp [Node.isDirectory]
            | false =>
                exact ⟨fun h => ⟨(Except.ok.inj h).symm, hlength', .inr ⟨rfl, rfl⟩⟩,
                  fun h => congrArg Except.ok h.1.symm⟩

/-- **What a path names stays where it is.** -/
theorem Grows.locate (hgrows : t.Grows t') {l : Location} (h : t.locate p = .ok l) :
    t'.locate p = .ok l := by
  obtain ⟨s, hleads⟩ := leads_of_locate h
  cases s with
  | directory k =>
      rw [locate_of_directory hleads] at h
      rw [locate_of_directory (hgrows.leads hleads), h]
  | entry parent name =>
      obtain ⟨rfl, hlength, hplace⟩ := (locate_entry_iff hleads).1 h
      exact (locate_entry_iff (hgrows.leads hleads)).2 ⟨rfl, hlength,
        hplace.imp (hgrows.directory _) (And.imp_left (hgrows.file _))⟩

end

end FileTree

end CaptureConfig

/-
**The text of a network.**

What is said of a network names it.  The text that a network is written as need not be the one that
it was read from: leading zeros are gone, letters are small, and the longest run of zero groups is
left out of an address of version 6.  It is read as the same network all the same, so it belongs to
no other one.

Main definitions:

* `Network.IsProper` — as many octets or groups as there should be, none of them too large;
* `Network.EndsGroups` — what no group can be read from.

Main results:

* `Network.isProper_of_ofString?` — what is read is proper;
* `Network.ofString?_toString` — **the text of a network that was read is read as that network**.
-/

import CaptureConfig.Proofs.Network

set_option relaxedAutoImplicit false
set_option autoImplicit false

namespace CaptureConfig

namespace Network

/-- **The networks that can be read**: four octets or eight groups, and a prefix no longer than the
address. -/
inductive IsProper : Network → Prop
  | v4 {octets : List Nat} {n : Nat} (length : octets.length = 4) (small : ∀ a ∈ octets, a < 256)
      (inside : n < 33) : IsProper (.v4 octets n)
  | v6 {groups : List Nat} {n : Nat} (length : groups.length = 8)
      (small : ∀ g ∈ groups, g < 0x10000) (inside : n < 129) : IsProper (.v6 groups n)

variable {cs rest : List Char}

/-! ### What is read is proper -/

theorem lt_of_number {base most bound n : Nat} (h : number base most bound cs = some (n, rest)) :
    n < bound := by
  obtain ⟨hno, h⟩ := Option.ite_none_left_eq_some.1 h
  obtain ⟨rfl, -⟩ := Prod.mk.inj (Option.some.inj h)
  exact Nat.lt_of_not_le fun hle => hno (.inr (.inr hle))

theorem lt_of_prefixAtEnd {most bound n : Nat} (h : prefixAtEnd most bound cs = some n) :
    n < bound := by
  simp only [prefixAtEnd, bind, Option.bind_eq_some_iff, Prod.exists,
    Option.ite_none_right_eq_some, Option.some.injEq] at h
  obtain ⟨_, -, n, _, hn, -, rfl⟩ := h
  exact lt_of_number hn

theorem small_of_dotted {k : Nat} {ns : List Nat} (h : dotted k cs = some (ns, rest)) :
    ns.length = k + 1 ∧ ∀ a ∈ ns, a < 256 := by
  induction k generalizing cs rest ns with
  | zero =>
      obtain ⟨⟨n, rest'⟩, hn, h⟩ := Option.map_eq_some_iff.1 h
      obtain ⟨rfl, rfl⟩ := Prod.mk.inj h
      exact ⟨rfl, List.forall_mem_singleton.2 (lt_of_number hn)⟩
  | succ k ih =>
      simp only [dotted, bind, Option.bind_eq_some_iff, pure, Option.some.injEq, Prod.exists,
        Prod.mk.injEq] at h
      obtain ⟨n, _, hn, _, -, ns, _, hns, rfl, -⟩ := h
      obtain ⟨hlength, hsmall⟩ := ih hns
      exact ⟨congrArg (· + 1) hlength, List.forall_mem_cons.2 ⟨lt_of_number hn, hsmall⟩⟩

theorem pairUp_of_length {bytes : List Nat} (h : bytes.length = 4) (hsmall : ∀ a ∈ bytes, a < 256) :
    (pairUp bytes).length = 2 ∧ ∀ g ∈ pairUp bytes, g < 0x10000 := by
  obtain ⟨a, b, c, d, rfl⟩ : ∃ a b c d, bytes = [a, b, c, d] := by
    match bytes, h with
    | [a, b, c, d], _ => exact ⟨a, b, c, d, rfl⟩
  simp only [List.forall_mem_cons] at hsmall
  refine ⟨rfl, ?_⟩
  simp only [pairUp, List.forall_mem_cons]
  exact ⟨by omega, by omega, fun _ h => absurd h List.not_mem_nil⟩

theorem small_groups (most : Nat) (first : Bool) (cs : List Char) :
    (groups most first cs).1.length ≤ most ∧ ∀ g ∈ (groups most first cs).1, g < 0x10000 := by
  induction most generalizing first cs with
  | zero => exact ⟨Nat.le_refl 0, fun _ h => absurd h List.not_mem_nil⟩
  | succ most ih =>
      simp only [groups]
      split
      next bytes rest h =>
        -- Dots stand for two groups, and are read only if there is room for them.
        obtain ⟨hroom, h⟩ := Option.ite_none_right_eq_some.1 h
        obtain ⟨here, -, h⟩ := Option.bind_eq_some_iff.1 h
        obtain ⟨hlength, hsmall⟩ := small_of_dotted h
        obtain ⟨htwo, hsmall⟩ := pairUp_of_length hlength hsmall
        exact ⟨by dsimp only; omega, hsmall⟩
      next =>
        split
        next g rest h =>
          obtain ⟨here, -, h⟩ := Option.bind_eq_some_iff.1 h
          obtain ⟨hlength, hsmall⟩ := ih false rest
          exact ⟨Nat.succ_le_succ hlength, List.forall_mem_cons.2 ⟨lt_of_number h, hsmall⟩⟩
        next => exact ⟨Nat.zero_le _, fun _ h => absurd h List.not_mem_nil⟩

theorem small_of_groups? {gs : List Nat} (h : groups? cs = some (gs, rest)) :
    gs.length = 8 ∧ ∀ g ∈ gs, g < 0x10000 := by
  obtain ⟨hfront, hfrontSmall⟩ := small_groups 8 true cs
  rw [groups?] at h
  revert hfront hfrontSmall h
  rcases groups 8 true cs with ⟨front, dots, rest'⟩
  intro h hfront hfrontSmall
  dsimp only at h hfront hfrontSmall
  split at h
  next hlength =>
    obtain ⟨rfl, -⟩ := Prod.mk.inj (Option.some.inj h)
    exact ⟨hlength, hfrontSmall⟩
  next =>
    obtain ⟨-, h⟩ := Option.ite_none_left_eq_some.1 h
    simp only [bind, Option.bind_eq_some_iff, pure, Option.some.injEq, Prod.mk.injEq] at h
    obtain ⟨_, -, rest₂, -, rfl, -⟩ := h
    obtain ⟨hback, hbackSmall⟩ := small_groups (8 - front.length) true rest₂
    refine ⟨?_, ?_⟩
    · simp only [List.length_append, List.length_replicate]
      omega
    · simp only [List.forall_mem_append]
      refine ⟨⟨hfrontSmall, fun g hg => ?_⟩, hbackSmall⟩
      rw [List.eq_of_mem_replicate hg]
      decide

/-- **What is read is proper.** -/
theorem isProper_of_ofString? {s : String} {n : Network} (h : ofString? s = some n) :
    n.IsProper := by
  rw [ofString?, ofChars?, Option.orElse_eq_orElse, Option.orElse_eq_or,
    Option.or_eq_some_iff] at h
  rcases h with h | ⟨-, h⟩
  · simp only [bind, Option.bind_eq_some_iff, Prod.exists, pure, Option.some.injEq] at h
    obtain ⟨bytes, _, hoctets, k, hk, rfl⟩ := h
    obtain ⟨hlength, hsmall⟩ := small_of_dotted hoctets
    exact .v4 hlength hsmall (lt_of_prefixAtEnd hk)
  · simp only [bind, Option.bind_eq_some_iff, Prod.exists, pure, Option.some.injEq] at h
    obtain ⟨gs, _, hgroups, k, hk, rfl⟩ := h
    obtain ⟨hlength, hsmall⟩ := small_of_groups? hgroups
    exact .v6 hlength hsmall (lt_of_prefixAtEnd hk)

/-! ### Numbers -/

@[simp] theorem behind_self (c : Char) (rest : List Char) : behind c (c :: rest) = some rest :=
  if_pos rfl

/-- The digits of a number are read as that number, up to what is no digit. -/
theorem number_inBase_append {base width bound n : Nat} (hbase : 2 ≤ base) (hle : base ≤ 16)
    (hn : n < bound) (hwidth : bound ≤ Nat.pow base (width + 1))
    (hrest : ∀ c ∈ rest.head?, Digits.isDigit base c = false) :
    number base (width + 1) bound (Digits.inBase base n ++ rest) = some (n, rest) := by
  have hdigits := List.all_eq_true.1 (Digits.all_isDigit_inBase hbase hle n)
  have hlength := Digits.length_inBase_le hbase (Nat.lt_of_lt_of_le hn hwidth)
  rw [number, Digits.span_append hdigits hrest]
  simp only [Digits.toNat_inBase hbase hle]
  refine if_neg ?_
  rintro (hnil | hlong | hlarge)
  · exact Digits.inBase_ne_nil base n hnil
  · omega
  · omega

/-- A prefix length at the end of a text is read. -/
theorem prefixAtEnd_text {width bound n : Nat} (hn : n < bound)
    (hwidth : bound ≤ Nat.pow 10 (width + 1)) :
    prefixAtEnd (width + 1) bound ('/' :: Digits.ofNat n) = some n := by
  have hnumber : number 10 (width + 1) bound (Digits.ofNat n) = some (n, []) := by
    have hrest : ∀ c ∈ ([] : List Char).head?, Digits.isDigit 10 c = false := fun c hc => by
      cases hc
    have h := number_inBase_append (by decide) (by decide) hn hwidth hrest
    rwa [List.append_nil] at h
  simp only [prefixAtEnd, behind_self, if_true, hnumber, bind, Option.bind_some]

theorem isDigit_slash : ∀ c ∈ ('/' :: rest).head?, Digits.isDigit 10 c = false := by
  rintro _ ⟨⟩
  decide

/-- Numbers with a separator of one character between them, as characters. -/
theorem toList_separated_cons {sep : String} {c : Char} (hsep : sep.toList = [c]) (base n : Nat)
    (ns : List Nat) : (separated sep base (n :: ns)).toList =
      Digits.inBase base n ++ ns.flatMap fun m => c :: Digits.inBase base m := by
  rw [separated, String.toList_intercalate, hsep]
  induction ns generalizing n with
  | nil => simp
  | cons m ns ih =>
      simp only [List.map_cons, List.intercalate_cons_cons, String.toList_ofList] at ih ⊢
      rw [ih, List.flatMap_cons, List.append_assoc]
      rfl

/-! ### Octets -/

/-- Octets with dots between them are read. -/
theorem dotted_append {n : Nat} {ns : List Nat} (hn : n < 256) (hns : ∀ a ∈ ns, a < 256)
    (hrest : ∀ c ∈ rest.head?, Digits.isDigit 10 c = false) :
    dotted ns.length
      (Digits.inBase 10 n ++ ((ns.flatMap fun m => '.' :: Digits.inBase 10 m) ++ rest)) =
        some (n :: ns, rest) := by
  induction ns generalizing n with
  | nil =>
      rw [List.flatMap_nil, List.nil_append, List.length_nil, dotted,
        number_inBase_append (by decide) (by decide) hn (by decide) hrest]
      rfl
  | cons m ns ih =>
      obtain ⟨hm, hns⟩ := List.forall_mem_cons.1 hns
      have hdot : ∀ c ∈ ('.' :: (Digits.inBase 10 m ++ ((ns.flatMap fun m =>
          '.' :: Digits.inBase 10 m) ++ rest))).head?, Digits.isDigit 10 c = false := by
        rintro _ ⟨⟩
        decide
      rw [List.flatMap_cons, List.cons_append, List.cons_append, List.append_assoc,
        List.length_cons, dotted, number_inBase_append (by decide) (by decide) hn (by decide) hdot]
      simp only [bind, Option.bind_some, behind_self, ih hm hns, pure]

/-- **Octets in dotted notation are read.** -/
theorem octets?_append {octets : List Nat} (hlength : octets.length = 4)
    (hsmall : ∀ a ∈ octets, a < 256) (hrest : ∀ c ∈ rest.head?, Digits.isDigit 10 c = false) :
    octets? ((separated "." 10 octets).toList ++ rest) = some (octets, rest) := by
  cases octets with
  | nil => cases hlength
  | cons n ns =>
      obtain ⟨hn, hns⟩ := List.forall_mem_cons.1 hsmall
      have hthree : ns.length = 3 := Nat.succ.inj hlength
      rw [toList_separated_cons (c := '.') rfl, List.append_assoc, octets?, ← hthree,
        dotted_append hn hns hrest]

/-- No octets stand where there is a character other than a dot behind the digits. -/
theorem octets?_eq_none (h : behind '.' (cs.dropWhile (Digits.isDigit 10)) = none) :
    octets? cs = none := by
  have hnumber : ∀ n rest, number 10 3 256 cs = some (n, rest) → behind '.' rest = none := by
    intro n rest hn
    obtain ⟨-, hn⟩ := Option.ite_none_left_eq_some.1 hn
    obtain ⟨-, rfl⟩ := Prod.mk.inj (Option.some.inj hn)
    exact h
  rw [octets?, dotted]
  cases hn : number 10 3 256 cs with
  | none => rfl
  | some x => simp only [bind, Option.bind_some, hnumber _ _ hn, Option.bind_none]

/-- **Where a group ends**: what is behind it neither goes on with its digits nor makes an octet of
it. -/
structure EndsGroup (rest : List Char) : Prop where
  noDigit : ∀ c ∈ rest.head?, Digits.isDigit 16 c = false
  noDot : rest.head? ≠ some '.'

/-- Behind the decimal digits at the front of a group there is no dot, if there is none behind the
group. -/
theorem behind_dropWhile {digits : List Char}
    (hdigits : ∀ c ∈ digits, Digits.isDigit 16 c = true) (hrest : EndsGroup rest) :
    behind '.' ((digits ++ rest).dropWhile (Digits.isDigit 10)) = none := by
  induction digits with
  | nil =>
      cases rest with
      | nil => rfl
      | cons c rest =>
          have hten : ¬ Digits.isDigit 10 c = true := fun h =>
            absurd (Digits.isDigit_of_le (by decide : 10 ≤ 16) h) (by simp [hrest.noDigit c rfl])
          rw [List.nil_append, List.dropWhile_cons_of_neg hten]
          exact if_neg fun h => hrest.noDot (congrArg some h)
  | cons c digits ih =>
      obtain ⟨hc, hdigits⟩ := List.forall_mem_cons.1 hdigits
      by_cases hten : Digits.isDigit 10 c = true
      · rw [List.cons_append, List.dropWhile_cons_of_pos hten, ih hdigits]
      · rw [List.cons_append, List.dropWhile_cons_of_neg hten]
        refine if_neg ?_
        rintro rfl
        exact absurd hc (by decide)

/-- A group is not taken for an octet. -/
theorem octets?_inBase_append (g : Nat) (hrest : EndsGroup rest) :
    octets? (Digits.inBase 16 g ++ rest) = none :=
  octets?_eq_none (behind_dropWhile
    (List.all_eq_true.1 (Digits.all_isDigit_inBase (by decide) (by decide) g)) hrest)

/-! ### Groups -/

/-- **Where the groups end**: no other one can be read there, with a colon before it or without. -/
structure EndsGroups (rest : List Char) : Prop extends EndsGroup rest where
  noGroup : ∀ more, behind ':' rest = some more → ∀ c ∈ more.head?, Digits.isDigit 16 c = false

theorem number_eq_none {base most bound : Nat}
    (h : ∀ c ∈ cs.head?, Digits.isDigit base c = false) : number base most bound cs = none := by
  refine if_pos (.inl ?_)
  cases cs with
  | nil => rfl
  | cons c cs => exact List.takeWhile_cons_of_neg (by simp [h c rfl])

/-- No group is read where no digit is due. -/
theorem groups_eq_nil (most : Nat) {first : Bool}
    (h : ∀ here, (if first then some cs else behind ':' cs) = some here →
      ∀ c ∈ here.head?, Digits.isDigit 16 c = false) : groups most first cs = ([], false, cs) := by
  cases most with
  | zero => rfl
  | succ most =>
      cases hdue : if first then some cs else behind ':' cs with
      | none => simp only [groups, hdue, Option.bind_none, ite_self]
      | some here =>
          have hten : ∀ c ∈ here.head?, Digits.isDigit 10 c = false := fun c hc =>
            Bool.eq_false_iff.2 fun hten => absurd (Digits.isDigit_of_le (by decide) hten)
              (Bool.eq_false_iff.1 (h here hdue c hc))
          have hoctets : octets? here = none := by
            rw [octets?, dotted, number_eq_none hten]
            rfl
          simp only [groups, hdue, Option.bind_some, hoctets, number_eq_none (h here hdue),
            ite_self]

theorem EndsGroups.groups_eq (h : EndsGroups rest) (most : Nat) (first : Bool) :
    groups most first rest = ([], false, rest) := by
  refine groups_eq_nil most fun here hdue => ?_
  cases first with
  | true => exact Option.some.inj hdue ▸ h.noDigit
  | false => exact h.noGroup here hdue

theorem endsGroups_slash (rest : List Char) : EndsGroups ('/' :: rest) where
  noDigit := by
    rintro _ ⟨⟩
    decide
  noDot := by rintro ⟨⟩
  noGroup := by rintro _ ⟨⟩

theorem endsGroup_colon (rest : List Char) : EndsGroup (':' :: rest) where
  noDigit := by
    rintro _ ⟨⟩
    decide
  noDot := by rintro ⟨⟩

theorem endsGroups_colons (rest : List Char) : EndsGroups (':' :: ':' :: rest) where
  toEndsGroup := endsGroup_colon _
  noGroup := by
    rintro _ ⟨⟩ _ ⟨⟩
    decide

/-- Groups with a colon before each of them. -/
def colons (gs : List Nat) : List Char := gs.flatMap fun g => ':' :: Digits.inBase 16 g

theorem colons_cons (g : Nat) (gs : List Nat) :
    colons (g :: gs) = ':' :: (Digits.inBase 16 g ++ colons gs) := List.flatMap_cons

theorem EndsGroup.colons (hrest : EndsGroup rest) (gs : List Nat) :
    EndsGroup (colons gs ++ rest) := by
  cases gs with
  | nil => exact hrest
  | cons g gs =>
      rw [colons_cons]
      exact endsGroup_colon _

/-- A group is read if it is due and there is room for it. -/
theorem groups_succ {most g : Nat} {first : Bool}
    (hdue : (if first then some cs else behind ':' cs) = some (Digits.inBase 16 g ++ rest))
    (hg : g < 0x10000) (hrest : EndsGroup rest) :
    groups (most + 1) first cs =
      (g :: (groups most false rest).1, (groups most false rest).2) := by
  have hnumber := number_inBase_append (by decide) (by decide : 16 ≤ 16) hg
    (by decide : 0x10000 ≤ Nat.pow 16 (3 + 1)) hrest.noDigit
  simp only [groups, hdue, Option.bind_some, octets?_inBase_append g hrest, hnumber, ite_self]

theorem groups_colons {most : Nat} {gs : List Nat} (hmost : gs.length ≤ most)
    (hsmall : ∀ g ∈ gs, g < 0x10000) (hrest : EndsGroups rest) :
    groups most false (colons gs ++ rest) = (gs, false, rest) := by
  induction gs generalizing most with
  | nil => exact hrest.groups_eq most false
  | cons g gs ih =>
      obtain ⟨hg, hsmall⟩ := List.forall_mem_cons.1 hsmall
      cases most with
      | zero => cases hmost
      | succ most =>
          have hdue : (if false then some (colons (g :: gs) ++ rest)
              else behind ':' (colons (g :: gs) ++ rest)) =
              some (Digits.inBase 16 g ++ (colons gs ++ rest)) := by
            rw [if_neg Bool.false_ne_true, colons_cons, List.cons_append, List.append_assoc,
              behind_self]
          rw [groups_succ hdue hg (hrest.toEndsGroup.colons gs),
            ih (Nat.le_of_succ_le_succ hmost) hsmall]

/-- The text of groups with colons between them. -/
theorem toList_separated_colon (g : Nat) (gs : List Nat) :
    (separated ":" 16 (g :: gs)).toList = Digits.inBase 16 g ++ colons gs :=
  toList_separated_cons rfl 16 g gs

/-- **Groups with colons between them are read.** -/
theorem groups_separated {most : Nat} {gs : List Nat} (hmost : gs.length ≤ most)
    (hsmall : ∀ g ∈ gs, g < 0x10000) (hrest : EndsGroups rest) :
    groups most true ((separated ":" 16 gs).toList ++ rest) = (gs, false, rest) := by
  cases gs with
  | nil => exact hrest.groups_eq most true
  | cons g gs =>
      obtain ⟨hg, hsmall⟩ := List.forall_mem_cons.1 hsmall
      cases most with
      | zero => cases hmost
      | succ most =>
          rw [toList_separated_colon, List.append_assoc,
            groups_succ rfl hg (hrest.toEndsGroup.colons gs),
            groups_colons (Nat.le_of_succ_le_succ hmost) hsmall hrest]

/-! ### The longest run of zeros -/

theorem replicate_zerosAtFront_append (gs : List Nat) :
    List.replicate (zerosAtFront gs) 0 ++ gs.dropWhile (· == 0) = gs := by
  have hzeros : gs.takeWhile (· == 0) = List.replicate (zerosAtFront gs) 0 :=
    List.eq_replicate_iff.2
      ⟨rfl, fun g hg => eq_of_beq (List.all_eq_true.1 List.all_takeWhile g hg)⟩
  rw [← hzeros, List.takeWhile_append_dropWhile]

/-- **The run that is left out is a run of zeros**, at the place that is told. -/
theorem exists_longestZeros (gs : List Nat) :
    ∃ front back, gs = front ++ (List.replicate (longestZeros gs).2 0 ++ back) ∧
      front.length = (longestZeros gs).1 := by
  induction gs with
  | nil => exact ⟨[], [], rfl, rfl⟩
  | cons g gs ih =>
      rw [longestZeros]
      dsimp only
      split
      next => exact ⟨[], _, (replicate_zerosAtFront_append (g :: gs)).symm, rfl⟩
      next =>
        obtain ⟨front, back, hgs, hlength⟩ := ih
        exact ⟨g :: front, back, congrArg (g :: ·) hgs, congrArg (· + 1) hlength⟩

/-! ### Networks -/

/-- Eight groups are read from their text without an omission. -/
theorem groups?_separated {gs : List Nat} (hlength : gs.length = 8)
    (hsmall : ∀ g ∈ gs, g < 0x10000) (hrest : EndsGroups rest) :
    groups? ((separated ":" 16 gs).toList ++ rest) = some (gs, rest) := by
  simp only [groups?, groups_separated (Nat.le_of_eq hlength) hsmall hrest, hlength, if_true]

/-- **Two colons stand for the zeros that are missing.** -/
theorem groups?_of_groups {front back : List Nat} {dots : Bool} {more : List Char}
    (hfront : groups 8 true cs = (front, false, ':' :: ':' :: more))
    (hback : groups (8 - front.length) true more = (back, dots, rest)) (hshort : front.length < 8) :
    groups? cs = some
      (front ++ List.replicate (8 - front.length - back.length) 0 ++ back, rest) := by
  simp only [groups?, hfront, hback, if_neg (Nat.ne_of_lt hshort), Bool.false_eq_true, if_false,
    behind_self, bind, Option.bind_some, pure]

/-- No octets are read from what starts with a group or with a colon. -/
theorem octets?_separated (gs : List Nat) (hrest : EndsGroup rest) :
    octets? ((separated ":" 16 gs).toList ++ rest) = none := by
  cases gs with
  | nil =>
      have hnone : behind '.' (([] ++ rest).dropWhile (Digits.isDigit 10)) = none :=
        behind_dropWhile (fun _ h => absurd h List.not_mem_nil) hrest
      exact octets?_eq_none hnone
  | cons g gs =>
      rw [toList_separated_colon, List.append_assoc]
      exact octets?_inBase_append g (hrest.colons gs)

/-- Octets in the place of the last two groups are read. -/
theorem groups_octets {octets : List Nat} {most : Nat} (hlength : octets.length = 4)
    (hsmall : ∀ a ∈ octets, a < 256) (hrest : ∀ c ∈ rest.head?, Digits.isDigit 10 c = false) :
    groups (most + 2) false (':' :: ((separated "." 10 octets).toList ++ rest)) =
      (pairUp octets, true, rest) := by
  rw [groups]
  simp only [Bool.false_eq_true, if_false, behind_self, Nat.succ_pos, if_true, Option.bind_some,
    octets?_append hlength hsmall hrest]

/-- The octets of two groups make up these groups. -/
theorem pairUp_splitGroup {g h : Nat} (hg : g < 0x10000) (hh : h < 0x10000) :
    (∀ a ∈ splitGroup g ++ splitGroup h, a < 256) ∧
      pairUp (splitGroup g ++ splitGroup h) = [g, h] := by
  simp only [splitGroup, List.cons_append, List.nil_append, pairUp, Nat.div_add_mod', and_true,
    List.forall_mem_cons]
  exact ⟨by omega, by omega, by omega, by omega, fun _ h => absurd h List.not_mem_nil⟩

/-- The last groups of an address that carries one of version 4. -/
theorem groups_mapped {g h : Nat} (hg : g < 0x10000) (hh : h < 0x10000) (more : List Char) :
    groups 8 true (Digits.inBase 16 0xFFFF ++
        ':' :: ((separated "." 10 (splitGroup g ++ splitGroup h)).toList ++ '/' :: more)) =
      ([0xFFFF, g, h], true, '/' :: more) := by
  obtain ⟨hbytes, hpair⟩ := pairUp_splitGroup hg hh
  rw [groups_succ rfl (by decide) (endsGroup_colon _), groups_octets rfl hbytes isDigit_slash,
    hpair]

/-- **How an address of version 6 is shown**: with one of version 4 at its end, with all of its
groups, or with two colons for a run of zeros. -/
inductive IsShownAs : List Nat → List Char → Prop
  | mapped (g h : Nat) : IsShownAs [0, 0, 0, 0, 0, 0xFFFF, g, h] (':' :: ':' ::
      (Digits.inBase 16 0xFFFF ++
        ':' :: (separated "." 10 (splitGroup g ++ splitGroup h)).toList))
  | whole (gs : List Nat) : IsShownAs gs (separated ":" 16 gs).toList
  | short {front back : List Nat} (room : front.length + back.length < 8) :
      IsShownAs (front ++ List.replicate (8 - front.length - back.length) 0 ++ back)
        ((separated ":" 16 front).toList ++ ':' :: ':' :: (separated ":" 16 back).toList)

theorem inBase_ffff : Digits.inBase 16 0xFFFF = "ffff".toList := by decide +kernel

/-- A run of zeros is left out. -/
theorem IsShownAs.of_run {gs front back : List Nat} {length : Nat} (hgs8 : gs.length = 8)
    (hgs : gs = front ++ (List.replicate length 0 ++ back)) (hlong : length ≠ 0) :
    IsShownAs gs
      ((separated ":" 16 front).toList ++ ':' :: ':' :: (separated ":" 16 back).toList) := by
  have hcount := congrArg List.length hgs
  rw [List.length_append, List.length_append, List.length_replicate] at hcount
  have hzeros : length = 8 - front.length - back.length := by omega
  rw [hgs, hzeros, ← List.append_assoc]
  exact .short (by omega)

theorem isShownAs_groupsText {gs : List Nat} (hlength : gs.length = 8) :
    IsShownAs gs (groupsText gs).toList := by
  rw [groupsText]
  split
  next htake =>
    obtain ⟨g, h, hdrop⟩ : ∃ g h, gs.drop 6 = [g, h] := by
      have hdrop : (gs.drop 6).length = 2 := by rw [List.length_drop, hlength]
      match gs.drop 6, hdrop with
      | [g, h], _ => exact ⟨g, h, rfl⟩
    have hgs : gs = [0, 0, 0, 0, 0, 0xFFFF, g, h] := by
      rw [← List.take_append_drop 6 gs, htake, hdrop]
      rfl
    have hshown := IsShownAs.mapped g h
    rw [inBase_ffff] at hshown
    rw [hdrop, hgs, String.toList_append]
    exact hshown
  next =>
    obtain ⟨front, back, hgs, hfront⟩ := exists_longestZeros gs
    revert hgs hfront
    rcases longestZeros gs with ⟨start, length⟩
    rintro hgs hfront
    dsimp only at hgs hfront ⊢
    split
    next => exact .whole gs
    next hlong =>
      have hrun : (front ++ List.replicate length 0).length = start + length := by
        rw [List.length_append, List.length_replicate, hfront]
      have htake : gs.take start = front := by rw [hgs, List.take_left' hfront]
      have hdrop : gs.drop (start + length) = back := by
        rw [hgs, ← List.append_assoc, List.drop_left' hrun]
      rw [htake, hdrop, String.toList_append, String.toList_append, List.append_assoc]
      exact .of_run hlength hgs (by omega)

/-- **What an address is shown as is read as its groups.** -/
theorem IsShownAs.groups?_append {gs : List Nat} (h : IsShownAs gs cs) (hlength : gs.length = 8)
    (hsmall : ∀ g ∈ gs, g < 0x10000) (more : List Char) :
    groups? (cs ++ '/' :: more) = some (gs, '/' :: more) := by
  have hslash := endsGroups_slash more
  cases h with
  | mapped g h =>
      simp only [List.forall_mem_cons] at hsmall
      obtain ⟨-, -, -, -, -, -, hg, hh, -⟩ := hsmall
      rw [List.cons_append, List.cons_append, List.append_assoc, List.cons_append]
      exact groups?_of_groups ((endsGroups_colons _).groups_eq 8 true) (groups_mapped hg hh more)
        (by decide)
  | whole => exact groups?_separated hlength hsmall hslash
  | @short front back room =>
      simp only [List.forall_mem_append] at hsmall
      obtain ⟨⟨hfront, -⟩, hback⟩ := hsmall
      rw [List.append_assoc]
      exact groups?_of_groups
        (groups_separated (by omega) hfront (endsGroups_colons _))
        (groups_separated (by omega) hback hslash) (by omega)

/-- It is not taken for an address of version 4. -/
theorem IsShownAs.octets?_append {gs : List Nat} (h : IsShownAs gs cs) (more : List Char) :
    octets? (cs ++ '/' :: more) = none := by
  have hcolons : ∀ cs, octets? (':' :: ':' :: cs) = none := fun cs =>
    octets?_separated [] (endsGroups_colons cs).toEndsGroup
  cases h with
  | mapped g h => exact hcolons _
  | whole => exact octets?_separated gs (endsGroups_slash more).toEndsGroup
  | @short front back room =>
      rw [List.append_assoc]
      exact octets?_separated front (endsGroups_colons _).toEndsGroup

theorem toList_append_prefix (address : String) (n : Nat) :
    (address ++ "/" ++ Digits.text n).toList = address.toList ++ '/' :: Digits.ofNat n := by
  rw [String.toList_append, String.toList_append, List.append_assoc, Digits.toList_text]
  rfl

/-- **The text of a network that was read is read as that network.** -/
theorem ofString?_toString {s : String} {n : Network} (h : ofString? s = some n) :
    ofString? n.toString = some n := by
  rw [ofString?, ofChars?, Option.orElse_eq_orElse, Option.orElse_eq_or]
  cases isProper_of_ofString? h with
  | @v4 octets n hlength hsmall inside =>
      rw [toString, toList_append_prefix, octets?_append hlength hsmall isDigit_slash]
      simp only [bind, Option.bind_some, prefixAtEnd_text inside (by decide : 33 ≤ Nat.pow 10 (1 + 1)),
        pure, Option.some_or]
  | @v6 groups n hlength hsmall inside =>
      have hshown := isShownAs_groupsText hlength
      rw [toString, toList_append_prefix, hshown.octets?_append,
        hshown.groups?_append hlength hsmall]
      simp only [bind, Option.bind_some, Option.bind_none, Option.none_or,
        prefixAtEnd_text inside (by decide : 129 ≤ Nat.pow 10 (2 + 1)), pure]

end Network

end CaptureConfig

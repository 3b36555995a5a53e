/-
**The grammar of identifiers.**

A text is read as a UUID in one of four forms, which are recognised by passes over its characters,
and is an identifier if the UUID is written back as that text, up to capitals.  Here the forms are
told as texts are built: groups of hexadecimal digits with hyphens between the groups, the same
digits without hyphens, and the hyphenated form between braces or behind the head of a uniform
resource name.  Only the first of them has the length of what is written back, and there every digit
is written back in its place.

Main definitions:

* `Identifier.IsHyphenated` — groups of 8, 4, 4, 4 and 12 digits with hyphens between them;
* `Identifier.IsUuid` — that form and the variants that are known but not accepted.

Main results:

* `Identifier.isHyphenated_iff`, `Identifier.isSome_ofChars?_iff` — **what is read is the grammar**;
* `Identifier.hyphenated_eq_iff` — **a UUID is written back as the text that it was read from
  exactly in the hyphenated form**;
* `Identifier.ofText_eq_ok_iff`, `Identifier.ofText_eq_error_iff` — when a text gives an
  identifier, and why it does not.
-/

import CaptureConfig.Identifier
import CaptureConfig.Proofs.Blank
import CaptureConfig.Proofs.Number.Digits

set_option relaxedAutoImplicit false
set_option autoImplicit false

namespace CaptureConfig

namespace Identifier

/-! ### Hexadecimal digits -/

/-- A hexadecimal digit, in either case. -/
def IsHex (c : Char) : Prop :=
  ('0' ≤ c ∧ c ≤ '9') ∨ ('a' ≤ c ∧ c ≤ 'f') ∨ ('A' ≤ c ∧ c ≤ 'F')

theorem le_iff_toNat_le (a b : Char) : a ≤ b ↔ a.toNat ≤ b.toNat := Iff.rfl

theorem isDigit_sixteen_iff (c : Char) : Digits.isDigit 16 c = true ↔ IsHex c := by
  simp only [Digits.isDigit, Digits.value?, Digits.hexValue?, IsHex, le_iff_toNat_le]
  have h0 : '0'.toNat = 0x30 := rfl
  have h9 : '9'.toNat = 0x39 := rfl
  have ha : 'a'.toNat = 0x61 := rfl
  have hf : 'f'.toNat = 0x66 := rfl
  have hA : 'A'.toNat = 0x41 := rfl
  have hF : 'F'.toNat = 0x46 := rfl
  rw [h0, h9, ha, hf, hA, hF]
  split
  · simp [Option.filter]; omega
  · split
    · simp [Option.filter]; omega
    · split <;> simp [Option.filter] <;> omega

theorem all_isDigit_iff (cs : List Char) :
    cs.all (Digits.isDigit 16) = true ↔ ∀ c ∈ cs, IsHex c := by
  rw [List.all_eq_true]
  exact forall₂_congr fun c _ => isDigit_sixteen_iff c

/-! ### The hyphenated form -/

/-- **The hyphenated form**: groups of hexadecimal digits, with hyphens between the groups. -/
def IsHyphenated (cs : List Char) : Prop :=
  ∃ groups : List (List Char), groups.map List.length = [8, 4, 4, 4, 12] ∧
    (∀ g ∈ groups, ∀ c ∈ g, IsHex c) ∧ cs = ['-'].intercalate groups

/-- A character at its place: a hyphen behind the groups, a digit elsewhere. -/
def fitsAt (x : Char × Nat) : Bool :=
  if x.2 == 8 || x.2 == 13 || x.2 == 18 || x.2 == 23 then x.1 == '-' else Digits.isDigit 16 x.1

theorem isHyphenated_eq (cs : List Char) :
    isHyphenated cs = (cs.length == 36 && cs.zipIdx.all fitsAt) := rfl

/-- Digits fit wherever no hyphen belongs. -/
theorem all_fitsAt_group (g : List Char) (n : Nat)
    (h : ∀ i, n ≤ i → i < n + g.length → i ≠ 8 ∧ i ≠ 13 ∧ i ≠ 18 ∧ i ≠ 23) :
    (g.zipIdx n).all fitsAt = g.all (Digits.isDigit 16) := by
  induction g generalizing n with
  | nil => rfl
  | cons c g ih =>
      have hn := h n (Nat.le_refl n) (by simp)
      have hfit : fitsAt (c, n) = Digits.isDigit 16 c := by simp [fitsAt, hn]
      rw [List.zipIdx_cons, List.all_cons, List.all_cons, hfit,
        ih (n + 1) fun i hi hlt => h i (by omega) (by simp at hlt ⊢; omega)]

/-- The pass over five groups and the four characters between them. -/
theorem all_fitsAt_groups {a b c d e : List Char} (w x y z : Char) (ha : a.length = 8)
    (hb : b.length = 4) (hc : c.length = 4) (hd : d.length = 4) (he : e.length = 12) :
    (a ++ w :: (b ++ x :: (c ++ y :: (d ++ z :: e)))).zipIdx.all fitsAt = true ↔
      (w = '-' ∧ x = '-' ∧ y = '-' ∧ z = '-') ∧ ∀ g ∈ [a, b, c, d, e], ∀ c ∈ g, IsHex c := by
  -- the places 8, 13, 18 and 23 are those behind the groups
  have hyphen : ∀ c n, (n = 8 ∨ n = 13 ∨ n = 18 ∨ n = 23) → fitsAt (c, n) = (c == '-') := by
    intro c n hn
    rcases hn with rfl | rfl | rfl | rfl <;> rfl
  simp only [List.zipIdx_append, List.zipIdx_cons, List.all_append, List.all_cons, ha, hb, hc, hd]
  rw [all_fitsAt_group a 0 (by omega), all_fitsAt_group b _ (by omega),
    all_fitsAt_group c _ (by omega), all_fitsAt_group d _ (by omega),
    all_fitsAt_group e _ (by omega), hyphen w _ (by omega), hyphen x _ (by omega),
    hyphen y _ (by omega), hyphen z _ (by omega)]
  simp only [Bool.and_eq_true, all_isDigit_iff, beq_iff_eq, List.forall_mem_cons]
  constructor
  · rintro ⟨ga, rfl, gb, rfl, gc, rfl, gd, rfl, ge⟩
    exact ⟨⟨rfl, rfl, rfl, rfl⟩, ga, gb, gc, gd, ge, List.forall_mem_nil _⟩
  · rintro ⟨⟨rfl, rfl, rfl, rfl⟩, ga, gb, gc, gd, ge, -⟩
    exact ⟨ga, rfl, gb, rfl, gc, rfl, gd, rfl, ge⟩

/-- A list that is long enough is a group, one more character, and the rest. -/
theorem exists_group {n k : Nat} {cs : List Char} (h : cs.length = n + 1 + k) :
    ∃ g c rest, cs = g ++ c :: rest ∧ g.length = n ∧ rest.length = k := by
  have hn : n < cs.length := by omega
  refine ⟨cs.take n, cs[n], cs.drop (n + 1), ?_, by simp; omega, by simp; omega⟩
  rw [← List.drop_eq_getElem_cons hn, List.take_append_drop]

/-- **The pass over the characters recognises the hyphenated form.** -/
theorem isHyphenated_iff (cs : List Char) : isHyphenated cs = true ↔ IsHyphenated cs := by
  rw [isHyphenated_eq, Bool.and_eq_true, beq_iff_eq]
  constructor
  · rintro ⟨hlen, hall⟩
    -- any 36 characters are five groups and four characters between them
    obtain ⟨a, w, cs, rfl, ha, hcs⟩ := exists_group (n := 8) (k := 27) hlen
    obtain ⟨b, x, cs, rfl, hb, hcs⟩ := exists_group (n := 4) (k := 22) hcs
    obtain ⟨c, y, cs, rfl, hc, hcs⟩ := exists_group (n := 4) (k := 17) hcs
    obtain ⟨d, z, e, rfl, hd, he⟩ := exists_group (n := 4) (k := 12) hcs
    obtain ⟨⟨rfl, rfl, rfl, rfl⟩, hhex⟩ := (all_fitsAt_groups w x y z ha hb hc hd he).1 hall
    exact ⟨[a, b, c, d, e], by simp [ha, hb, hc, hd, he], hhex, by simp⟩
  · rintro ⟨groups, hlens, hhex, rfl⟩
    have h5 : groups.length = 5 := by simpa using congrArg List.length hlens
    obtain ⟨a, b, c, d, e, rfl⟩ : ∃ a b c d e, groups = [a, b, c, d, e] := by
      match groups, h5 with
      | [a, b, c, d, e], _ => exact ⟨a, b, c, d, e, rfl⟩
    simp only [List.map_cons, List.map_nil, List.cons.injEq, and_true] at hlens
    obtain ⟨ha, hb, hc, hd, he⟩ := hlens
    have hcs : ['-'].intercalate [a, b, c, d, e] =
        a ++ '-' :: (b ++ '-' :: (c ++ '-' :: (d ++ '-' :: e))) := by simp
    rw [hcs]
    exact ⟨by simp [ha, hb, hc, hd, he],
      (all_fitsAt_groups _ _ _ _ ha hb hc hd he).2 ⟨⟨rfl, rfl, rfl, rfl⟩, hhex⟩⟩

/-! ### The other forms -/

/-- The form without hyphens. -/
def IsSimple (cs : List Char) : Prop := cs.length = 32 ∧ ∀ c ∈ cs, IsHex c

/-- The hyphenated form between braces. -/
def IsBraced (cs : List Char) : Prop := ∃ h, IsHyphenated h ∧ cs = '\x7b' :: (h ++ ['\x7d'])

/-- The hyphenated form behind the head of a uniform resource name, in either case. -/
def IsUrn (cs : List Char) : Prop :=
  ∃ head h, head.map Char.toLower = "urn:uuid:".toList ∧ IsHyphenated h ∧ cs = head ++ h

/-- **A UUID in one of its known forms.** -/
def IsUuid (cs : List Char) : Prop :=
  IsHyphenated cs ∨ IsSimple cs ∨ IsBraced cs ∨ IsUrn cs

theorem isSimple_iff (cs : List Char) : isSimple cs = true ↔ IsSimple cs := by
  rw [isSimple, Bool.and_eq_true, beq_iff_eq, all_isDigit_iff, IsSimple]

theorem isBraced_iff (cs : List Char) : isBraced cs = true ↔ IsBraced cs := by
  simp only [isBraced, Bool.and_eq_true, beq_iff_eq, isHyphenated_iff, IsBraced]
  constructor
  · rintro ⟨⟨hhead, hlast⟩, hmid⟩
    obtain ⟨front, rfl⟩ := List.getLast?_eq_some_iff.1 hlast
    cases front with
    | nil => simp at hhead
    | cons c front =>
        obtain rfl : c = '\x7b' := by simpa using hhead
        exact ⟨front, by simpa using hmid, rfl⟩
  · rintro ⟨h, hh, rfl⟩
    refine ⟨⟨rfl, ?_⟩, by simpa using hh⟩
    rw [← List.cons_append, List.getLast?_concat]

theorem isUrn_iff (cs : List Char) : isUrn cs = true ↔ IsUrn cs := by
  simp only [isUrn, Bool.and_eq_true, beq_iff_eq, isHyphenated_iff, IsUrn]
  constructor
  · rintro ⟨hhead, hrest⟩
    exact ⟨cs.take 9, cs.drop 9, hhead, hrest, (List.take_append_drop 9 cs).symm⟩
  · rintro ⟨head, h, hhead, hh, rfl⟩
    have hlen : head.length = 9 := by simpa using congrArg List.length hhead
    rw [List.take_left' hlen, List.drop_left' hlen]
    exact ⟨hhead, hh⟩

/-! ### Reading a UUID -/

/-- Only the braces or the head is taken off a form, and then there are groups, or digits alone. -/
theorem body?_eq_some {cs body : List Char} (h : body? cs = some body) :
    IsSimple body ∨ IsHyphenated body := by
  rw [body?] at h
  split at h
  next hcs =>
    obtain rfl := Option.some.inj h
    rw [Bool.or_eq_true, isSimple_iff, isHyphenated_iff] at hcs
    exact hcs
  next =>
    split at h
    next hcs =>
      obtain rfl := Option.some.inj h
      rw [isBraced, Bool.and_eq_true, isHyphenated_iff] at hcs
      exact .inr hcs.2
    next =>
      obtain ⟨hcs, hbody⟩ := Option.ite_none_right_eq_some.1 h
      obtain rfl := Option.some.inj hbody
      rw [isUrn, Bool.and_eq_true, isHyphenated_iff] at hcs
      exact .inr hcs.2

theorem IsHyphenated.length_eq {cs : List Char} (h : IsHyphenated cs) : cs.length = 36 := by
  have hpass := (isHyphenated_iff cs).2 h
  rw [isHyphenated_eq, Bool.and_eq_true, beq_iff_eq] at hpass
  exact hpass.1

/-- The forms that are known are those of the grammar. -/
theorem isSome_body?_iff (cs : List Char) : (body? cs).isSome = true ↔ IsUuid cs := by
  have hsome : (body? cs).isSome = true ↔
      (isSimple cs = true ∨ isHyphenated cs = true) ∨ isBraced cs = true ∨ isUrn cs = true := by
    rw [body?]
    split
    next h => simp only [Option.isSome_some, true_iff]; exact .inl (by simpa using h)
    next h =>
      rw [Bool.or_eq_true] at h
      split
      next hb => simp [hb]
      next hb => split <;> simp [*]
  rw [hsome, isSimple_iff, isHyphenated_iff, isBraced_iff, isUrn_iff, IsUuid,
    or_comm (a := IsSimple cs), or_assoc]

/-- A digit is written back in a small letter. -/
theorem char_of_hexValue? {c : Char} {d : Nat} (hc : IsHex c) (h : Digits.hexValue? c = some d) :
    Digits.char d = c.toLower := by
  have hall : ∀ n < 0x67, (Digits.hexValue? (Char.ofNat n)).all
      (fun d => Digits.char d == (Char.ofNat n).toLower) = true := by decide
  have hlt : c.toNat < 0x67 :=
    Nat.lt_succ_of_le (Digits.toNat_of_isDigit ((isDigit_sixteen_iff c).2 hc)).2
  have hchar := hall c.toNat hlt
  rwa [Char.ofNat_toNat, h, Option.all_some, beq_iff_eq] at hchar

theorem exists_hexValue?_of_isHex {c : Char} (h : IsHex c) : ∃ d, Digits.hexValue? c = some d := by
  obtain ⟨d, hd⟩ := Option.isSome_iff_exists.1 ((isDigit_sixteen_iff c).2 h)
  exact ⟨d, (Option.filter_eq_some_iff.1 hd).1⟩

/-- Digits are written back in small letters. -/
theorem map_char_filterMap {cs : List Char} (h : ∀ c ∈ cs, IsHex c) :
    (cs.filterMap Digits.hexValue?).map Digits.char = cs.map Char.toLower := by
  induction cs with
  | nil => rfl
  | cons c cs ih =>
      obtain ⟨hc, hcs⟩ := List.forall_mem_cons.1 h
      obtain ⟨d, hd⟩ := exists_hexValue?_of_isHex hc
      rw [List.filterMap_cons_some hd, List.map_cons, char_of_hexValue? hc hd, ih hcs,
        List.map_cons]

/-- Hyphens are no digits. -/
theorem filterMap_intercalate (groups : List (List Char)) :
    (['-'].intercalate groups).filterMap Digits.hexValue? =
      groups.flatten.filterMap Digits.hexValue? := by
  induction groups with
  | nil => rfl
  | cons g rest ih =>
      cases rest with
      | nil => rw [List.intercalate_singleton, List.flatten_singleton]
      | cons g' rest =>
          have hhyphen : ['-'].filterMap Digits.hexValue? = [] := rfl
          rw [List.intercalate_cons_cons, List.filterMap_append, List.filterMap_append, ih, hhyphen,
            List.append_nil, ← List.filterMap_append, ← List.flatten_cons]

/-- A UUID in a known form has all its digits. -/
theorem length_filterMap {body : List Char} (h : IsSimple body ∨ IsHyphenated body) :
    (body.filterMap Digits.hexValue?).length = 32 := by
  obtain ⟨hlength, hhex⟩ | ⟨groups, hlengths, hhex, rfl⟩ := h
  · rw [← hlength, ← List.length_map (f := Digits.char), map_char_filterMap hhex, List.length_map]
  · have hflatten : ∀ c ∈ groups.flatten, IsHex c := List.forall_mem_flatten.2 hhex
    rw [filterMap_intercalate, ← List.length_map (f := Digits.char), map_char_filterMap hflatten,
      List.length_map, List.length_flatten, hlengths]
    rfl

/-- **The texts that are UUIDs are those of the grammar.** -/
theorem isSome_ofChars?_iff (cs : List Char) : (Uuid.ofChars? cs).isSome = true ↔ IsUuid cs := by
  rw [← isSome_body?_iff, Uuid.ofChars?]
  cases h : body? cs with
  | none => rfl
  | some body =>
      rw [Option.bind_some, Uuid.ofDigits?, dif_pos (length_filterMap (body?_eq_some h))]
      rfl

/-! ### Writing it back -/

/-- Lists that are put together are cut where they meet. -/
theorem cut_flatten {α : Type} (groups : List (List α)) :
    Uuid.cut (groups.map List.length) groups.flatten = groups := by
  induction groups with
  | nil => rfl
  | cons g rest ih =>
      rw [List.map_cons, Uuid.cut, List.flatten_cons, List.take_left, List.drop_left, ih]

theorem map_intercalate {α β : Type} (f : α → β) (sep : List α) (groups : List (List α)) :
    (sep.intercalate groups).map f = (sep.map f).intercalate (groups.map (List.map f)) := by
  induction groups with
  | nil => rfl
  | cons g rest ih =>
      cases rest with
      | nil => rw [List.map_singleton, List.intercalate_singleton, List.intercalate_singleton]
      | cons g' rest =>
          rw [List.intercalate_cons_cons, List.map_append, List.map_append, ih, List.map_cons,
            List.map_cons, List.map_cons, List.intercalate_cons_cons]

/-- **In the hyphenated form every digit is written back in its place.** -/
theorem hyphenated_of_isHyphenated {cs : List Char} {u : Uuid} (h : Uuid.ofChars? cs = some u)
    (hcs : IsHyphenated cs) : u.hyphenated = cs.map Char.toLower := by
  have hbody : body? cs = some cs := by
    rw [body?, if_pos (by rw [(isHyphenated_iff cs).2 hcs, Bool.or_true])]
  rw [Uuid.ofChars?, hbody, Option.bind_some, Uuid.ofDigits?, dif_pos (length_filterMap (.inr hcs))]
    at h
  obtain ⟨groups, hlengths, hhex, rfl⟩ := hcs
  have hflatten : ∀ c ∈ groups.flatten, IsHex c := List.forall_mem_flatten.2 hhex
  have hgroups : Uuid.groupLengths = (groups.map (List.map Char.toLower)).map List.length := by
    rw [List.map_map, Uuid.groupLengths, ← hlengths]
    exact List.map_congr_left fun g _ => (List.length_map Char.toLower).symm
  rw [← Option.some.inj h, Uuid.hyphenated]
  dsimp only
  rw [filterMap_intercalate, map_char_filterMap hflatten, List.map_flatten, hgroups, cut_flatten,
    map_intercalate]
  rfl

/-- What is written back has 36 characters. -/
theorem length_hyphenated (u : Uuid) : u.hyphenated.length = 36 := by
  simp [Uuid.hyphenated, Uuid.groupLengths, Uuid.cut, u.length_digits]

/-- **A UUID is written back as the text that it was read from, up to capitals, exactly in the
hyphenated form.** -/
theorem hyphenated_eq_iff {cs : List Char} {u : Uuid} (h : Uuid.ofChars? cs = some u) :
    u.hyphenated = cs.map Char.toLower ↔ IsHyphenated cs := by
  refine ⟨fun heq => ?_, hyphenated_of_isHyphenated h⟩
  have hlength : cs.length = 36 := by
    rw [← length_hyphenated u, heq, List.length_map]
  -- The other forms are shorter or longer.
  have hform : IsUuid cs := (isSome_ofChars?_iff cs).1 (by rw [h]; rfl)
  obtain hs | ⟨hs, -⟩ | ⟨body, hbody, rfl⟩ | ⟨head, body, hhead, hbody, rfl⟩ := hform
  · exact hs
  · omega
  · have hbody := hbody.length_eq
    rw [List.length_cons, List.length_append, List.length_singleton] at hlength
    omega
  · have hbody := hbody.length_eq
    have hhead : head.length = 9 := by simpa using congrArg List.length hhead
    rw [List.length_append] at hlength
    omega

/-! ### Accepted and refused texts -/

/-- **Why a text is refused**: it is missing or blank, or what is left of it without the blanks
around it is no UUID, or one in another form. -/
inductive Refused : Option String → Fault → Prop
  | missing {given : Option String} (absent : ¬ Text.IsPresent given) : Refused given .missing
  | notUuid {s : String} (present : Text.trim s ≠ "") (unknown : ¬ IsUuid (Text.trim s).toList) :
      Refused (some s) (.notUuid (Text.trim s))
  | notHyphenated {s : String} (known : IsUuid (Text.trim s).toList)
      (other : ¬ IsHyphenated (Text.trim s).toList) :
      Refused (some s) (.notHyphenated (Text.trim s))

@[simp] theorem ofText_none : ofText none = .error .missing := rfl

theorem ofText_some (s : String) : ofText (some s) =
    if Text.trim s = "" then .error .missing
    else if isHyphenated (Text.trim s).toList then .ok (Text.trim s)
    else if (Uuid.ofChars? (Text.trim s).toList).isSome then .error (.notHyphenated (Text.trim s))
    else .error (.notUuid (Text.trim s)) := by
  change (if Text.trim s = "" then _ else _) = _
  split
  next => rfl
  next =>
    cases h : Uuid.ofChars? (Text.trim s).toList with
    | none =>
        have hpass : ¬ isHyphenated (Text.trim s).toList = true := fun hpass => by
          have hsome := (isSome_ofChars?_iff _).2 (.inl ((isHyphenated_iff _).1 hpass))
          rw [h] at hsome
          cases hsome
        rw [if_neg hpass]
        rfl
    | some u =>
        have hback := (hyphenated_eq_iff h).trans (isHyphenated_iff _).symm
        simp only [hback]
        rfl

theorem trim_ne_empty_of_isUuid {s : String} (h : IsUuid (Text.trim s).toList) :
    Text.trim s ≠ "" := by
  intro hs
  rw [hs, ← isSome_ofChars?_iff] at h
  exact absurd h (by decide)

/-- **A text gives an identifier exactly in the hyphenated form**, and then the identifier is the
text without the blanks around it. -/
theorem ofText_eq_ok_iff {given : Option String} {t : String} : ofText given = .ok t ↔
    ∃ s, given = some s ∧ t = Text.trim s ∧ IsHyphenated (Text.trim s).toList := by
  cases given with
  | none => simp
  | some s =>
      rw [ofText_some]
      constructor
      · intro h
        split at h
        · exact absurd h (by simp)
        · split at h
          next hs => exact ⟨s, rfl, (Except.ok.inj h).symm, (isHyphenated_iff _).1 hs⟩
          next => split at h <;> exact absurd h (by simp)
      · rintro ⟨s, ⟨⟩, rfl, hs⟩
        rw [if_neg (trim_ne_empty_of_isUuid (.inl hs)), if_pos ((isHyphenated_iff _).2 hs)]

/-- **A text is refused for the reason that holds of it.** -/
theorem ofText_eq_error_iff {given : Option String} {f : Fault} :
    ofText given = .error f ↔ Refused given f := by
  constructor
  · intro h
    cases given with
    | none => exact Except.error.inj h ▸ .missing Text.not_isPresent_none
    | some s =>
        rw [ofText_some] at h
        split at h
        next hs => exact Except.error.inj h ▸ .missing (by simp [hs])
        next hs =>
          split at h
          · exact absurd h (by simp)
          next hh =>
            rw [isHyphenated_iff] at hh
            split at h
            next hu => exact Except.error.inj h ▸ .notHyphenated ((isSome_ofChars?_iff _).1 hu) hh
            next hu => exact Except.error.inj h ▸ .notUuid hs (mt (isSome_ofChars?_iff _).2 hu)
  · intro h
    cases h with
    | missing absent =>
        cases given with
        | none => rfl
        | some s =>
            rw [Text.isPresent_some, ne_eq, Decidable.not_not] at absent
            rw [ofText_some, if_pos absent]
    | notUuid present unknown =>
        have other : ¬ IsHyphenated (Text.trim _).toList := fun h => unknown (.inl h)
        rw [ofText_some, if_neg present, if_neg (mt (isHyphenated_iff _).1 other),
          if_neg (mt (isSome_ofChars?_iff _).1 unknown)]
    | notHyphenated known other =>
        rw [ofText_some, if_neg (trim_ne_empty_of_isUuid known),
          if_neg (mt (isHyphenated_iff _).1 other), if_pos ((isSome_ofChars?_iff _).2 known)]

end Identifier

end CaptureConfig

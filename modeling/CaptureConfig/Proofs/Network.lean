/-
**What a network is written with.**

The reading of a network takes its text from the front, piece by piece, and must come to the end of
it.  Each piece is made of digits, or is one of the three marks between them.  So there is neither a
blank nor a line break in the text of a network: taking the blanks off its ends cannot make a
network of several lines.

Main definitions:

* `Network.isLetter` — the characters that networks are written with;
* `Network.Reads` — what is read at the front of a text is made of them.

Main results:

* `Network.isLetter_of_ofChars?` — **a network is written with them alone**;
* `Network.isBlank_of_ofString?` — there is no blank in the text of a network.
-/

import CaptureConfig.Network
import CaptureConfig.Proofs.Number.Digits
import CaptureConfig.Text.Blank

set_option relaxedAutoImplicit false
set_option autoImplicit false

namespace CaptureConfig

namespace Network

/-- **The characters that networks are written with.** -/
def isLetter (c : Char) : Bool := Digits.isDigit 16 c || c == '.' || c == ':' || c == '/'

/-- What is read at the front of a text, up to what is left of it, is made of these characters. -/
def Reads (cs rest : List Char) : Prop := ∃ front, cs = front ++ rest ∧ ∀ c ∈ front, isLetter c

theorem Reads.refl (cs : List Char) : Reads cs cs := ⟨[], rfl, fun _ h => absurd h List.not_mem_nil⟩

theorem Reads.trans {cs ds es : List Char} (h : Reads cs ds) (h' : Reads ds es) : Reads cs es := by
  obtain ⟨front, rfl, hfront⟩ := h
  obtain ⟨front', rfl, hfront'⟩ := h'
  exact ⟨front ++ front', (List.append_assoc _ _ _).symm,
    List.forall_mem_append.2 ⟨hfront, hfront'⟩⟩

/-! ### Pieces -/

theorem isLetter_of_isDigit {base : Nat} (hbase : base ≤ 16) {c : Char}
    (h : Digits.isDigit base c = true) : isLetter c = true := by
  simp [isLetter, Digits.isDigit_of_le hbase h]

variable {cs rest : List Char}

theorem reads_of_number {base most bound n : Nat} (hbase : base ≤ 16)
    (h : number base most bound cs = some (n, rest)) : Reads cs rest := by
  obtain ⟨-, h⟩ := Option.ite_none_left_eq_some.1 h
  obtain ⟨-, rfl⟩ := Prod.mk.inj (Option.some.inj h)
  refine ⟨_, List.takeWhile_append_dropWhile.symm, fun c hc => isLetter_of_isDigit hbase ?_⟩
  exact List.all_eq_true.1 List.all_takeWhile c hc

theorem reads_of_behind {c : Char} (hc : isLetter c = true) (h : behind c cs = some rest) :
    Reads cs rest := by
  cases cs with
  | nil => cases h
  | cons d cs =>
      simp only [behind, Option.ite_none_right_eq_some, Option.some.injEq] at h
      obtain ⟨rfl, rfl⟩ := h
      exact ⟨[d], rfl, List.forall_mem_singleton.2 hc⟩

theorem reads_of_dotted {k : Nat} {ns : List Nat} (h : dotted k cs = some (ns, rest)) :
    Reads cs rest := by
  induction k generalizing cs ns with
  | zero =>
      obtain ⟨⟨n, rest'⟩, hn, h⟩ := Option.map_eq_some_iff.1 h
      obtain ⟨rfl, rfl⟩ := Prod.mk.inj h
      exact reads_of_number (by decide) hn
  | succ k ih =>
      simp only [dotted, bind, Option.bind_eq_some_iff, pure, Option.some.injEq, Prod.exists,
        Prod.mk.injEq] at h
      obtain ⟨n, rest', hn, rest'', hdot, ns', rest''', hns, -, rfl⟩ := h
      exact ((reads_of_number (by decide) hn).trans (reads_of_behind (by decide) hdot)).trans
        (ih hns)

theorem reads_of_prefixAtEnd {most bound n : Nat} (h : prefixAtEnd most bound cs = some n) :
    Reads cs [] := by
  simp only [prefixAtEnd, bind, Option.bind_eq_some_iff, Prod.exists,
    Option.ite_none_right_eq_some] at h
  obtain ⟨rest, hslash, n, rest', hn, rfl, -⟩ := h
  exact (reads_of_behind (by decide) hslash).trans (reads_of_number (by decide) hn)

/-! ### Groups -/

/-- What is due before a group: nothing before the first one, else a colon. -/
theorem reads_of_due {first : Bool}
    (h : (if first then some cs else behind ':' cs) = some rest) : Reads cs rest := by
  cases first with
  | true => exact Option.some.inj h ▸ .refl cs
  | false => exact reads_of_behind (by decide) h

theorem reads_groups (most : Nat) (first : Bool) (cs : List Char) :
    Reads cs (groups most first cs).2.2 := by
  induction most generalizing first cs with
  | zero => exact .refl cs
  | succ most ih =>
      simp only [groups]
      split
      next bytes rest h =>
        -- the last two groups, written with dots
        obtain ⟨-, h⟩ := Option.ite_none_right_eq_some.1 h
        obtain ⟨here, hdue, h⟩ := Option.bind_eq_some_iff.1 h
        exact (reads_of_due hdue).trans (reads_of_dotted h)
      next =>
        split
        next g rest h =>
          obtain ⟨here, hdue, h⟩ := Option.bind_eq_some_iff.1 h
          exact ((reads_of_due hdue).trans (reads_of_number (by decide) h)).trans (ih false rest)
        next => exact .refl cs

theorem reads_of_groups? {gs : List Nat} (h : groups? cs = some (gs, rest)) : Reads cs rest := by
  have hfront := reads_groups 8 true cs
  rw [groups?] at h
  revert hfront h
  rcases groups 8 true cs with ⟨front, dots, rest'⟩
  intro h hfront
  dsimp only at h hfront
  split at h
  next =>
    obtain ⟨-, rfl⟩ := Prod.mk.inj (Option.some.inj h)
    exact hfront
  next =>
    obtain ⟨-, h⟩ := Option.ite_none_left_eq_some.1 h
    -- two colons stand for the groups left out
    simp only [bind, Option.bind_eq_some_iff, pure, Option.some.injEq, Prod.mk.injEq] at h
    obtain ⟨rest₁, h₁, rest₂, h₂, -, rfl⟩ := h
    exact ((hfront.trans (reads_of_behind (by decide) h₁)).trans
      (reads_of_behind (by decide) h₂)).trans (reads_groups _ true rest₂)

/-- **A network is written with these characters alone.** -/
theorem isLetter_of_ofChars? {n : Network} (h : ofChars? cs = some n) : ∀ c ∈ cs, isLetter c := by
  have hreads : Reads cs [] := by
    rw [ofChars?, Option.orElse_eq_orElse, Option.orElse_eq_or, Option.or_eq_some_iff] at h
    rcases h with h | ⟨-, h⟩
    · simp only [bind, Option.bind_eq_some_iff, Prod.exists] at h
      obtain ⟨bytes, rest, hoctets, n, hn, -⟩ := h
      exact (reads_of_dotted hoctets).trans (reads_of_prefixAtEnd hn)
    · simp only [bind, Option.bind_eq_some_iff, Prod.exists] at h
      obtain ⟨gs, rest, hgroups, n, hn, -⟩ := h
      exact (reads_of_groups? hgroups).trans (reads_of_prefixAtEnd hn)
  obtain ⟨front, rfl, hfront⟩ := hreads
  rwa [List.append_nil]

theorem isBlank_of_isLetter {c : Char} (h : isLetter c = true) : Text.isBlank c = false := by
  have hrange : 0x2E ≤ c.toNat ∧ c.toNat ≤ 0x66 := by
    simp only [isLetter, Bool.or_eq_true, beq_iff_eq] at h
    rcases h with ((h | rfl) | rfl) | rfl
    · have hdigit := Digits.toNat_of_isDigit h
      omega
    all_goals decide
  simp only [Text.isBlank, Bool.or_eq_false_iff, Bool.and_eq_false_iff, decide_eq_false_iff_not,
    beq_eq_false_iff_ne]
  omega

/-- **There is no blank in the text of a network**, and so no line break. -/
theorem isBlank_of_ofString? {s : String} {n : Network} (h : ofString? s = some n) {c : Char}
    (hc : c ∈ s.toList) : Text.isBlank c = false :=
  isBlank_of_isLetter (isLetter_of_ofChars? h c hc)

theorem ofString?_of_lineBreak {s : String} (h : '\n' ∈ s.toList) : ofString? s = none := by
  refine Option.eq_none_iff_forall_ne_some.2 fun n hn => ?_
  exact absurd (isBlank_of_ofString? hn h) (by decide)

end Network

end CaptureConfig

/-
**Octets and characters, there and back.**

The machine that reads octets as characters loses nothing: the octets of its pieces, put together
again, are the octets that it was given.  A character that it has begun is *sound* if every way to
complete it gives a character with exactly the octets taken.  With that, a list of octets is read
strictly as a text only if it is the encoding of that text, and encodings are read back.

Main definitions:

* `Utf8.Piece.octets` — the octets of a piece;
* `Utf8.Begun.Sound` — a character begun that can only become the one with its octets;
* `Path.IsText` — a path whose octets are the encoding of a text.

Main results:

* `Utf8.octets_pieces` — **nothing is lost**;
* `Utf8.pieces_encodeChars` — the pieces of an encoding are its characters;
* `Utf8.decode?_eq_some_iff` — **octets are read as a text exactly if they encode it**;
* `Utf8.encode_lt_encode` — **texts are ordered as their octets are**.
-/

import CaptureConfig.Path

set_option relaxedAutoImplicit false
set_option autoImplicit false

namespace CaptureConfig

namespace Utf8

/-! ### The octets of a character -/

/-- The bound of an octet as a numeral. -/
theorem toNat_ofNat_of_lt {n : Nat} (h : n < 0x100) : (UInt8.ofNat n).toNat = n :=
  UInt8.toNat_ofNat_of_lt' h

theorem ofNat_eq_of_toNat {n : Nat} {b : UInt8} (h : n = b.toNat) : UInt8.ofNat n = b := by
  rw [h, UInt8.ofNat_toNat]

theorem isValidChar_toNat (c : Char) : c.toNat.isValidChar := c.valid

theorem toNat_ofNat {n : Nat} (h : n.isValidChar) : (Char.ofNat n).toNat = n := by
  rw [Char.ofNat, dif_pos h]
  rfl

section

variable {n : Nat}

theorem encodeChar_of_le_7F (h : n ≤ 0x7F) :
    String.utf8EncodeChar (Char.ofNat n) = [UInt8.ofNat n] := by
  have hn : (Char.ofNat n).val.toNat = n := toNat_ofNat (Or.inl (by omega))
  simp only [String.utf8EncodeChar, hn, if_pos h]

theorem encodeChar_of_le_7FF (hlow : 0x80 ≤ n) (h : n ≤ 0x7FF) :
    String.utf8EncodeChar (Char.ofNat n) =
      [UInt8.ofNat (n / 64 + 0xC0), UInt8.ofNat (n % 64 + 0x80)] := by
  have hn : (Char.ofNat n).val.toNat = n := toNat_ofNat (Or.inl (by omega))
  have hmod : n / 64 % 32 = n / 64 := Nat.mod_eq_of_lt (by omega)
  simp only [String.utf8EncodeChar, hn, if_neg (show ¬ n ≤ 0x7F by omega), if_pos h, hmod]

theorem encodeChar_of_le_FFFF (hlow : 0x800 ≤ n) (h : n ≤ 0xFFFF) (hvalid : n.isValidChar) :
    String.utf8EncodeChar (Char.ofNat n) =
      [UInt8.ofNat (n / 4096 + 0xE0), UInt8.ofNat (n / 64 % 64 + 0x80),
        UInt8.ofNat (n % 64 + 0x80)] := by
  have hn : (Char.ofNat n).val.toNat = n := toNat_ofNat hvalid
  have hmod : n / 4096 % 16 = n / 4096 := Nat.mod_eq_of_lt (by omega)
  simp only [String.utf8EncodeChar, hn, if_neg (show ¬ n ≤ 0x7F by omega),
    if_neg (show ¬ n ≤ 0x7FF by omega), if_pos h, hmod]

theorem encodeChar_of_le_10FFFF (hlow : 0x10000 ≤ n) (h : n ≤ 0x10FFFF) :
    String.utf8EncodeChar (Char.ofNat n) =
      [UInt8.ofNat (n / 262144 + 0xF0), UInt8.ofNat (n / 4096 % 64 + 0x80),
        UInt8.ofNat (n / 64 % 64 + 0x80), UInt8.ofNat (n % 64 + 0x80)] := by
  have hn : (Char.ofNat n).val.toNat = n := toNat_ofNat (Or.inr ⟨by omega, by omega⟩)
  have hmod : n / 262144 % 8 = n / 262144 := Nat.mod_eq_of_lt (by omega)
  simp only [String.utf8EncodeChar, hn, if_neg (show ¬ n ≤ 0x7F by omega),
    if_neg (show ¬ n ≤ 0x7FF by omega), if_neg (show ¬ n ≤ 0xFFFF by omega), hmod]

end

/-! ### Steps of the machine -/

namespace Begun

/-- An octet that a character begun can go on with. -/
def Takes (s : Begun) (b : UInt8) : Prop := s.low ≤ b.toNat ∧ b.toNat ≤ s.high

/-- The bits of a character begun with those of one more octet. -/
def bitsWith (s : Begun) (b : UInt8) : Nat := s.bits * 64 + (b.toNat - 0x80)

/-- A character begun with one more octet. -/
def extend (s : Begun) (b : UInt8) : Begun :=
  ⟨s.octets ++ [b], s.owed - 1, s.bitsWith b, 0x80, 0xBF⟩

end Begun

theorem piecesFrom_cons (st : Option Begun) (b : UInt8) (rest : List UInt8) :
    piecesFrom st (b :: rest) = (step st b).1 ++ piecesFrom (step st b).2 rest := by
  cases st <;> rfl

section

variable {s : Begun} {b : UInt8}

theorem step_of_last (h : s.Takes b) (howed : s.owed = 1) :
    step (some s) b = ([.char (Char.ofNat (s.bitsWith b))], none) := by
  simp only [step]
  rw [if_pos (show s.low ≤ b.toNat ∧ b.toNat ≤ s.high from h), if_pos (by omega)]
  rfl

theorem step_of_more (h : s.Takes b) (howed : 2 ≤ s.owed) :
    step (some s) b = ([], some (s.extend b)) := by
  simp only [step]
  rw [if_pos (show s.low ≤ b.toNat ∧ b.toNat ≤ s.high from h), if_neg (by omega)]
  rfl

theorem step_of_not_takes (h : ¬ s.Takes b) :
    step (some s) b = (.stray s.octets :: (start b).1, (start b).2) := by
  simp only [step, if_neg (show ¬ (s.low ≤ b.toNat ∧ b.toNat ≤ s.high) from h)]

theorem start_of_lt (h : b.toNat < 0x80) : start b = ([.char (Char.ofNat b.toNat)], none) := by
  rw [start, if_pos h]

theorem start_of_begin? (h : begin? b = some s) (hb : 0x80 ≤ b.toNat) :
    start b = ([], some s) := by
  simp only [start, if_neg (show ¬ b.toNat < 0x80 by omega), h]

end

/-! ### First octets -/

section

variable {b : UInt8}

theorem begin?_two (hlow : 0xC2 ≤ b.toNat) (h : b.toNat ≤ 0xDF) :
    begin? b = some ⟨[b], 1, b.toNat - 0xC0, 0x80, 0xBF⟩ := by
  simp only [begin?, if_pos (show 0xC2 ≤ b.toNat ∧ b.toNat ≤ 0xDF from ⟨hlow, h⟩)]

/-- The second octet of three is bounded so that the character is not shorter, and no surrogate. -/
theorem begin?_three (hlow : 0xE0 ≤ b.toNat) (h : b.toNat ≤ 0xEF) :
    begin? b = some ⟨[b], 2, b.toNat - 0xE0, if b.toNat = 0xE0 then 0xA0 else 0x80,
      if b.toNat = 0xED then 0x9F else 0xBF⟩ := by
  simp only [begin?, if_neg (show ¬ (0xC2 ≤ b.toNat ∧ b.toNat ≤ 0xDF) by omega)]
  by_cases he0 : b.toNat = 0xE0
  · simp [he0]
  · by_cases hed : b.toNat = 0xED
    · simp [hed]
    · simp only [if_neg he0, if_neg hed, if_pos (show 0xE1 ≤ b.toNat ∧ b.toNat ≤ 0xEF by omega)]

/-- The second octet of four is bounded so that the character is not shorter, and exists. -/
theorem begin?_four (hlow : 0xF0 ≤ b.toNat) (h : b.toNat ≤ 0xF4) :
    begin? b = some ⟨[b], 3, b.toNat - 0xF0, if b.toNat = 0xF0 then 0x90 else 0x80,
      if b.toNat = 0xF4 then 0x8F else 0xBF⟩ := by
  simp only [begin?, if_neg (show ¬ (0xC2 ≤ b.toNat ∧ b.toNat ≤ 0xDF) by omega),
    if_neg (show ¬ b.toNat = 0xE0 by omega), if_neg (show ¬ b.toNat = 0xED by omega),
    if_neg (show ¬ (0xE1 ≤ b.toNat ∧ b.toNat ≤ 0xEF) by omega)]
  by_cases hf0 : b.toNat = 0xF0
  · simp [hf0]
  · by_cases hf4 : b.toNat = 0xF4
    · simp [hf4]
    · simp only [if_neg hf0, if_neg hf4, if_pos (show 0xF1 ≤ b.toNat ∧ b.toNat ≤ 0xF3 by omega)]

/-- Other octets begin nothing. -/
theorem bounds_of_begin? {s : Begun} (h : begin? b = some s) :
    (0xC2 ≤ b.toNat ∧ b.toNat ≤ 0xDF) ∨ (0xE0 ≤ b.toNat ∧ b.toNat ≤ 0xEF) ∨
      (0xF0 ≤ b.toNat ∧ b.toNat ≤ 0xF4) := by
  simp only [begin?] at h
  by_cases hout : (0xC2 ≤ b.toNat ∧ b.toNat ≤ 0xDF) ∨ (0xE0 ≤ b.toNat ∧ b.toNat ≤ 0xEF) ∨
      (0xF0 ≤ b.toNat ∧ b.toNat ≤ 0xF4)
  · exact hout
  · rw [if_neg (by omega), if_neg (by omega), if_neg (by omega), if_neg (by omega),
      if_neg (by omega), if_neg (by omega), if_neg (by omega)] at h
    exact absurd h (by simp)

end

/-! ### Nothing is lost -/

/-- The octets of a piece. -/
def Piece.octets : Piece → List UInt8
  | .char c => String.utf8EncodeChar c
  | .stray octets => octets

/-- **A character begun that can only become the one with its octets.** -/
inductive Begun.Sound : Begun → Prop
  /-- One octet is missing, and completes the character. -/
  | last {s : Begun} (howed : s.owed = 1)
      (complete : ∀ b, s.Takes b →
        String.utf8EncodeChar (Char.ofNat (s.bitsWith b)) = s.octets ++ [b]) : Sound s
  /-- Several octets are missing. -/
  | more {s : Begun} (howed : 2 ≤ s.owed) (next : ∀ b, s.Takes b → Sound (s.extend b)) : Sound s

section

variable {b : UInt8}

theorem sound_two (hlow : 0xC2 ≤ b.toNat) (h : b.toNat ≤ 0xDF) :
    Begun.Sound ⟨[b], 1, b.toNat - 0xC0, 0x80, 0xBF⟩ := by
  refine .last rfl fun b₂ h₂ => ?_
  simp only [Begun.Takes] at h₂
  show String.utf8EncodeChar (Char.ofNat ((b.toNat - 0xC0) * 64 + (b₂.toNat - 0x80))) = [b, b₂]
  rw [encodeChar_of_le_7FF (by omega) (by omega)]
  simp only [List.cons.injEq, and_true]
  exact ⟨ofNat_eq_of_toNat (by omega), ofNat_eq_of_toNat (by omega)⟩

theorem sound_three (hlow : 0xE0 ≤ b.toNat) (h : b.toNat ≤ 0xEF) :
    Begun.Sound ⟨[b], 2, b.toNat - 0xE0, if b.toNat = 0xE0 then 0xA0 else 0x80,
      if b.toNat = 0xED then 0x9F else 0xBF⟩ := by
  refine .more (by simp) fun b₂ h₂ => .last rfl fun b₃ h₃ => ?_
  simp only [Begun.Takes] at h₂
  simp only [Begun.Takes, Begun.extend] at h₃
  show String.utf8EncodeChar (Char.ofNat
    (((b.toNat - 0xE0) * 64 + (b₂.toNat - 0x80)) * 64 + (b₃.toNat - 0x80))) = [b, b₂, b₃]
  have hbound : (b.toNat = 0xE0 → 0xA0 ≤ b₂.toNat) ∧ 0x80 ≤ b₂.toNat := by
    split at h₂ <;> omega
  have hsurrogate : (b.toNat = 0xED → b₂.toNat ≤ 0x9F) ∧ b₂.toNat ≤ 0xBF := by
    obtain ⟨-, h₂⟩ := h₂
    split at h₂ <;> omega
  rw [encodeChar_of_le_FFFF (by omega) (by omega) (by rw [Nat.isValidChar]; omega)]
  simp only [List.cons.injEq, and_true]
  exact ⟨ofNat_eq_of_toNat (by omega), ofNat_eq_of_toNat (by omega),
    ofNat_eq_of_toNat (by omega)⟩

theorem sound_four (hlow : 0xF0 ≤ b.toNat) (h : b.toNat ≤ 0xF4) :
    Begun.Sound ⟨[b], 3, b.toNat - 0xF0, if b.toNat = 0xF0 then 0x90 else 0x80,
      if b.toNat = 0xF4 then 0x8F else 0xBF⟩ := by
  refine .more (by simp) fun b₂ h₂ => .more (by simp [Begun.extend]) fun b₃ h₃ =>
    .last rfl fun b₄ h₄ => ?_
  simp only [Begun.Takes] at h₂
  simp only [Begun.Takes, Begun.extend] at h₃ h₄
  show String.utf8EncodeChar (Char.ofNat
    ((((b.toNat - 0xF0) * 64 + (b₂.toNat - 0x80)) * 64 + (b₃.toNat - 0x80)) * 64 +
      (b₄.toNat - 0x80))) = [b, b₂, b₃, b₄]
  have hbound : (b.toNat = 0xF0 → 0x90 ≤ b₂.toNat) ∧ 0x80 ≤ b₂.toNat := by
    split at h₂ <;> omega
  have hend : (b.toNat = 0xF4 → b₂.toNat ≤ 0x8F) ∧ b₂.toNat ≤ 0xBF := by
    obtain ⟨-, h₂⟩ := h₂
    split at h₂ <;> omega
  rw [encodeChar_of_le_10FFFF (by omega) (by omega)]
  simp only [List.cons.injEq, and_true]
  exact ⟨ofNat_eq_of_toNat (by omega), ofNat_eq_of_toNat (by omega),
    ofNat_eq_of_toNat (by omega), ofNat_eq_of_toNat (by omega)⟩

/-- What an octet begins is sound. -/
theorem sound_of_begin? {s : Begun} (h : begin? b = some s) : s.Sound ∧ s.octets = [b] := by
  obtain ⟨hlow, hle⟩ | ⟨hlow, hle⟩ | ⟨hlow, hle⟩ := bounds_of_begin? h
  · rw [begin?_two hlow hle] at h
    obtain rfl := Option.some.inj h
    exact ⟨sound_two hlow hle, rfl⟩
  · rw [begin?_three hlow hle] at h
    obtain rfl := Option.some.inj h
    exact ⟨sound_three hlow hle, rfl⟩
  · rw [begin?_four hlow hle] at h
    obtain rfl := Option.some.inj h
    exact ⟨sound_four hlow hle, rfl⟩

end

/-- The octets of a character begun, if there is one. -/
def begunOctets (st : Option Begun) : List UInt8 := st.elim [] Begun.octets

/-- What one octet finishes and begins, has the octets that were there and the one that came, and
what is begun is sound. -/
structure Keeps (before : List UInt8) (b : UInt8) (r : List Piece × Option Begun) : Prop where
  octets : r.1.flatMap Piece.octets ++ begunOctets r.2 = before ++ [b]
  sound : ∀ s ∈ r.2, s.Sound

theorem keeps_start (b : UInt8) : Keeps [] b (start b) := by
  by_cases hb : b.toNat < 0x80
  · rw [start_of_lt hb]
    refine ⟨?_, by simp⟩
    simp only [List.flatMap_cons, List.flatMap_nil, Piece.octets, begunOctets, Option.elim_none,
      List.append_nil, List.nil_append]
    rw [encodeChar_of_le_7F (by omega), ofNat_eq_of_toNat rfl]
  · cases hs : begin? b with
    | some s =>
        obtain ⟨hsound, hoctets⟩ := sound_of_begin? hs
        rw [start_of_begin? hs (by omega)]
        exact ⟨by simp [begunOctets, hoctets], by simpa using hsound⟩
    | none =>
        simp only [start, if_neg hb, hs]
        exact ⟨by simp [Piece.octets, begunOctets], by simp⟩

/-- **One step loses nothing.** -/
theorem keeps_step {st : Option Begun} (hst : ∀ s ∈ st, s.Sound) (b : UInt8) :
    Keeps (begunOctets st) b (step st b) := by
  cases st with
  | none => exact keeps_start b
  | some s =>
      by_cases hb : s.Takes b
      · cases hst s rfl with
        | last howed complete =>
            rw [step_of_last hb howed]
            exact ⟨by simp [Piece.octets, begunOctets, complete b hb], by simp⟩
        | more howed next =>
            rw [step_of_more hb howed]
            exact ⟨by simp [begunOctets, Begun.extend], by simpa using next b hb⟩
      · -- the run begun is set aside, and the octet is looked at anew
        rw [step_of_not_takes hb]
        obtain ⟨octets, sound⟩ := keeps_start b
        refine ⟨?_, sound⟩
        rw [List.flatMap_cons, List.append_assoc, octets]
        rfl

theorem octets_piecesFrom {st : Option Begun} (hst : ∀ s ∈ st, s.Sound) (bs : List UInt8) :
    (piecesFrom st bs).flatMap Piece.octets = begunOctets st ++ bs := by
  induction bs generalizing st with
  | nil => cases st <;> simp [piecesFrom, Piece.octets, begunOctets]
  | cons b bs ih =>
      obtain ⟨octets, sound⟩ := keeps_step hst b
      rw [piecesFrom_cons, List.flatMap_append, ih sound, ← List.append_assoc, octets,
        List.append_assoc, List.singleton_append]

/-- **Nothing is lost.** -/
theorem octets_pieces (bs : List UInt8) : (pieces bs).flatMap Piece.octets = bs :=
  octets_piecesFrom (by simp) bs

/-! ### Encodings are read back -/

section

variable {s : Begun} {b : UInt8} (rest : List UInt8)

theorem piecesFrom_of_begin? (h : begin? b = some s) (hb : 0x80 ≤ b.toNat) :
    piecesFrom none (b :: rest) = piecesFrom (some s) rest := by
  rw [piecesFrom_cons, step, start_of_begin? h hb, List.nil_append]

theorem piecesFrom_of_more (h : s.Takes b) (howed : 2 ≤ s.owed) :
    piecesFrom (some s) (b :: rest) = piecesFrom (some (s.extend b)) rest := by
  rw [piecesFrom_cons, step_of_more h howed, List.nil_append]

theorem piecesFrom_of_last {n : Nat} (h : s.Takes b) (howed : s.owed = 1)
    (hbits : s.bitsWith b = n) :
    piecesFrom (some s) (b :: rest) = .char (Char.ofNat n) :: piecesFrom none rest := by
  rw [piecesFrom_cons, step_of_last h howed, hbits, List.singleton_append]

end

section

variable {n : Nat} (rest : List UInt8)

theorem piecesFrom_of_le_7FF (hlow : 0x80 ≤ n) (h : n ≤ 0x7FF) :
    piecesFrom none (String.utf8EncodeChar (Char.ofNat n) ++ rest) =
      .char (Char.ofNat n) :: piecesFrom none rest := by
  have hb : (UInt8.ofNat (n / 64 + 0xC0)).toNat = n / 64 + 0xC0 := toNat_ofNat_of_lt (by omega)
  have hb₂ : (UInt8.ofNat (n % 64 + 0x80)).toNat = n % 64 + 0x80 := toNat_ofNat_of_lt (by omega)
  rw [encodeChar_of_le_7FF hlow h]
  refine (piecesFrom_of_begin? _ (begin?_two (by omega) (by omega)) (by omega)).trans ?_
  refine piecesFrom_of_last _ ?_ rfl ?_
  · simp only [Begun.Takes, hb₂]
    omega
  · show ((UInt8.ofNat (n / 64 + 0xC0)).toNat - 0xC0) * 64 +
      ((UInt8.ofNat (n % 64 + 0x80)).toNat - 0x80) = n
    rw [hb, hb₂]
    omega

theorem piecesFrom_of_le_FFFF (hlow : 0x800 ≤ n) (h : n ≤ 0xFFFF) (hvalid : n.isValidChar) :
    piecesFrom none (String.utf8EncodeChar (Char.ofNat n) ++ rest) =
      .char (Char.ofNat n) :: piecesFrom none rest := by
  have hb : (UInt8.ofNat (n / 4096 + 0xE0)).toNat = n / 4096 + 0xE0 :=
    toNat_ofNat_of_lt (by omega)
  have hb₂ : (UInt8.ofNat (n / 64 % 64 + 0x80)).toNat = n / 64 % 64 + 0x80 :=
    toNat_ofNat_of_lt (by omega)
  have hb₃ : (UInt8.ofNat (n % 64 + 0x80)).toNat = n % 64 + 0x80 := toNat_ofNat_of_lt (by omega)
  rw [encodeChar_of_le_FFFF hlow h hvalid]
  rw [Nat.isValidChar] at hvalid
  refine (piecesFrom_of_begin? _ (begin?_three (by omega) (by omega)) (by omega)).trans ?_
  refine (piecesFrom_of_more _ ?_ (Nat.le_refl 2)).trans (piecesFrom_of_last _ ?_ rfl ?_)
  · simp only [Begun.Takes, hb, hb₂]
    constructor <;> split <;> omega
  · simp only [Begun.Takes, Begun.extend, hb₃]
    omega
  · show (((UInt8.ofNat (n / 4096 + 0xE0)).toNat - 0xE0) * 64 +
      ((UInt8.ofNat (n / 64 % 64 + 0x80)).toNat - 0x80)) * 64 +
      ((UInt8.ofNat (n % 64 + 0x80)).toNat - 0x80) = n
    rw [hb, hb₂, hb₃]
    omega

theorem piecesFrom_of_le_10FFFF (hlow : 0x10000 ≤ n) (h : n ≤ 0x10FFFF) :
    piecesFrom none (String.utf8EncodeChar (Char.ofNat n) ++ rest) =
      .char (Char.ofNat n) :: piecesFrom none rest := by
  have hb : (UInt8.ofNat (n / 262144 + 0xF0)).toNat = n / 262144 + 0xF0 :=
    toNat_ofNat_of_lt (by omega)
  have hb₂ : (UInt8.ofNat (n / 4096 % 64 + 0x80)).toNat = n / 4096 % 64 + 0x80 :=
    toNat_ofNat_of_lt (by omega)
  have hb₃ : (UInt8.ofNat (n / 64 % 64 + 0x80)).toNat = n / 64 % 64 + 0x80 :=
    toNat_ofNat_of_lt (by omega)
  have hb₄ : (UInt8.ofNat (n % 64 + 0x80)).toNat = n % 64 + 0x80 := toNat_ofNat_of_lt (by omega)
  rw [encodeChar_of_le_10FFFF hlow h]
  refine (piecesFrom_of_begin? _ (begin?_four (by omega) (by omega)) (by omega)).trans ?_
  refine (piecesFrom_of_more _ ?_ (Nat.le_succ 2)).trans ?_
  · simp only [Begun.Takes, hb, hb₂]
    constructor <;> split <;> omega
  refine (piecesFrom_of_more _ ?_ (Nat.le_refl 2)).trans (piecesFrom_of_last _ ?_ rfl ?_)
  · simp only [Begun.Takes, Begun.extend, hb₃]
    omega
  · simp only [Begun.Takes, Begun.extend, hb₄]
    omega
  · show ((((UInt8.ofNat (n / 262144 + 0xF0)).toNat - 0xF0) * 64 +
      ((UInt8.ofNat (n / 4096 % 64 + 0x80)).toNat - 0x80)) * 64 +
      ((UInt8.ofNat (n / 64 % 64 + 0x80)).toNat - 0x80)) * 64 +
      ((UInt8.ofNat (n % 64 + 0x80)).toNat - 0x80) = n
    rw [hb, hb₂, hb₃, hb₄]
    omega

end

/-- The machine finishes a character with its last octet. -/
theorem piecesFrom_encodeChar_append (c : Char) (rest : List UInt8) :
    piecesFrom none (String.utf8EncodeChar c ++ rest) = .char c :: piecesFrom none rest := by
  have hvalid := isValidChar_toNat c
  have hle : c.toNat ≤ 0x10FFFF := by
    rw [Nat.isValidChar] at hvalid
    omega
  rw [← Char.ofNat_toNat c]
  -- One case for each number of octets.
  rcases Nat.lt_or_ge c.toNat 0x80 with h | h
  · have hb : (UInt8.ofNat c.toNat).toNat = c.toNat := toNat_ofNat_of_lt (by omega)
    rw [encodeChar_of_le_7F (by omega), List.singleton_append, piecesFrom_cons, step,
      start_of_lt (by omega), hb, List.singleton_append]
  rcases Nat.lt_or_ge c.toNat 0x800 with h' | h'
  · exact piecesFrom_of_le_7FF rest h (by omega)
  rcases Nat.lt_or_ge c.toNat 0x10000 with h'' | h''
  · exact piecesFrom_of_le_FFFF rest h' (by omega) hvalid
  · exact piecesFrom_of_le_10FFFF rest h'' hle

/-- **The pieces of an encoding are its characters.** -/
theorem pieces_encodeChars (cs : List Char) : pieces (encodeChars cs) = cs.map .char := by
  induction cs with
  | nil => rfl
  | cons c cs ih =>
      rw [encodeChars, List.flatMap_cons, pieces, piecesFrom_encodeChar_append, List.map_cons]
      exact congrArg _ ih

theorem encode_append (s t : String) : encode (s ++ t) = encode s ++ encode t := by
  rw [encode, String.toList_append, encodeChars, List.flatMap_append]
  rfl

theorem decode?_encode (s : String) : decode? (encode s) = some s := by
  have hchars : (s.toList.map Piece.char).mapM Piece.char? = some s.toList := by
    induction s.toList with
    | nil => rfl
    | cons c cs ih => simp [List.mapM_cons, Piece.char?, ih]
  rw [decode?, encode, pieces_encodeChars, hchars, Option.map_some, String.ofList_toList]

theorem decodeLossy_encode (s : String) : decodeLossy (encode s) = s := by
  have hchars : (s.toList.map Piece.char).map (fun p => p.char?.getD '\uFFFD') = s.toList := by
    rw [List.map_map]
    exact List.map_id _
  rw [decodeLossy, encode, pieces_encodeChars, hchars, String.ofList_toList]

/-- Pieces that all are characters are the characters of their octets. -/
theorem octets_of_mapM_char? {ps : List Piece} {cs : List Char}
    (h : ps.mapM Piece.char? = some cs) :
    ps.flatMap Piece.octets = encodeChars cs := by
  induction ps generalizing cs with
  | nil =>
      obtain rfl : [] = cs := Option.some.inj h
      rfl
  | cons p ps ih =>
      rw [List.mapM_cons] at h
      obtain ⟨c, hc, h⟩ := Option.bind_eq_some_iff.1 h
      obtain ⟨cs', hcs', h⟩ := Option.bind_eq_some_iff.1 h
      obtain rfl : c :: cs' = cs := Option.some.inj h
      have hp : p = .char c := by
        cases p with
        | char d => rw [Option.some.inj hc]
        | stray octets => exact absurd hc (by simp [Piece.char?])
      rw [List.flatMap_cons, ih hcs', hp]
      rfl

/-- **Octets are read as a text exactly if they encode it.** -/
theorem decode?_eq_some_iff {bs : List UInt8} {s : String} :
    decode? bs = some s ↔ bs = encode s := by
  constructor
  · intro h
    obtain ⟨cs, hcs, rfl⟩ := Option.map_eq_some_iff.1 h
    rw [encode, String.toList_ofList, ← octets_of_mapM_char? hcs, octets_pieces]
  · rintro rfl
    exact decode?_encode s

/-! ### Order -/

section

variable {m n : Nat} (hm : m < 0x100) (hn : n < 0x100)

include hm hn

theorem ofNat_lt_ofNat_iff : UInt8.ofNat m < UInt8.ofNat n ↔ m < n := by
  rw [UInt8.lt_iff_toNat_lt, toNat_ofNat_of_lt hm, toNat_ofNat_of_lt hn]

theorem ofNat_eq_ofNat_iff : UInt8.ofNat m = UInt8.ofNat n ↔ m = n := by
  rw [← UInt8.toNat_inj, toNat_ofNat_of_lt hm, toNat_ofNat_of_lt hn]

end

/-- A character takes from one to four octets. -/
theorem encodeChar_cases (c : Char) :
    (c.toNat ≤ 0x7F ∧ String.utf8EncodeChar c = [UInt8.ofNat c.toNat]) ∨
    (0x80 ≤ c.toNat ∧ c.toNat ≤ 0x7FF ∧ String.utf8EncodeChar c =
      [UInt8.ofNat (c.toNat / 64 + 0xC0), UInt8.ofNat (c.toNat % 64 + 0x80)]) ∨
    (0x800 ≤ c.toNat ∧ c.toNat ≤ 0xFFFF ∧ String.utf8EncodeChar c =
      [UInt8.ofNat (c.toNat / 4096 + 0xE0), UInt8.ofNat (c.toNat / 64 % 64 + 0x80),
        UInt8.ofNat (c.toNat % 64 + 0x80)]) ∨
    (0x10000 ≤ c.toNat ∧ c.toNat ≤ 0x10FFFF ∧ String.utf8EncodeChar c =
      [UInt8.ofNat (c.toNat / 262144 + 0xF0), UInt8.ofNat (c.toNat / 4096 % 64 + 0x80),
        UInt8.ofNat (c.toNat / 64 % 64 + 0x80), UInt8.ofNat (c.toNat % 64 + 0x80)]) := by
  have hvalid := isValidChar_toNat c
  have hle : c.toNat ≤ 0x10FFFF := by
    rw [Nat.isValidChar] at hvalid
    omega
  rw [← Char.ofNat_toNat c, toNat_ofNat hvalid]
  rcases Nat.lt_or_ge c.toNat 0x80 with h | h
  · exact .inl ⟨by omega, encodeChar_of_le_7F (by omega)⟩
  rcases Nat.lt_or_ge c.toNat 0x800 with h' | h'
  · exact .inr (.inl ⟨h, by omega, encodeChar_of_le_7FF h (by omega)⟩)
  rcases Nat.lt_or_ge c.toNat 0x10000 with h'' | h''
  · exact .inr (.inr (.inl ⟨h', by omega, encodeChar_of_le_FFFF h' (by omega) hvalid⟩))
  · exact .inr (.inr (.inr ⟨h'', hle, encodeChar_of_le_10FFFF h'' hle⟩))

/-- The octets of a smaller character come first, whatever is behind them. -/
theorem encodeChar_append_lt {c d : Char} (h : c < d) (xs ys : List UInt8) :
    String.utf8EncodeChar c ++ xs < String.utf8EncodeChar d ++ ys := by
  have hlt : c.toNat < d.toNat := h
  rcases encodeChar_cases c with ⟨_, hc⟩ | ⟨_, _, hc⟩ | ⟨_, _, hc⟩ | ⟨_, _, hc⟩ <;>
    rcases encodeChar_cases d with ⟨_, hd⟩ | ⟨_, _, hd⟩ | ⟨_, _, hd⟩ | ⟨_, _, hd⟩ <;>
    -- fewer octets begin with a smaller one, and more than the greater character has is impossible
    first
    | omega
    | (rw [hc, hd]
       simp (disch := omega) only [List.cons_append, List.nil_append, List.cons_lt_cons_iff,
         ofNat_lt_ofNat_iff, ofNat_eq_ofNat_iff]
       omega)

theorem encodeChars_lt_encodeChars {cs ds : List Char} (h : cs < ds) :
    encodeChars cs < encodeChars ds := by
  induction cs generalizing ds with
  | nil =>
      cases ds with
      | nil => exact absurd h (List.not_lt_nil _)
      | cons d ds =>
          rw [encodeChars, encodeChars, List.flatMap_nil, List.flatMap_cons]
          rcases encodeChar_cases d with ⟨_, hd⟩ | ⟨_, _, hd⟩ | ⟨_, _, hd⟩ | ⟨_, _, hd⟩ <;>
            exact hd ▸ List.nil_lt_cons _ _
  | cons c cs ih =>
      cases ds with
      | nil => exact absurd h (List.not_lt_nil _)
      | cons d ds =>
          rw [encodeChars, encodeChars, List.flatMap_cons, List.flatMap_cons]
          rcases List.cons_lt_cons_iff.1 h with hlt | ⟨rfl, hlt⟩
          · exact encodeChar_append_lt hlt _ _
          · exact List.append_left_lt (ih hlt)

/-- **Texts are ordered as their octets are.** -/
theorem encode_lt_encode {s t : String} (h : s < t) : encode s < encode t :=
  encodeChars_lt_encodeChars h

end Utf8

/-! ### Paths that are texts -/

namespace Path

/-- **A path whose octets are the encoding of a text.** -/
def IsText (p : Path) : Prop := ∃ s, p = ofString s

theorem toString?_eq_some_iff {p : Path} {s : String} : p.toString? = some s ↔ p = ofString s := by
  rw [toString?, Utf8.decode?_eq_some_iff]
  obtain ⟨bs⟩ := p
  exact (Path.mk.injEq _ _).symm.to_iff

@[simp] theorem toString?_ofString (s : String) : (ofString s).toString? = some s :=
  toString?_eq_some_iff.2 rfl

theorem isText_iff {p : Path} : p.IsText ↔ p.toString?.isSome = true := by
  rw [Option.isSome_iff_exists]
  exact exists_congr fun s => toString?_eq_some_iff.symm

theorem toString?_eq_none_iff {p : Path} : p.toString? = none ↔ ¬ p.IsText := by
  rw [isText_iff, Option.not_isSome_iff_eq_none]

@[simp] theorem display_ofString (s : String) : (ofString s).display = s :=
  Utf8.decodeLossy_encode s

end Path

end CaptureConfig

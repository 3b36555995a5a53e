/-
**The tokens of printed values.**

What is printed in strict notation has the same tokens in block notation: brackets, commas, keys,
texts in quotes, and words.  That takes texts in which no character is written differently.  A key
that does not end within 1024 characters is a mere text in front of a colon.

Main definitions:

* `Json.Holds`, `Json.Wide.Holds` — what holds of all texts and all keys of a value;
* `Yaml.IsAscii`, `Yaml.IsShort` — the texts that are written alike, and the keys among them;
* `Yaml.tokensOf` — the tokens of a value;
* `Yaml.Stream.Leads` — some tokens lead to the front of another.

Main results:

* `Yaml.quoted_eq_doubleChars` — texts that are written alike;
* `Yaml.Stream.Stands.value` — **a value**, wherever it stands in brackets;
* `Yaml.tokens_chars` — **the tokens of a printed value**.
-/

import CaptureConfig.Proofs.Json.Printed
import CaptureConfig.Proofs.Yaml.Brackets

set_option relaxedAutoImplicit false
set_option autoImplicit false

namespace CaptureConfig

namespace Json

mutual

/-- **What holds of all texts and all keys of a value.** -/
def Holds (onText onKey : String → Prop) : Json → Prop
  | .text s => onText s
  | .array items => ItemsHold onText onKey items
  | .object entries => EntriesHold onText onKey entries
  | _ => True

/-- What holds of all texts and all keys of items. -/
def ItemsHold (onText onKey : String → Prop) : List Json → Prop
  | [] => True
  | v :: rest => v.Holds onText onKey ∧ ItemsHold onText onKey rest

/-- What holds of all texts and all keys of entries. -/
def EntriesHold (onText onKey : String → Prop) : List (String × Json) → Prop
  | [] => True
  | (k, v) :: rest => onKey k ∧ v.Holds onText onKey ∧ EntriesHold onText onKey rest

end

section

variable {onText onKey onKey' : String → Prop}

theorem entriesHold_iff {entries : List (String × Json)} :
    EntriesHold onText onKey entries ↔ ∀ e ∈ entries, onKey e.1 ∧ e.2.Holds onText onKey := by
  induction entries with
  | nil => simp [EntriesHold]
  | cons e rest ih => rw [EntriesHold, ih, List.forall_mem_cons, and_assoc]

mutual

theorem Holds.mono (h : ∀ k, onKey k → onKey' k) :
    ∀ v : Json, v.Holds onText onKey → v.Holds onText onKey'
  | .null, _ => trivial
  | .bool _, _ => trivial
  | .number _, _ => trivial
  | .text _, hv => hv
  | .array items, hv => ItemsHold.mono h items hv
  | .object entries, hv => EntriesHold.mono h entries hv

theorem ItemsHold.mono (h : ∀ k, onKey k → onKey' k) :
    ∀ items : List Json, ItemsHold onText onKey items → ItemsHold onText onKey' items
  | [], _ => trivial
  | v :: rest, hitems => ⟨Holds.mono h v hitems.1, ItemsHold.mono h rest hitems.2⟩

theorem EntriesHold.mono (h : ∀ k, onKey k → onKey' k) : ∀ entries : List (String × Json),
    EntriesHold onText onKey entries → EntriesHold onText onKey' entries
  | [], _ => trivial
  | (k, v) :: rest, hentries => ⟨h k hentries.1, Holds.mono h v hentries.2.1,
      EntriesHold.mono h rest hentries.2.2⟩

end

end

namespace Wide

mutual

/-- **What holds of all texts and all keys of a value.** -/
def Holds (onText onKey : String → Prop) : Wide → Prop
  | .text s => onText s
  | .array items => ItemsHold onText onKey items
  | .object entries => EntriesHold onText onKey entries
  | _ => True

/-- What holds of all texts and all keys of items. -/
def ItemsHold (onText onKey : String → Prop) : List Wide → Prop
  | [] => True
  | v :: rest => v.Holds onText onKey ∧ ItemsHold onText onKey rest

/-- What holds of all texts and all keys of entries. -/
def EntriesHold (onText onKey : String → Prop) : List (String × Wide) → Prop
  | [] => True
  | (k, v) :: rest => onKey k ∧ v.Holds onText onKey ∧ EntriesHold onText onKey rest

end

section

variable {onText onText' onKey onKey' : String → Prop}

mutual

theorem Holds.mono (htext : ∀ s, onText s → onText' s) (hkey : ∀ k, onKey k → onKey' k) :
    ∀ v : Wide, v.Holds onText onKey → v.Holds onText' onKey'
  | .null, _ => trivial
  | .bool _, _ => trivial
  | .number _, _ => trivial
  | .text s, hv => htext s hv
  | .array items, hv => ItemsHold.mono htext hkey items hv
  | .object entries, hv => EntriesHold.mono htext hkey entries hv

theorem ItemsHold.mono (htext : ∀ s, onText s → onText' s) (hkey : ∀ k, onKey k → onKey' k) :
    ∀ items : List Wide, ItemsHold onText onKey items → ItemsHold onText' onKey' items
  | [], _ => trivial
  | v :: rest, hitems => ⟨Holds.mono htext hkey v hitems.1, ItemsHold.mono htext hkey rest hitems.2⟩

theorem EntriesHold.mono (htext : ∀ s, onText s → onText' s) (hkey : ∀ k, onKey k → onKey' k) :
    ∀ entries : List (String × Wide), EntriesHold onText onKey entries →
      EntriesHold onText' onKey' entries
  | [], _ => trivial
  | (k, v) :: rest, hentries => ⟨hkey k hentries.1, Holds.mono htext hkey v hentries.2.1,
      EntriesHold.mono htext hkey rest hentries.2.2⟩

end

end

end Wide

section

variable {onText onKey : String → Prop}

mutual

theorem Holds.toWide : ∀ v : Json, v.Holds onText onKey → v.toWide.Holds onText onKey
  | .null, _ => trivial
  | .bool _, _ => trivial
  | .number _, _ => trivial
  | .text _, h => h
  | .array items, h => ItemsHold.toWide items h
  | .object entries, h => EntriesHold.toWide entries h

theorem ItemsHold.toWide : ∀ items : List Json, ItemsHold onText onKey items →
    Wide.ItemsHold onText onKey (itemsToWide items)
  | [], _ => trivial
  | v :: rest, h => ⟨Holds.toWide v h.1, ItemsHold.toWide rest h.2⟩

theorem EntriesHold.toWide : ∀ entries : List (String × Json), EntriesHold onText onKey entries →
    Wide.EntriesHold onText onKey (entriesToWide entries)
  | [], _ => trivial
  | (_, v) :: rest, h => ⟨h.1, Holds.toWide v h.2.1, EntriesHold.toWide rest h.2.2⟩

end

end

end Json

namespace Yaml

/-! ### Texts that are written alike -/

/-- **A text of printable characters of ASCII.** -/
def IsAscii (s : String) : Prop := ∀ c ∈ s.toList, 0x20 ≤ c.toNat ∧ c.toNat ≤ 0x7E

instance (s : String) : Decidable (IsAscii s) := List.decidableBAll _ _

/-- **Such a text that is short enough for a key**, with its quotes and what is written for its
characters. -/
def IsShort (k : String) : Prop := IsAscii k ∧ (Json.quoted k).length ≤ 1024

instance (k : String) : Decidable (IsShort k) := inferInstanceAs (Decidable (_ ∧ _))

theorem escape_eq_doubleChar {c : Char} (h : 0x20 ≤ c.toNat ∧ c.toNat ≤ 0x7E) :
    Json.escape c = doubleChar c := by
  have hall : ∀ n < 95,
      Json.escape (Char.ofNat (0x20 + n)) = doubleChar (Char.ofNat (0x20 + n)) := by
    decide +kernel
  have hc := hall (c.toNat - 0x20) (by omega)
  rwa [Nat.add_sub_cancel' h.1, Char.ofNat_toNat] at hc

/-- **Texts that are written alike.** -/
theorem quoted_eq_doubleChars {s : String} (h : IsAscii s) :
    Json.quoted s = doubleChars s.toList := by
  rw [Json.quoted, doubleChars, List.flatMap_def, List.flatMap_def,
    List.map_congr_left fun c hc => escape_eq_doubleChar (h c hc)]

/-! ### Words -/

theorem isSigned_of_all {cs : List Char} (hne : cs ≠ []) (h : cs.all Char.isAlphanum = true) :
    IsSigned cs := by
  obtain ⟨c, w, rfl⟩ := List.exists_cons_of_ne_nil hne
  have hcw := List.all_eq_true.1 h
  exact ⟨c, w, .inl rfl, hcw c List.mem_cons_self,
    fun d hd => (isTame_of_isAlphanum (hcw d (List.mem_cons_of_mem c hd))).goesOn⟩

theorem isSigned_null : IsSigned "null".toList := isSigned_of_all (by decide) (by decide)

theorem isSigned_boolChars (b : Bool) : IsSigned (Json.boolChars b) :=
  isSigned_of_all (by cases b <;> decide) (by cases b <;> decide)

/-- The spelling of a number is a word. -/
theorem isSigned_literal (l : Json.Literal) : IsSigned l.chars := by
  have hall : ∀ c ∈ l.chars, GoesOn c :=
    l.forall_mem_chars (fun c hc => (isTame_of_isDigit hc).goesOn) (by decide)
  obtain ⟨c, cs, hcons, hc⟩ := l.isDigits.exists_cons
  rw [Json.Literal.chars, hcons] at hall ⊢
  refine ⟨c, cs ++ l.tail, ?_, isAlphanum_of_isDigit hc, fun d hd => hall d ?_⟩
  · cases l.negative with
    | true => exact .inr rfl
    | false => exact .inl rfl
  · exact List.mem_append_right _ (List.mem_cons_of_mem c hd)

/-! ### The tokens of a value -/

/-- The tokens of a key and its colon.  A text in quotes is a key if its colon is within 1024
characters. -/
def keyAndColon (k : String) : List Token :=
  if (doubleChars k.toList).length ≤ 1024 then [.key, .scalar k.toList .otherwise, .value]
  else [.scalar k.toList .otherwise, .value]

mutual

/-- **The tokens of a value.** -/
def tokensOf : Json.Wide → List Token
  | .null => [.scalar "null".toList .plainly]
  | .bool b => [.scalar (Json.boolChars b) .plainly]
  | .number l => [.scalar l.chars .plainly]
  | .text s => [.scalar s.toList .otherwise]
  | .array [] => [.openSequence, .closeSequence]
  | .array (v :: rest) =>
      .openSequence :: (tokensOf v ++ itemTokens rest ++ [.closeSequence])
  | .object [] => [.openMapping, .closeMapping]
  | .object ((k, v) :: rest) =>
      .openMapping :: (keyAndColon k ++ tokensOf v ++ memberTokens rest ++ [.closeMapping])

/-- The tokens of the items behind the first. -/
def itemTokens : List Json.Wide → List Token
  | [] => []
  | v :: rest => .comma :: (tokensOf v ++ itemTokens rest)

/-- The tokens of the entries behind the first. -/
def memberTokens : List (String × Json.Wide) → List Token
  | [] => []
  | (k, v) :: rest => .comma :: (keyAndColon k ++ tokensOf v ++ memberTokens rest)

end

namespace Stream

theorem opens_signed {cs : List Char} (h : IsSigned cs) (X : List Char) : Opens (cs ++ X) := by
  obtain ⟨c, w, hcs, hc, -⟩ := h
  have hc := isTame_of_isAlphanum hc
  obtain rfl | rfl := hcs
  · exact opens_cons.2 ⟨hc.1, hc.ne_hash, hc.2.2.2⟩
  · exact opens_cons.2 (by decide)

theorem opens_quoted (s : String) (X : List Char) : Opens (Json.quoted s ++ X) :=
  opens_cons.2 (by decide)

/-- A value begins where its line is indented to. -/
theorem opens_chars (sp : Json.Spacing) (level : Nat) (v : Json.Wide) (X : List Char) :
    Opens (v.chars sp level ++ X) := by
  cases v with
  | null => exact opens_cons.2 (by decide)
  | bool b => exact opens_signed (isSigned_boolChars b) X
  | number l => exact opens_signed (isSigned_literal l) X
  | text s => exact opens_quoted s X
  | array items => cases items <;> exact opens_cons.2 (by decide)
  | object entries => cases entries <;> exact opens_cons.2 (by decide)

/-- The room in front of an item, an entry or a closing bracket is passed over. -/
theorem passes_gap (sp : Json.Spacing) (level : Nat) {t : List Char} (h : Opens t) :
    Passes true (sp.gap level ++ t) t := by
  cases sp with
  | lines => exact passes_lineBreak level h
  | tight => exact h.passes true

/-- Behind the colon of a key there may be a space. -/
theorem exists_colon_append (sp : Json.Spacing) (t : List Char) (h : Opens t) :
    ∃ Y, sp.colon ++ t = ':' :: Y ∧ Passes true Y t := by
  cases sp with
  | lines => exact ⟨_, rfl, passes_spaces true 1 h⟩
  | tight => exact ⟨_, rfl, h.passes true⟩

/-! ### From the front of a token to the front of another -/

/-- **Within a number of tokens the front of another is reached.** -/
def Leads (s : Stream) (bound : Nat) (t : List Char) (depth : Nat) (ts : List Token) : Prop :=
  ∃ m s' X keyAllowed, Reaches m s s' ∧ m ≤ bound ∧ Stands s' X depth keyAllowed ts ∧
    Passes (0 < depth) X t

/-- What may be behind a value: a comma, or a closing bracket, possibly in a line of its own. -/
def Parts (X t : List Char) : Prop :=
  (∃ e Y, e ∈ [',', ']', '\x7d'] ∧ X = e :: Y ∧ t = X) ∨
    ∃ level e Y, (e = ']' ∨ e = '\x7d') ∧ X = Json.lineBreak level ++ e :: Y ∧ t = e :: Y

section

variable {s s' : Stream} {W X Y t : List Char} {depth bound bound' level : Nat} {keyAllowed : Bool}
  {ts ts' : List Token}

theorem opens_indicator {e : Char} (h : e ∈ [',', ']', '\x7d']) (Y : List Char) :
    Opens (e :: Y) := by
  simp only [List.mem_cons, List.not_mem_nil, or_false] at h
  obtain rfl | rfl | rfl := h <;> exact opens_cons.2 (by decide)

theorem opens_closing {e : Char} (h : e = ']' ∨ e = '\x7d') (Y : List Char) : Opens (e :: Y) :=
  opens_indicator (by obtain rfl | rfl := h <;> decide) Y

theorem parts_comma (Y : List Char) : Parts (',' :: Y) (',' :: Y) :=
  .inl ⟨',', Y, List.mem_cons_self, rfl, rfl⟩

theorem parts_gap (sp : Json.Spacing) (level : Nat) {e : Char} (he : e = ']' ∨ e = '\x7d')
    (Y : List Char) : Parts (sp.gap level ++ e :: Y) (e :: Y) := by
  cases sp with
  | lines => exact .inr ⟨level, e, Y, he, rfl, rfl⟩
  | tight => exact .inl ⟨e, Y, by obtain rfl | rfl := he <;> decide, rfl, rfl⟩

theorem Parts.passes (h : Parts X t) : Passes true X t := by
  obtain ⟨e, Y, he, rfl, rfl⟩ | ⟨level, e, Y, he, rfl, rfl⟩ := h
  · exact (opens_indicator he Y).passes true
  · exact passes_lineBreak level (opens_closing he Y)

theorem Reaches.leads {m : Nat} (h : Reaches m s s') (h' : Leads s' bound t depth ts) :
    Leads s (m + bound) t depth ts := by
  obtain ⟨n, s'', X, keyAllowed, hreaches, hn, hstands, hX⟩ := h'
  exact ⟨m + n, s'', X, keyAllowed, h.trans hreaches, Nat.add_le_add_left hn m, hstands, hX⟩

theorem Leads.mono (h : Leads s bound t depth ts) (hbound : bound ≤ bound') :
    Leads s bound' t depth ts := by
  obtain ⟨n, s', X, keyAllowed, hreaches, hn, hstands, hX⟩ := h
  exact ⟨n, s', X, keyAllowed, hreaches, Nat.le_trans hn hbound, hstands, hX⟩

/-- A word in brackets. -/
theorem Stands.leads_word {cs : List Char} (h : Stands s W (depth + 1) keyAllowed ts)
    (hW : Passes true W (cs ++ X)) (hX : Parts X t) (hcs : IsSigned cs) :
    Leads s cs.length t (depth + 1) (ts ++ [.scalar cs .plainly]) := by
  have hlength : 1 ≤ cs.length := List.length_pos_iff.2 hcs.ne_nil
  have hpasses := hX.passes
  obtain ⟨e, Y, he, rfl, rfl⟩ | ⟨level, e, Y, he, rfl, rfl⟩ := hX
  · have hflow : isFlowIndicator e = true ∧ isBlankOrBreak e = false := by
      simp only [List.mem_cons, List.not_mem_nil, or_false] at he
      obtain rfl | rfl | rfl := he <;> decide
    obtain ⟨s', hreaches, hs'⟩ := h.word hW hcs fun index line column =>
      ⟨_, hcs.plainScalar_indicator 0 index line column hflow.1 hflow.2, rfl⟩
    exact ⟨1, s', _, _, hreaches, hlength, hs', hpasses⟩
  · obtain ⟨s', hreaches, hs'⟩ := h.word hW hcs fun index line column =>
      hcs.plainScalar_closing 0 index line column he (2 * level)
    exact ⟨1, s', _, _, hreaches, hlength, hs', (opens_closing he Y).passes true⟩

/-- **A key and its colon**, whether or not the key ends in time. -/
theorem Stands.keyAndColon {k : String} (h : Stands s W (depth + 1) true ts) (hk : IsAscii k)
    (hW : Passes true W (Json.quoted k ++ ':' :: t)) :
    ∃ s', Reaches 2 s s' ∧ Stands s' t (depth + 1) false (ts ++ Yaml.keyAndColon k) := by
  rw [quoted_eq_doubleChars hk] at hW
  rw [Yaml.keyAndColon]
  split
  next hlength => exact h.key hW hlength
  next hlength => exact h.lateColon hW hlength

end

section

variable (sp : Json.Spacing)

mutual

/-- **A value in brackets**, and what is behind it. -/
theorem Stands.value : ∀ (v : Json.Wide), v.Holds IsAscii IsAscii → ∀ {s : Stream}
    {W X t : List Char} {depth level : Nat} {keyAllowed : Bool} {ts : List Token},
    Stands s W (depth + 1) keyAllowed ts → Passes true W (v.chars sp level ++ X) → Parts X t →
    Leads s (v.chars sp level).length t (depth + 1) (ts ++ tokensOf v)
  | .null, _, _, _, _, _, _, _, _, _, h, hW, hX => h.leads_word hW hX isSigned_null
  | .bool b, _, _, _, _, _, _, _, _, _, h, hW, hX => h.leads_word hW hX (isSigned_boolChars b)
  | .number l, _, _, _, _, _, _, _, _, _, h, hW, hX => h.leads_word hW hX (isSigned_literal l)
  | .text text, htext, s, W, X, t, depth, level, keyAllowed, ts, h, hW, hX => by
      rw [Json.Wide.chars, quoted_eq_doubleChars htext] at hW ⊢
      obtain ⟨s', hreaches, hs'⟩ := h.quoted hW
      exact ⟨1, s', _, _, hreaches, by simp [doubleChars], hs', hX.passes⟩
  | .array items, hitems, _, _, _, _, _, _, _, _, h, hW, hX =>
      h.array items hitems hW hX.passes
  | .object entries, hentries, _, _, _, _, _, _, _, _, h, hW, hX =>
      h.object entries hentries hW hX.passes
termination_by v => sizeOf v

/-- An array. -/
theorem Stands.array : ∀ (items : List Json.Wide), Json.Wide.ItemsHold IsAscii IsAscii items →
    ∀ {s : Stream} {W X t : List Char} {depth level : Nat} {keyAllowed : Bool} {ts : List Token},
    Stands s W depth keyAllowed ts →
    Passes (0 < depth) W (Json.Wide.chars sp level (.array items) ++ X) → Passes (0 < depth) X t →
    Leads s (Json.Wide.chars sp level (.array items)).length t depth
      (ts ++ tokensOf (.array items))
  | [], _, s, W, X, t, depth, level, keyAllowed, ts, h, hW, hX => by
      obtain ⟨s₁, hopen, h₁⟩ := h.opening hW (.inl ⟨rfl, rfl⟩)
      obtain ⟨s₂, hclose, h₂⟩ := h₁.closing (Opens.passes true (opens_cons.2 (by decide)))
        (.inl ⟨rfl, rfl⟩)
      rw [List.append_assoc] at h₂
      exact ⟨2, s₂, _, _, hopen.trans hclose, Nat.le_refl 2, h₂, hX⟩
  | v :: rest, hitems, s, W, X, t, depth, level, keyAllowed, ts, h, hW, hX => by
      obtain ⟨hv, hrest⟩ := hitems
      rw [Json.Wide.chars] at hW
      simp only [List.cons_append, List.append_assoc, List.nil_append] at hW
      obtain ⟨s₁, hopen, h₁⟩ := h.opening hW (.inl ⟨rfl, rfl⟩)
      obtain ⟨m, s₂, Y, keyAllowed', hreaches, hm, h₂, hY⟩ :=
        h₁.items rest v hv hrest (passes_gap sp (level + 1) (opens_chars sp _ v _))
      obtain ⟨s₃, hclose, h₃⟩ := h₂.closing hY (.inl ⟨rfl, rfl⟩)
      have htokens : ts ++ tokensOf (.array (v :: rest)) =
          ts ++ [.openSequence] ++ tokensOf v ++ itemTokens rest ++ [.closeSequence] := by
        simp [tokensOf]
      rw [htokens]
      refine ⟨_, s₃, _, _, (hopen.trans hreaches).trans hclose, ?_, h₃, hX⟩
      rw [Json.Wide.chars]
      simp only [List.length_cons, List.length_append, List.length_nil]
      omega
termination_by items => sizeOf items

/-- The items of an array, up to its end. -/
theorem Stands.items : ∀ (rest : List Json.Wide) (v : Json.Wide), v.Holds IsAscii IsAscii →
    Json.Wide.ItemsHold IsAscii IsAscii rest → ∀ {s : Stream} {W X : List Char}
    {depth level outer : Nat} {keyAllowed : Bool} {ts : List Token},
    Stands s W (depth + 1) keyAllowed ts →
    Passes true W (v.chars sp level ++
      (Json.Wide.itemChars sp level rest ++ (sp.gap outer ++ ']' :: X))) →
    Leads s ((v.chars sp level).length + (Json.Wide.itemChars sp level rest).length) (']' :: X)
      (depth + 1) (ts ++ tokensOf v ++ itemTokens rest)
  | [], v, hv, _, s, W, X, depth, level, outer, keyAllowed, ts, h, hW => by
      rw [itemTokens, List.append_nil]
      exact h.value v hv hW (parts_gap sp outer (.inl rfl) X)
  | w :: rest, v, hv, hrest, s, W, X, depth, level, outer, keyAllowed, ts, h, hW => by
      obtain ⟨hw, hrest⟩ := hrest
      rw [Json.Wide.itemChars] at hW
      simp only [List.cons_append, List.append_assoc] at hW
      obtain ⟨m, s₁, Y, keyAllowed', hreaches, hm, h₁, hY⟩ := h.value v hv hW (parts_comma _)
      obtain ⟨s₂, hcomma, h₂⟩ := h₁.comma hY
      have hlead := (hreaches.trans hcomma).leads
        (h₂.items rest w hw hrest (passes_gap sp level (opens_chars sp _ w _)))
      have htokens : ts ++ tokensOf v ++ itemTokens (w :: rest) =
          ts ++ tokensOf v ++ [.comma] ++ tokensOf w ++ itemTokens rest := by
        simp [itemTokens]
      rw [htokens]
      refine hlead.mono ?_
      rw [Json.Wide.itemChars]
      simp only [List.length_cons, List.length_append]
      omega
termination_by rest v => sizeOf v + sizeOf rest

/-- An object. -/
theorem Stands.object : ∀ (entries : List (String × Json.Wide)),
    Json.Wide.EntriesHold IsAscii IsAscii entries → ∀ {s : Stream} {W X t : List Char}
    {depth level : Nat} {keyAllowed : Bool} {ts : List Token}, Stands s W depth keyAllowed ts →
    Passes (0 < depth) W (Json.Wide.chars sp level (.object entries) ++ X) →
    Passes (0 < depth) X t →
    Leads s (Json.Wide.chars sp level (.object entries)).length t depth
      (ts ++ tokensOf (.object entries))
  | [], _, s, W, X, t, depth, level, keyAllowed, ts, h, hW, hX => by
      obtain ⟨s₁, hopen, h₁⟩ := h.opening hW (.inr ⟨rfl, rfl⟩)
      obtain ⟨s₂, hclose, h₂⟩ := h₁.closing (Opens.passes true (opens_cons.2 (by decide)))
        (.inr ⟨rfl, rfl⟩)
      rw [List.append_assoc] at h₂
      exact ⟨2, s₂, _, _, hopen.trans hclose, Nat.le_refl 2, h₂, hX⟩
  | (k, v) :: rest, hentries, s, W, X, t, depth, level, keyAllowed, ts, h, hW, hX => by
      obtain ⟨hk, hv, hrest⟩ := hentries
      rw [Json.Wide.chars] at hW
      simp only [List.cons_append, List.append_assoc, List.nil_append] at hW
      obtain ⟨s₁, hopen, h₁⟩ := h.opening hW (.inr ⟨rfl, rfl⟩)
      obtain ⟨m, s₂, Y, keyAllowed', hreaches, hm, h₂, hY⟩ :=
        h₁.entries rest k v hk hv hrest (passes_gap sp (level + 1) (opens_quoted k _))
      obtain ⟨s₃, hclose, h₃⟩ := h₂.closing hY (.inr ⟨rfl, rfl⟩)
      have htokens : ts ++ tokensOf (.object ((k, v) :: rest)) =
          ts ++ [.openMapping] ++ Yaml.keyAndColon k ++ tokensOf v ++ memberTokens rest ++
            [.closeMapping] := by
        simp [tokensOf]
      rw [htokens]
      refine ⟨_, s₃, _, _, (hopen.trans hreaches).trans hclose, ?_, h₃, hX⟩
      have hcolon : 1 ≤ sp.colon.length := by cases sp <;> decide
      have hquoted : 2 ≤ (Json.quoted k).length := by simp [Json.quoted]
      rw [Json.Wide.chars]
      simp only [List.length_cons, List.length_append, List.length_nil]
      omega
termination_by entries => sizeOf entries

/-- The entries of an object, up to its end. -/
theorem Stands.entries : ∀ (rest : List (String × Json.Wide)) (k : String) (v : Json.Wide),
    IsAscii k → v.Holds IsAscii IsAscii → Json.Wide.EntriesHold IsAscii IsAscii rest →
    ∀ {s : Stream} {W X : List Char} {depth level outer : Nat} {ts : List Token},
    Stands s W (depth + 1) true ts →
    Passes true W (Json.quoted k ++ (sp.colon ++ (v.chars sp level ++
      (Json.Wide.entryChars sp level rest ++ (sp.gap outer ++ '\x7d' :: X))))) →
    Leads s (2 + (v.chars sp level).length + (Json.Wide.entryChars sp level rest).length)
      ('\x7d' :: X) (depth + 1) (ts ++ Yaml.keyAndColon k ++ tokensOf v ++ memberTokens rest)
  | [], k, v, hk, hv, _, s, W, X, depth, level, outer, ts, h, hW => by
      obtain ⟨Y, hcolon, hY⟩ := exists_colon_append sp _ (opens_chars sp level v
        (Json.Wide.entryChars sp level [] ++ (sp.gap outer ++ '\x7d' :: X)))
      rw [hcolon] at hW
      obtain ⟨s₁, hkey, h₁⟩ := h.keyAndColon hk hW
      rw [memberTokens, List.append_nil]
      exact hkey.leads (h₁.value v hv hY (parts_gap sp outer (.inr rfl) X))
  | (l, w) :: rest, k, v, hk, hv, hrest, s, W, X, depth, level, outer, ts, h, hW => by
      obtain ⟨hl, hw, hrest⟩ := hrest
      obtain ⟨Y, hcolon, hY⟩ := exists_colon_append sp _ (opens_chars sp level v
        (Json.Wide.entryChars sp level ((l, w) :: rest) ++ (sp.gap outer ++ '\x7d' :: X)))
      rw [hcolon] at hW
      obtain ⟨s₁, hkey, h₁⟩ := h.keyAndColon hk hW
      rw [Json.Wide.entryChars] at hY
      simp only [List.cons_append, List.append_assoc] at hY
      obtain ⟨m, s₂, Z, keyAllowed', hreaches, hm, h₂, hZ⟩ := h₁.value v hv hY (parts_comma _)
      obtain ⟨s₃, hcomma, h₃⟩ := h₂.comma hZ
      have hlead := ((hkey.trans hreaches).trans hcomma).leads
        (h₃.entries rest l w hl hw hrest (passes_gap sp level (opens_quoted l _)))
      have htokens : ts ++ Yaml.keyAndColon k ++ tokensOf v ++ memberTokens ((l, w) :: rest) =
          ts ++ Yaml.keyAndColon k ++ tokensOf v ++ [.comma] ++ Yaml.keyAndColon l ++ tokensOf w ++
            memberTokens rest := by
        simp [memberTokens]
      rw [htokens]
      refine hlead.mono ?_
      have hcolon : 1 ≤ sp.colon.length := by cases sp <;> decide
      have hquoted : 2 ≤ (Json.quoted l).length := by simp [Json.quoted]
      rw [Json.Wide.entryChars]
      simp only [List.length_cons, List.length_append]
      omega
termination_by rest _ v => sizeOf v + sizeOf rest

end

end

end Stream

theorem Stream.stands_start (cs : List Char) :
    Stream.Stands (Stream.start (Cursor.start cs)) cs 0 true [] where
  brackets := rfl
  indent := rfl
  outer := rfl
  keys := Stream.areOptional_nil.none_cons
  found _ h := absurd h List.not_mem_nil
  settled := settled_nil
  rest := rfl
  keyAllowed := rfl

/-- Within so many tokens as there are characters a text is at its end. -/
theorem Stream.Leads.tokens_eq {cs : List Char} {ts : List Token}
    (h : Stream.Leads (Stream.start (Cursor.start cs)) cs.length [] 0 ts) :
    tokens cs = ts ++ [.streamEnd] := by
  obtain ⟨m, s, X, keyAllowed, hreaches, hm, hs, hX⟩ := h
  obtain ⟨s', hfetch, hdone, houtcome⟩ := hs.fetch_end hX
  have hfuel : cs.length + 2 = m + (cs.length + 1 - m + 1) := by omega
  rw [tokens, hfuel, Stream.run_of_reaches hreaches, Stream.run, hfetch]
  simp only [hdone, if_true, houtcome]

/-- A value with entries or items. -/
inductive IsCollection : Json.Wide → Prop
  | array (items : List Json.Wide) : IsCollection (.array items)
  | object (entries : List (String × Json.Wide)) : IsCollection (.object entries)

/-- **The tokens of a printed value.** -/
theorem tokens_chars (sp : Json.Spacing) {v : Json.Wide} (hv : IsCollection v)
    (h : v.Holds IsAscii IsAscii) : tokens (v.chars sp 0) = tokensOf v ++ [.streamEnd] := by
  have hfront : Stream.Passes false (v.chars sp 0) (v.chars sp 0 ++ []) := by
    simpa using (Stream.opens_chars sp 0 v []).passes false
  have hend := Stream.opens_nil.passes false
  refine Stream.Leads.tokens_eq ?_
  cases hv with
  | array items => exact (Stream.stands_start _).array sp items h hfront hend
  | object entries => exact (Stream.stands_start _).object sp entries h hfront hend

end Yaml

end CaptureConfig

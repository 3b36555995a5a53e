/-
**What denotes a value is read as that value.**

The reader goes down from an expression to its term, and from a collection to its items or entries.
That it reads what the notation says is shown by induction on the way in which a text denotes a value.
The fuel lasts because the three steps down to a collection are paid for by its opening bracket, and a
step along it by the part that it passes.

Main definitions:

* `Hcl.Expr.ofJson` — the expression of a value.

Main results:

* `Hcl.Spells.expr_eq` — **what denotes a value is read as its expression**.
-/

import CaptureConfig.Proofs.Hcl.Notation

set_option relaxedAutoImplicit false
set_option autoImplicit false

namespace CaptureConfig

namespace Hcl

/-! ### The expression of a value -/

namespace Expr

mutual

/-- **The expression of a value.**  Keys are names. -/
def ofJson : Json → Expr
  | .null => .null
  | .bool b => .bool b
  | .number i => .int i
  | .text s => .text s
  | .array items => .array (itemsOfJson items)
  | .object entries => .object (entriesOfJson entries)

/-- The expressions of items. -/
def itemsOfJson : List Json → List Expr
  | [] => []
  | v :: rest => ofJson v :: itemsOfJson rest

/-- The expressions of entries. -/
def entriesOfJson : List (String × Json) → List (Expr × Expr)
  | [] => []
  | (k, v) :: rest => (.name k, ofJson v) :: entriesOfJson rest

end

end Expr

section

variable {acrossLines : Bool} {fuel : Nat} {cs rest : List Char}

/-! ### Scalars -/

/-- The digits of a number of 64 bits are read as that number. -/
theorem number?_ofNat_append {n : Nat} (hn : n < Nat.pow 2 64) (hrest : Ends acrossLines rest) :
    number? (Digits.ofNat n ++ rest) = some (.int n, rest) := by
  have hdigit := hrest.forall_head (p := fun c => Digits.isDigit 10 c = false) (by decide)
  have hmark := hrest.forall_head (p := fun c => c ≠ '.' ∧ c ≠ 'e' ∧ c ≠ 'E') (by decide)
  have hdigits : digits? (Digits.ofNat n ++ rest) = some (Digits.ofNat n, rest) := by
    rw [digits?, Digits.span_ofNat_append n hdigit]
    obtain ⟨c, cs, hcons, -⟩ := Digits.exists_ofNat_eq_cons n
    rw [hcons]
  have hplaces : places? rest = none := by
    rw [places?]
    rintro ds rfl
    exact (hmark '.' rfl).1 rfl
  have hpower : power? rest = none := by
    cases rest with
    | nil => rfl
    | cons c cs =>
        obtain ⟨-, hsmall, hcapital⟩ := hmark c rfl
        simp [power?, hsmall, hcapital]
  simp [number?, hdigits, hplaces, hpower, Digits.toNat_ofNat, hn]

theorem behindText_eq_none {text : String} (h : ¬ text.toList <+: cs) :
    behindText text cs = none := by
  rw [behindText, if_neg]
  rwa [List.isPrefixOf_iff_prefix]

/-- No further name of a call follows. -/
theorem namespaced_eq (name : List Char) (h : ∀ c ∈ cs.head?, c ≠ ':') :
    namespaced fuel name cs = (name, cs) := by
  cases fuel with
  | zero => rfl
  | succ fuel =>
      have hcolons : behindText "::" cs = none := by
        refine behindText_eq_none fun hfront => ?_
        obtain ⟨ds, rfl⟩ := hfront
        exact h ':' rfl rfl
      rw [namespaced, hcolons]

/-- A word that nothing goes on with is read as what it stands for. -/
theorem term_of_name {name : List Char} (hname : isName name = true)
    (hfirst : name.head?.any (Digits.isDigit 10) = false) (hrest : Ends acrossLines rest) :
    term (fuel + 1) (name ++ rest) =
      some (if String.ofList name = "null" then .null
        else if String.ofList name = "true" then .bool true
        else if String.ofList name = "false" then .bool false
        else .formula (String.ofList name), rest) := by
  have hmark := hrest.forall_head (p := fun c => c ≠ ':' ∧ c ≠ '(') (by decide)
  have hnamespaced : namespaced rest.length name rest = _ :=
    namespaced_eq name fun c hc => (hmark c hc).1
  have hread := name?_append hname hrest.endsName
  cases name with
  | nil => cases hname
  | cons c cs =>
      have hstart := (Bool.and_eq_true_iff.1 hname).1
      have hne {d : Char} (hd : isNameStart d = false) : c = d → False := by
        rintro rfl
        rw [hstart] at hd
        cases hd
      rw [List.cons_append] at hread ⊢
      have hdigit : Digits.isDigit 10 c = false := hfirst
      rw [term, if_neg (by simp [hdigit]), hread]
      · simp only [bind, Option.bind, hnamespaced]
        split
        next ds => exact absurd rfl (hmark '(' rfl).2
        next =>
          split
          · rfl
          split
          · rfl
          split <;> rfl
      · exact hne (by decide)
      · exact fun _ h _ => hne (by decide) h
      · exact hne (by decide)
      · exact hne (by decide)
      · exact hne (by decide)

theorem term_null (hrest : Ends acrossLines rest) :
    term (fuel + 1) ("null".toList ++ rest) = some (.null, rest) :=
  term_of_name (by decide) (by decide) hrest

theorem term_bool (b : Bool) (hrest : Ends acrossLines rest) :
    term (fuel + 1) (Json.boolChars b ++ rest) = some (.bool b, rest) := by
  cases b with
  | true => exact term_of_name (by decide) (by decide) hrest
  | false => exact term_of_name (by decide) (by decide) hrest

theorem term_number {n : Nat} (hn : n < Nat.pow 2 64) (hrest : Ends acrossLines rest) :
    term (fuel + 1) (Digits.ofNat n ++ rest) = some (.int n, rest) := by
  have hread := number?_ofNat_append hn hrest
  obtain ⟨c, cs, hcons, hc⟩ := Digits.exists_ofNat_eq_cons n
  have hne {d : Char} (hd : Digits.isDigit 10 d = false) : c = d → False := by
    rintro rfl
    rw [hc] at hd
    cases hd
  rw [hcons, List.cons_append] at hread ⊢
  rw [term, if_pos hc, hread]
  · exact hne (by decide)
  · exact fun _ h _ => hne (by decide) h
  · exact hne (by decide)
  · exact hne (by decide)
  · exact hne (by decide)

theorem term_text {s : String} (h : SpellsText cs s.toList rest) (hfuel : cs.length ≤ fuel) :
    term (fuel + 1) ('"' :: cs) = some (.text s, rest) := by
  obtain ⟨w, hw⟩ := h.template_eq fuel hfuel
  rw [term, hw]
  simp [bind, Option.bind]

/-! ### Collections -/

theorem term_array {items : List Expr} (hfor : behindWord "for" (skipBlanks true cs) = none)
    (h : itemsUntil fuel ']' cs = some (items, rest)) :
    term (fuel + 1) ('[' :: cs) = some (.array items, rest) := by
  rw [term, hfor]
  simp only [h]
  rfl

theorem term_object {entries : List (Expr × Expr)}
    (hfor : behindWord "for" (skipBlanks true cs) = none)
    (h : entriesUntil fuel [] cs = some (entries, rest)) :
    term (fuel + 1) ('\x7b' :: cs) = some (.object entries, rest) := by
  rw [term, hfor]
  simp only [h]
  rfl

/-! ### Items -/

variable {ds es : List Char} {e : Expr}

theorem startsClear_cons {c : Char} (hc : isBlank acrossLines c = false ∧ c ≠ '/' ∧ c ≠ '#') :
    StartsClear acrossLines (c :: cs) := by
  rintro _ ⟨⟩
  exact hc

theorem itemsUntil_of_closed (h : Blanks true cs (']' :: rest)) :
    itemsUntil (fuel + 1) ']' cs = some ([], rest) := by
  rw [itemsUntil, h.skipBlanks_eq (startsClear_cons (by decide))]
  rfl

/-- The last item. -/
theorem itemsUntil_of_last (before : Blanks true cs ds) (hds : StartsPart ds)
    (hvalue : expr fuel true ds = some (e, es)) (after : Blanks true es (']' :: rest)) :
    itemsUntil (fuel + 1) ']' cs = some ([e], rest) := by
  rw [itemsUntil, before.skipBlanks_eq (hds.startsClear true)]
  obtain ⟨c, ds, rfl, hc⟩ := hds
  have hbracket : c ≠ ']' := by
    rintro rfl
    exact hc (by decide)
  simp only [if_neg hbracket, hvalue, bind, Option.bind]
  rw [after.skipBlanks_eq (startsClear_cons (by decide))]
  rfl

/-- An item with a comma behind it. -/
theorem itemsUntil_of_more {fs : List Char} {items : List Expr} (before : Blanks true cs ds)
    (hds : StartsPart ds) (hvalue : expr fuel true ds = some (e, es))
    (after : Blanks true es (',' :: fs)) (htail : itemsUntil fuel ']' fs = some (items, rest)) :
    itemsUntil (fuel + 1) ']' cs = some (e :: items, rest) := by
  rw [itemsUntil, before.skipBlanks_eq (hds.startsClear true)]
  obtain ⟨c, ds, rfl, hc⟩ := hds
  have hbracket : c ≠ ']' := by
    rintro rfl
    exact hc (by decide)
  simp only [if_neg hbracket, hvalue, bind, Option.bind]
  rw [after.skipBlanks_eq (startsClear_cons (by decide))]
  simp only [htail]
  rfl

/-! ### Entries -/

variable {k : String}

/-- A name ends in front of a sign, with blanks between them or not. -/
theorem Blanks.endsName_sign (h : Blanks false cs ('=' :: rest)) : EndsName cs := by
  intro c hc
  obtain hblank | hc := h.head_cases hc
  · obtain (rfl | rfl) | h := isBlank_iff.1 hblank
    · decide
    · decide
    · cases h.1
  · cases hc
    decide

/-- The name of an entry, the sign behind it and its value. -/
theorem SpellsKey.exists_name?_eq (h : SpellsKey cs k rest) (hk : IsKey k)
    (hrest : StartsPart rest) : ∃ ds es, name? cs = some (k.toList, ds) ∧
      skipBlanks false ds = '=' :: es ∧ Blanks false es rest ∧ es.head? ≠ some '=' := by
  obtain ⟨before, after⟩ := h
  refine ⟨_, _, name?_append hk.isName before.endsName_sign,
    before.skipBlanks_eq (startsClear_cons (by decide)), after, fun hsign => ?_⟩
  obtain hblank | hsign := after.head_cases hsign
  · exact absurd hblank (by decide)
  · obtain ⟨c, ds, rfl, hc⟩ := hrest
    cases hsign
    exact hc (by decide)

/-- A name with a sign behind it is a key. -/
theorem key_of_name (hname : name? cs = some (k.toList, ds)) (hsign : skipBlanks false ds = '=' :: es)
    (hes : es.head? ≠ some '=') : key (fuel + 1) cs = some (.name k, ds) := by
  rw [key, hname]
  simp only [hsign]
  split
  next heq =>
    cases heq
    exact absurd rfl hes
  next => rw [String.ofList_toList]
  next heq => cases heq
  next heq => cases heq
  next _ hno _ _ => exact absurd rfl (hno es)

/-- What is read of an entry, and what its mark decides. -/
theorem SpellsKey.entriesUntil_eq {fs : List Char} {entries : List (Expr × Expr)}
    (before : Blanks true cs ds) (h : SpellsKey ds k es) (hk : IsKey k) (hes : StartsPart es)
    (hvalue : expr (fuel + 1) false es = some (e, fs))
    (hnew : ∀ entry ∈ entries, entry.1.print ≠ k) :
    entriesUntil (fuel + 2) entries cs =
      match skipBlanks false fs with
      | '\x7d' :: rest => some (entries ++ [(.name k, e)], rest)
      | ',' :: rest => entriesUntil (fuel + 1) (entries ++ [(.name k, e)]) rest
      | rest => (break? (skipLineComment rest)).bind
          (entriesUntil (fuel + 1) (entries ++ [(.name k, e)])) := by
  have hds := h.startsPart hk
  obtain ⟨gs, hs, hname, hsign, hblanks, hone⟩ := h.exists_name?_eq hk hes
  have hskip := hblanks.skipBlanks_eq (hes.startsClear false)
  have hkey : key (fuel + 1) _ = _ := key_of_name hname hsign hone
  have hrepeated : (entries.any fun entry => entry.1.print == (Expr.name k).print) = false := by
    rw [List.any_eq_false]
    intro entry hentry
    rw [beq_iff_eq]
    exact hnew entry hentry
  rw [entriesUntil, before.skipBlanks_eq (hds.startsClear true)]
  obtain ⟨c, ds, rfl, hc⟩ := hds
  split
  next heq =>
    cases heq
    exact absurd (by decide) hc
  next =>
    simp only [hkey, hsign, hskip, hvalue, hrepeated, bind, Option.bind]
    rfl

theorem entriesUntil_of_closed (entries : List (Expr × Expr))
    (h : Blanks true cs ('\x7d' :: rest)) :
    entriesUntil (fuel + 1) entries cs = some (entries, rest) := by
  rw [entriesUntil, h.skipBlanks_eq (startsClear_cons (by decide))]
  rfl

theorem Break.stops (h : Break cs rest) : Stops false cs := by
  cases h with
  | newline =>
      rintro c ⟨⟩
      exact .inr ⟨rfl, .inl rfl⟩
  | returned =>
      rintro c ⟨⟩
      exact .inr ⟨rfl, .inr rfl⟩

theorem Separates.stops (h : Separates cs rest) : Stops false cs := by
  cases h with
  | comma =>
      rintro c ⟨⟩
      exact .inl (.inl rfl)
  | lineBreak h => exact h.stops

/-- The last entry, with the bracket in the same line. -/
theorem SpellsKey.entriesUntil_of_last {fs : List Char} {entries : List (Expr × Expr)}
    (before : Blanks true cs ds) (h : SpellsKey ds k es) (hk : IsKey k) (hes : StartsPart es)
    (hvalue : expr (fuel + 1) false es = some (e, fs))
    (hnew : ∀ entry ∈ entries, entry.1.print ≠ k) (after : Blanks false fs ('\x7d' :: rest)) :
    entriesUntil (fuel + 2) entries cs = some (entries ++ [(.name k, e)], rest) := by
  rw [h.entriesUntil_eq before hk hes hvalue hnew,
    after.skipBlanks_eq (startsClear_cons (by decide))]
  rfl

/-- An entry with its mark behind it. -/
theorem SpellsKey.entriesUntil_of_more {fs gs : List Char} {entries : List (Expr × Expr)}
    (before : Blanks true cs ds) (h : SpellsKey ds k es) (hk : IsKey k) (hes : StartsPart es)
    (hvalue : expr (fuel + 1) false es = some (e, fs))
    (hnew : ∀ entry ∈ entries, entry.1.print ≠ k) (after : Blanks false fs gs)
    (mark : Separates gs rest) :
    entriesUntil (fuel + 2) entries cs =
      entriesUntil (fuel + 1) (entries ++ [(.name k, e)]) rest := by
  rw [h.entriesUntil_eq before hk hes hvalue hnew,
    after.skipBlanks_eq mark.stops.startsClear]
  cases mark with
  | comma => rfl
  | lineBreak h =>
      cases h with
      | newline => rfl
      | returned => rfl

/-! ### Loops -/

/-- A character of a name behind the first. -/
theorem isNameChar_of_isName {before behind : List Char} {c : Char}
    (h : isName (before ++ c :: behind) = true) (hbefore : isName before = true) :
    isNameChar c = true := by
  cases before with
  | nil => cases hbefore
  | cons d before =>
      have hchars := (Bool.and_eq_true_iff.1 h).2
      exact List.all_eq_true.1 hchars c (List.mem_append_right _ List.mem_cons_self)

/-- A name is no other word, nor does it begin with one. -/
theorem behindWord_name_append {word : String} {name : List Char} (hname : isName name = true)
    (hword : isName word.toList = true) (hrest : EndsName rest) (hne : name ≠ word.toList) :
    behindWord word (name ++ rest) = none := by
  by_cases hfront : word.toList <+: name ++ rest
  · obtain ⟨behind, hbehind⟩ := hfront
    have hdrop : behindText word (name ++ rest) = some behind := by
      rw [behindText, if_pos (List.isPrefixOf_iff_prefix.2 ⟨behind, hbehind⟩), ← hbehind,
        List.drop_left' String.length_toList]
    rw [behindWord, hdrop, Option.filter_some, if_neg]
    obtain ⟨more, hmore, rfl⟩ | ⟨more, hmore, hrest'⟩ := List.append_eq_append_iff.1 hbehind
    · cases more with
      | nil => exact absurd (hmore.trans (List.append_nil _)) hne
      | cons c more =>
          rw [hmore] at hname
          simp [isNameChar_of_isName hname hword]
    · cases more with
      | nil => exact absurd (hmore.trans (List.append_nil _)).symm hne
      | cons c more =>
          rw [hmore] at hword
          have hstop := hrest c (by rw [hrest']; rfl)
          rw [isNameChar_of_isName hword hname] at hstop
          cases hstop
  · rw [behindWord, behindText_eq_none hfront]
    rfl

/-- No value begins like a loop. -/
theorem Spells.behindWord_eq {v : Json} (h : Spells cs v rest) : behindWord "for" cs = none := by
  have hnone (hfront : ¬ "for".toList <+: cs) : behindWord "for" cs = none := by
    rw [behindWord, behindText_eq_none hfront]
    rfl
  have hhead (hf : cs.head? ≠ some 'f') : behindWord "for" cs = none := by
    refine hnone fun hfront => ?_
    obtain ⟨t, rfl⟩ := hfront
    exact hf rfl
  cases h with
  | null => exact hhead (by simp)
  | bool b =>
      cases b with
      | true => exact hhead (by simp [Json.boolChars])
      | false => exact hnone (by simp [Json.boolChars])
  | number n =>
      obtain ⟨c, cs, hcons, hc⟩ := Digits.exists_ofNat_eq_cons n
      refine hhead fun hf => ?_
      rw [hcons] at hf
      cases hf
      exact absurd hc (by decide)
  | text => exact hhead (by simp)
  | array => exact hhead (by simp)
  | object => exact hhead (by simp)

/-- No key of an entry begins a loop. -/
theorem SpellsKey.behindWord_eq (h : SpellsKey cs k rest) (hk : IsKey k) :
    behindWord "for" cs = none := by
  obtain ⟨before, -⟩ := h
  refine behindWord_name_append hk.isName (by decide) before.endsName_sign fun heq => ?_
  exact hk.ne_for (String.toList_injective heq)

/-- Nor does what follows the opening bracket of an array. -/
theorem SpellsItems.behindWord_eq {vs : List Json} (h : SpellsItems cs vs rest) :
    behindWord "for" (skipBlanks true cs) = none := by
  cases h with
  | closed h =>
      rw [h.skipBlanks_eq (startsClear_cons (by decide))]
      rfl
  | last before h =>
      rw [before.skipBlanks_eq (h.startsPart.startsClear true)]
      exact h.behindWord_eq
  | more before h =>
      rw [before.skipBlanks_eq (h.startsPart.startsClear true)]
      exact h.behindWord_eq

/-- Nor does what follows the opening bracket of an object. -/
theorem SpellsEntries.behindWord_eq {vs : List (String × Json)} (h : SpellsEntries cs vs rest)
    (hvs : EntriesAreSayable vs) : behindWord "for" (skipBlanks true cs) = none := by
  cases h with
  | closed h =>
      rw [h.skipBlanks_eq (startsClear_cons (by decide))]
      rfl
  | last before key =>
      rw [before.skipBlanks_eq ((key.startsPart hvs.1).startsClear true)]
      exact key.behindWord_eq hvs.1
  | more before key =>
      rw [before.skipBlanks_eq ((key.startsPart hvs.1).startsClear true)]
      exact key.behindWord_eq hvs.1

end

/-! ### Values -/

/-- Before a closing bracket or a comma a value ends. -/
theorem Blanks.ends {acrossLines : Bool} {c : Char} {cs rest : List Char}
    (h : Blanks acrossLines cs (c :: rest)) (hc : c = ',' ∨ c = ']' ∨ c = '\x7d') :
    Ends acrossLines cs := by
  refine ⟨_, h, ?_⟩
  rintro _ ⟨⟩
  exact .inl hc

/-- What is read as a term is the whole expression, before the end of a value. -/
theorem Spells.expr_of_term {acrossLines : Bool} {fuel : Nat} {cs rest : List Char} {v : Json}
    (h : Spells cs v rest) (hrest : Ends acrossLines rest) (hfuel : 4 * cs.length ≤ fuel)
    (hterm : term (fuel - 2) cs = some (Expr.ofJson v, rest)) :
    expr fuel acrossLines cs = some (Expr.ofJson v, rest) := by
  obtain ⟨c, ds, rfl, hc⟩ := h.startsPart
  obtain ⟨fuel, rfl⟩ : ∃ f, fuel = f + 3 := ⟨fuel - 3, by simp at hfuel; omega⟩
  refine Hcl.expr_of_term hterm hrest ?_
  rintro _ ⟨⟩
  exact ⟨fun heq => hc (by rw [heq]; decide), fun heq => hc (by rw [heq]; decide)⟩

mutual

/-- **What denotes a value is read as its expression.** -/
theorem Spells.term_eq {acrossLines : Bool} {fuel : Nat} {cs rest : List Char} {v : Json} :
    Spells cs v rest → IsSayable v → Ends acrossLines rest → 4 * cs.length ≤ fuel + 2 →
      term fuel cs = some (Expr.ofJson v, rest)
  | h, hv, hrest, hfuel => by
      cases fuel with
      | zero =>
          have hlength := h.length_lt
          omega
      | succ fuel =>
          cases h with
          | null => exact term_null hrest
          | bool b => exact term_bool b hrest
          | number n => exact term_number (Int.ofNat_lt.1 hv.2) hrest
          | text h => exact term_text h (by simp at hfuel; omega)
          | array h =>
              exact term_array h.behindWord_eq (h.itemsUntil_eq hv (by simp at hfuel; omega))
          | object h =>
              exact term_object (h.behindWord_eq hv.2)
                (h.entriesUntil_eq hv.1 hv.2 (by simp) (by simp at hfuel; omega))

/-- What denotes items is read as their expressions. -/
theorem SpellsItems.itemsUntil_eq {fuel : Nat} {cs rest : List Char} {vs : List Json} :
    SpellsItems cs vs rest → ItemsAreSayable vs → 4 * cs.length < fuel →
      itemsUntil fuel ']' cs = some (Expr.itemsOfJson vs, rest)
  | h, hv, hfuel => by
      cases fuel with
      | zero => omega
      | succ fuel =>
          cases h with
          | closed h => exact itemsUntil_of_closed h
          | last before h after =>
              have hbefore := before.length_le
              have hends := after.ends (.inr (.inl rfl))
              have hvalue : expr fuel true _ = _ := h.expr_of_term hends (by omega)
                (h.term_eq hv.1 hends (by omega))
              exact itemsUntil_of_last before h.startsPart hvalue after
          | more before h after tail =>
              have hbefore := before.length_le
              have hlength := h.length_lt
              have hafter := after.length_le
              have hends := after.ends (.inl rfl)
              have hvalue : expr fuel true _ = _ := h.expr_of_term hends (by omega)
                (h.term_eq hv.1 hends (by omega))
              simp only [List.length_cons] at hafter
              exact itemsUntil_of_more before h.startsPart hvalue after
                (tail.itemsUntil_eq hv.2 (by omega))

/-- What denotes entries is read as their expressions, behind others with other keys. -/
theorem SpellsEntries.entriesUntil_eq {fuel : Nat} {before : List (Expr × Expr)}
    {cs rest : List Char} {es : List (String × Json)} :
    SpellsEntries cs es rest → (es.map Prod.fst).Nodup → EntriesAreSayable es →
      (∀ entry ∈ before, entry.1.print ∉ es.map Prod.fst) → 4 * cs.length < fuel →
      entriesUntil fuel before cs = some (before ++ Expr.entriesOfJson es, rest)
  | h, hnodup, hv, hnew, hfuel => by
      cases h with
      | closed h =>
          obtain ⟨fuel, rfl⟩ := Nat.exists_eq_add_of_lt hfuel
          rw [Expr.entriesOfJson, List.append_nil]
          exact entriesUntil_of_closed before h
      | last gap key h after =>
          have hgap := gap.length_le
          have hkey := key.length_lt
          have hends := after.ends (.inr (.inr rfl))
          obtain ⟨fuel, rfl⟩ : ∃ f, fuel = f + 2 := ⟨fuel - 2, by omega⟩
          have hvalue : expr (fuel + 1) false _ = _ := h.expr_of_term hends (by omega)
            (h.term_eq hv.2.1 hends (by omega))
          refine key.entriesUntil_of_last gap hv.1 h.startsPart hvalue (fun entry hentry => ?_) after
          exact fun heq => hnew entry hentry (by rw [heq]; exact List.mem_cons_self)
      | more gap key h after mark tail =>
          have hgap := gap.length_le
          have hkey := key.length_lt
          have hlength := h.length_lt
          have hafter := after.length_le
          have hmark := mark.length_lt
          have hends : Ends false _ := ⟨_, after, mark.stops⟩
          obtain ⟨fuel, rfl⟩ : ∃ f, fuel = f + 2 := ⟨fuel - 2, by omega⟩
          have hvalue : expr (fuel + 1) false _ = _ := h.expr_of_term hends (by omega)
            (h.term_eq hv.2.1 hends (by omega))
          have hkeys := List.nodup_cons.1 hnodup
          have hhead (entry : Expr × Expr) (hentry : entry ∈ before) : entry.1.print ≠ _ :=
            fun heq => hnew entry hentry (by rw [heq]; exact List.mem_cons_self)
          rw [key.entriesUntil_of_more gap hv.1 h.startsPart hvalue hhead after mark,
            tail.entriesUntil_eq hkeys.2 hv.2.2 ?_ (by omega), List.append_assoc]
          · rfl
          · -- The keys before the others are those before, and the one that was read.
            intro entry hentry
            obtain hentry | hentry := List.mem_append.1 hentry
            · exact fun hmem => hnew entry hentry (List.mem_cons_of_mem _ hmem)
            · rw [List.mem_singleton.1 hentry]
              exact hkeys.1

end

/-- **What denotes a value is the whole expression**, whatever ends it. -/
theorem Spells.expr_eq {acrossLines : Bool} {fuel : Nat} {cs rest : List Char} {v : Json}
    (h : Spells cs v rest) (hv : IsSayable v) (hrest : Ends acrossLines rest)
    (hfuel : 4 * cs.length ≤ fuel) : expr fuel acrossLines cs = some (Expr.ofJson v, rest) :=
  h.expr_of_term hrest hfuel (h.term_eq hv hrest (by omega))

end Hcl

end CaptureConfig

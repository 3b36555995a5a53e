/-
**Blanks, names, and what stands behind a value.**

Within a line spaces and tabs are blanks; where lines may end, breaks are blanks too.  A name ends
before the first character that cannot go on with it.  A value ends where, behind blanks, a comma, a
closing bracket or the end of the line follows: there it is neither gone on with by a step into it nor
joined to another one by an operator.

Main definitions:

* `Hcl.Blanks` — blanks at the front of a text, and what stands behind them;
* `Hcl.isName` — the names;
* `Hcl.Ends` — what may stand behind a value.

Main results:

* `Hcl.Blanks.skipBlanks_eq` — **blanks are passed over**;
* `Hcl.name?_append` — a name is read as a whole;
* `Hcl.expr_of_term` — **a term before such an end is the whole expression**.
-/

import CaptureConfig.Hcl.Reader

set_option relaxedAutoImplicit false
set_option autoImplicit false

namespace CaptureConfig

namespace Hcl

/-! ### Blanks -/

/-- A character that may stand between two marks, across lines or within one. -/
def isBlank (acrossLines : Bool) (c : Char) : Bool :=
  c == ' ' || c == '\t' || acrossLines && (c == '\n' || c == '\r')

theorem isBlank_iff {acrossLines : Bool} {c : Char} : isBlank acrossLines c = true ↔
    (c = ' ' ∨ c = '\t') ∨ acrossLines = true ∧ (c = '\n' ∨ c = '\r') := by
  simp [isBlank]

/-- Blanks at the front of a text, and what stands behind them. -/
inductive Blanks (acrossLines : Bool) : List Char → List Char → Prop
  /-- No further blank. -/
  | done (cs : List Char) : Blanks acrossLines cs cs
  /-- One more blank. -/
  | more {c : Char} {cs rest : List Char} (hc : isBlank acrossLines c = true)
      (h : Blanks acrossLines cs rest) : Blanks acrossLines (c :: cs) rest

/-- Neither a blank nor the mark of a comment stands in front. -/
def StartsClear (acrossLines : Bool) (cs : List Char) : Prop :=
  ∀ c ∈ cs.head?, isBlank acrossLines c = false ∧ c ≠ '/' ∧ c ≠ '#'

section

variable {acrossLines : Bool} {cs rest : List Char}

theorem Blanks.length_le (h : Blanks acrossLines cs rest) : rest.length ≤ cs.length := by
  induction h with
  | done => exact Nat.le_refl _
  | more _ _ ih => exact Nat.le_succ_of_le ih

/-- What stands in front of blanks is a blank, or what stands behind them. -/
theorem Blanks.head_cases (h : Blanks acrossLines cs rest) {c : Char} (hc : c ∈ cs.head?) :
    isBlank acrossLines c = true ∨ c ∈ rest.head? := by
  cases h with
  | done => exact .inr hc
  | more hblank =>
      cases hc
      exact .inl hblank

theorem skipFrom_of_isBlank {c : Char} (hc : isBlank acrossLines c = true) (fuel : Nat) :
    skipFrom acrossLines (fuel + 1) (c :: cs) = skipFrom acrossLines fuel cs := by
  have hslash : c ≠ '/' := by
    rintro rfl
    cases acrossLines <;> cases hc
  rw [skipFrom]
  · obtain hspace | hbreak := isBlank_iff.1 hc
    · rw [if_pos hspace]
    · rw [if_pos hbreak, ite_self]
  · intro _ h
    exact absurd h hslash
  · intro _ h
    exact absurd h hslash

theorem StartsClear.skipFrom_eq (h : StartsClear acrossLines cs) (fuel : Nat) :
    skipFrom acrossLines fuel cs = cs := by
  cases fuel with
  | zero => rfl
  | succ fuel =>
      cases cs with
      | nil => rfl
      | cons c cs =>
          obtain ⟨hblank, hslash, hhash⟩ := h c rfl
          rw [Bool.eq_false_iff, Ne, isBlank_iff, not_or] at hblank
          rw [skipFrom, if_neg hblank.1, if_neg hblank.2, if_neg fun h => hhash h.2]
          · intro _ h
            exact absurd h hslash
          · intro _ h
            exact absurd h hslash

theorem Blanks.skipFrom_eq (h : Blanks acrossLines cs rest) (hrest : StartsClear acrossLines rest) :
    ∀ fuel, cs.length ≤ fuel → skipFrom acrossLines fuel cs = rest := by
  induction h with
  | done => exact fun fuel _ => hrest.skipFrom_eq fuel
  | more hc _ ih =>
      intro fuel hfuel
      cases fuel with
      | zero => simp at hfuel
      | succ fuel =>
          rw [skipFrom_of_isBlank hc]
          exact ih hrest fuel (Nat.le_of_succ_le_succ hfuel)

/-- **Blanks are passed over.** -/
theorem Blanks.skipBlanks_eq (h : Blanks acrossLines cs rest)
    (hrest : StartsClear acrossLines rest) : skipBlanks acrossLines cs = rest :=
  h.skipFrom_eq hrest _ (Nat.le_succ _)

theorem StartsClear.skipBlanks_eq (h : StartsClear acrossLines cs) :
    skipBlanks acrossLines cs = cs := h.skipFrom_eq _

end

/-! ### Names -/

/-- The characters of a name. -/
def isName : List Char → Bool
  | [] => false
  | c :: cs => isNameStart c && cs.all isNameChar

/-- A name cannot go on with what stands in front. -/
def EndsName (cs : List Char) : Prop := ∀ c ∈ cs.head?, isNameChar c = false

/-- **A name is read as a whole.** -/
theorem name?_append {name rest : List Char} (h : isName name = true) (hrest : EndsName rest) :
    name? (name ++ rest) = some (name, rest) := by
  cases name with
  | nil => cases h
  | cons c cs =>
      obtain ⟨hc, hcs⟩ := Bool.and_eq_true_iff.1 h
      have hstops : rest.takeWhile isNameChar = [] ∧ rest.dropWhile isNameChar = rest := by
        cases rest with
        | nil => exact ⟨rfl, rfl⟩
        | cons d ds => simp [hrest d rfl]
      rw [List.cons_append, name?, if_pos hc,
        List.takeWhile_append_of_pos (List.all_eq_true.1 hcs),
        List.dropWhile_append_of_pos (List.all_eq_true.1 hcs), hstops.1, hstops.2,
        List.append_nil]

/-! ### Ends of values -/

/-- A comma, a closing bracket or the end of the line stands in front, or nothing at all. -/
def Stops (acrossLines : Bool) (cs : List Char) : Prop :=
  ∀ c ∈ cs.head?, (c = ',' ∨ c = ']' ∨ c = '\x7d') ∨ acrossLines = false ∧ (c = '\n' ∨ c = '\r')

/-- **What may stand behind a value**: behind blanks, something that ends it. -/
def Ends (acrossLines : Bool) (cs : List Char) : Prop :=
  ∃ rest, Blanks acrossLines cs rest ∧ Stops acrossLines rest

section

variable {acrossLines : Bool} {cs : List Char}

theorem Stops.startsClear (h : Stops acrossLines cs) : StartsClear acrossLines cs := by
  intro c hc
  obtain (rfl | rfl | rfl) | ⟨rfl, rfl | rfl⟩ := h c hc
  · cases acrossLines <;> decide
  · cases acrossLines <;> decide
  · cases acrossLines <;> decide
  · decide
  · decide

theorem Stops.operator?_eq (h : Stops acrossLines cs) : operator? cs = none := by
  cases cs with
  | nil => rfl
  | cons c cs => obtain (rfl | rfl | rfl) | ⟨-, rfl | rfl⟩ := h c rfl <;> rfl

/-- Few characters stand directly behind a value. -/
theorem Ends.forall_head {p : Char → Prop} (h : Ends acrossLines cs)
    (hp : p ' ' ∧ p '\t' ∧ p '\n' ∧ p '\r' ∧ p ',' ∧ p ']' ∧ p '\x7d') : ∀ c ∈ cs.head?, p c := by
  intro c hc
  obtain ⟨hspace, htab, hnewline, hreturn, hcomma, hsquare, hcurly⟩ := hp
  obtain ⟨rest, hblanks, hstops⟩ := h
  obtain hblank | hc := hblanks.head_cases hc
  · obtain (rfl | rfl) | ⟨-, rfl | rfl⟩ := isBlank_iff.1 hblank <;> assumption
  · obtain (rfl | rfl | rfl) | ⟨-, rfl | rfl⟩ := hstops c hc <;> assumption

theorem Ends.endsName (h : Ends acrossLines cs) : EndsName cs :=
  h.forall_head (p := fun c => isNameChar c = false) (by decide)

/-- There is no step into the value. -/
theorem Ends.traversal_eq (h : Ends acrossLines cs) (fuel : Nat) :
    traversal (fuel + 1) cs = some ("", cs) := by
  have hhead := h.forall_head (p := fun c => c ≠ '.' ∧ c ≠ '[') (by decide)
  rw [traversal]
  · rintro rest rfl
    exact (hhead '.' rfl).1 rfl
  · rintro rest rfl
    exact (hhead '.' rfl).1 rfl
  · rintro rest rfl
    exact (hhead '[' rfl).2 rfl

variable {fuel : Nat} {e : Expr} {rest : List Char}

/-- What is no sign in front of a term is the term itself. -/
theorem operand_of_term (hterm : term (fuel + 1) cs = some (e, rest)) (hrest : Ends acrossLines rest)
    (hsign : ∀ c ∈ cs.head?, c ≠ '!' ∧ c ≠ '-') :
    operand (fuel + 2) acrossLines cs = some (e, rest) := by
  rw [operand, hterm]
  · simp only [bind, Option.bind, hrest.traversal_eq fuel]
    rfl
  · rintro rest rfl
    exact (hsign '!' rfl).1 rfl
  · rintro rest rfl
    exact (hsign '-' rfl).2 rfl

/-- **A term before the end of a value is the whole expression.** -/
theorem expr_of_term (hterm : term (fuel + 1) cs = some (e, rest)) (hrest : Ends acrossLines rest)
    (hsign : ∀ c ∈ cs.head?, c ≠ '!' ∧ c ≠ '-') :
    expr (fuel + 3) acrossLines cs = some (e, rest) := by
  have hoperand := operand_of_term hterm hrest hsign
  obtain ⟨behind, hblanks, hstops⟩ := hrest
  rw [expr, hoperand]
  simp only [bind, Option.bind, hblanks.skipBlanks_eq hstops.startsClear]
  split
  next heq =>
    -- No choice between two expressions follows.
    have hmark := hstops '?' rfl
    simp at hmark
  next => rw [hstops.operator?_eq]; rfl

end

end Hcl

end CaptureConfig

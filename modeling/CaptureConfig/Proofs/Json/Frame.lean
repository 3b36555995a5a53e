/-
**What stands around a datum, as far down as it is read.**

In strict notation what is nested too deep cannot be read where it is used.  So a tree may be cut off
at places that depend on what is used of it; but for a datum in a few collections the cuts around the
datum do not depend on it, and a number stays what it is.

Main definitions:

* `Json.IsLimit` — the ways to cut off a tree.

Main results:

* `Json.IsLimit.exists_fillAll` — **a datum in a few collections is cut off in a way of its own, and so
  is what stands around it**.
-/

import CaptureConfig.Proofs.Document.Frame
import CaptureConfig.Proofs.Json.Notation

set_option relaxedAutoImplicit false
set_option autoImplicit false

namespace CaptureConfig

namespace Json

/-! ### Parts of collections -/

theorem limitEntries_eq_map (room : Nat) (u : Uses) (entries : List (Tree Atom × Tree Atom)) :
    limitEntries room u entries =
      entries.map fun e => (e.1, limit room (u.ofKey (keyText e.1)) e.2) := by
  induction entries with
  | nil => rfl
  | cons e rest ih => rw [limitEntries, ih]; rfl

theorem getElem?_limitItems (room : Nat) (u : Uses) (items : List (Tree Atom)) (index i : Nat) :
    (limitItems room u index items)[i]? = items[i]?.map (limit room (u.ofIndex (index + i))) := by
  induction items generalizing index i with
  | nil => rfl
  | cons t rest ih =>
      cases i with
      | zero => rfl
      | succ i =>
          rw [limitItems, List.getElem?_cons_succ, ih, List.getElem?_cons_succ, Nat.add_right_comm]
          rfl

theorem limitItems_append (room : Nat) (u : Uses) (items more : List (Tree Atom)) (index : Nat) :
    limitItems room u index (items ++ more) =
      limitItems room u index items ++ limitItems room u (index + items.length) more := by
  induction items generalizing index with
  | nil => rfl
  | cons t rest ih =>
      rw [List.cons_append, limitItems, ih, limitItems, List.length_cons, Nat.add_right_comm,
        Nat.add_assoc]
      rfl

theorem length_limitItems (room : Nat) (u : Uses) (items : List (Tree Atom)) (index : Nat) :
    (limitItems room u index items).length = items.length := by
  induction items generalizing index with
  | nil => rfl
  | cons t rest ih => rw [limitItems, List.length_cons, ih, List.length_cons]

/-! ### Around a datum -/

/-- **The ways to cut off a tree**: what is not used is not looked at. -/
inductive IsLimit (room : Nat) : (Tree Atom → Tree Atom) → Prop
  | whole : IsLimit room id
  | limited (u : Uses) : IsLimit room (limit room u)

section

variable {room : Nat} {g : Tree Atom → Tree Atom} {names : List String} {name : String}

/-- A number stays what it is. -/
theorem IsLimit.literal (hg : IsLimit room g) (l : Literal) : g l.tree = l.tree := by
  cases hg with
  | whole => rfl
  | limited u =>
      rw [Literal.tree]
      cases l.numeral.value? <;> rfl

/-- What is not used is left as it is. -/
theorem limit_of_isNothing {u : Uses} (hu : u.isNothing = true) (room : Nat) (t : Tree Atom) :
    limit room u t = t := by
  cases t with
  | seq mark items closed => rw [limit, if_pos hu]
  | map mark entries closed => rw [limit, if_pos hu]
  | _ => rfl

/-- A collection is cut off around a datum and in it. -/
theorem IsLimit.exists_fill (hg : IsLimit (room + 1) g) {f : Frame Atom} (hf : f.IsOf names name) :
    ∃ (f' : Frame Atom) (g' : Tree Atom → Tree Atom), f'.IsOf names name ∧ IsLimit room g' ∧
      ∀ t, g (f.fill t) = f'.fill (g' t) := by
  cases hg with
  | whole => exact ⟨f, id, hf, .whole, fun _ => rfl⟩
  | limited u =>
      cases hu : u.isNothing with
      | true => exact ⟨f, id, hf, .whole, fun t => limit_of_isNothing hu _ _⟩
      | false =>
          have hused : ¬ u.isNothing = true := Bool.eq_false_iff.1 hu
          cases f with
          | entry mark before key behind closed =>
              refine ⟨.entry mark (limitEntries room u before) key (limitEntries room u behind) closed,
                _, hf, .limited (u.ofKey (keyText key)), fun t => ?_⟩
              show limit (room + 1) u (.map mark (before ++ [(key, t)] ++ behind) closed) =
                .map mark (limitEntries room u before ++ [(key, _)] ++ limitEntries room u behind)
                  closed
              rw [limit, if_neg hused, if_neg (Nat.succ_ne_zero room), Nat.add_sub_cancel]
              simp only [limitEntries_eq_map, List.map_append, List.map_cons, List.map_nil]
          | item mark before behind closed =>
              refine ⟨.item mark (limitItems room u 0 before)
                (limitItems room u (before.length + 1) behind) closed, _, ?_,
                .limited (u.ofIndex before.length), fun t => ?_⟩
              · show names[(limitItems room u 0 before).length]? = some name
                rw [length_limitItems]
                exact hf
              · show limit (room + 1) u (.seq mark (before ++ [t] ++ behind) closed) =
                  .seq mark (limitItems room u 0 before ++ [_] ++ limitItems room u _ behind) closed
                rw [limit, if_neg hused, if_neg (Nat.succ_ne_zero room), Nat.add_sub_cancel,
                  limitItems_append, limitItems_append, List.length_append, Nat.zero_add,
                  Nat.zero_add]
                rfl

/-- **A datum in a few collections is cut off in a way of its own, and so is what stands around
it.** -/
theorem IsLimit.exists_fillAll {f : Frame Atom} (hf : f.IsOf names name) :
    ∀ {path : List (List String × String)} {outer : List (Frame Atom)} {g : Tree Atom → Tree Atom},
      IsLimit (room + path.length + 1) g → Frame.AreAlong path outer →
      ∃ (outer' : List (Frame Atom)) (f' : Frame Atom) (g' : Tree Atom → Tree Atom),
        Frame.AreAlong path outer' ∧ f'.IsOf names name ∧ IsLimit room g' ∧
          ∀ t, g (Frame.fillAll outer (f.fill t)) = Frame.fillAll outer' (f'.fill (g' t))
  | [], [], g, hg, _ => by
      obtain ⟨f', g', hf', hg', hall⟩ := hg.exists_fill hf
      exact ⟨[], f', g', trivial, hf', hg', hall⟩
  | _ :: path, e :: outer, g, hg, houter => by
      obtain ⟨e', g₁, he', hg₁, hstep⟩ := hg.exists_fill houter.1
      obtain ⟨outer', f', g', houter', hf', hg', hall⟩ := hg₁.exists_fillAll hf houter.2
      refine ⟨e' :: outer', f', g', ⟨he', houter'⟩, hf', hg', fun t => ?_⟩
      show g (e.fill (Frame.fillAll outer (f.fill t))) = e'.fill (Frame.fillAll outer' (f'.fill (g' t)))
      rw [hstep, hall]

end

end Json

end CaptureConfig

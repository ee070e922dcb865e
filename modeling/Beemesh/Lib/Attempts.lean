import Beemesh.Lib.Outcome

/-!
# Calls that change a state

Calls for the elements of a list, one after another, each on the state that the one before it has
left, until one does not return a value. The state it leaves is where the sequence ends.

## Main definitions

* `Outcome.forEach f s xs`: the calls `f` for `xs`, from the state `s`
* `Outcome.Attempted f s xs s'`: calls that all return, and lead from `s` to `s'`

## Main results

* `exists_forEach`: a sequence has gone through the calls in front, and ends with them or with the
  call that broke it off
-/

namespace Outcome

variable {ε σ α : Type} {f : σ → α → Outcome ε Unit × σ}

/-- The calls for the elements of a list, until one does not return. -/
def forEach (f : σ → α → Outcome ε Unit × σ) : σ → List α → Outcome ε Unit × σ
  | s, [] => (ok (), s)
  | s, x :: xs =>
    match f s x with
    | (ok (), s) => forEach f s xs
    | (err e, s) => (err e, s)
    | (panic, s) => (panic, s)

/-- The calls all return, and lead from one state to the other. -/
inductive Attempted (f : σ → α → Outcome ε Unit × σ) : σ → List α → σ → Prop
  | nil (s : σ) : Attempted f s [] s
  | cons {s s₁ s' : σ} {x : α} {xs : List α} (hx : f s x = (ok (), s₁))
      (hxs : Attempted f s₁ xs s') : Attempted f s (x :: xs) s'

/-- **How far a sequence gets**: the calls in front have all returned, and either there is no other
one, or the next one did not return, and left what the sequence leaves. -/
theorem exists_forEach (s : σ) (xs : List α) :
    ∃ done rest s₁, xs = done ++ rest ∧ Attempted f s done s₁ ∧
      (rest = [] ∧ forEach f s xs = (ok (), s₁) ∨
        ∃ x rest' r s', rest = x :: rest' ∧ f s₁ x = (r, s') ∧ r ≠ ok () ∧
          forEach f s xs = (r, s')) := by
  induction xs generalizing s with
  | nil => exact ⟨[], [], s, rfl, .nil s, .inl ⟨rfl, rfl⟩⟩
  | cons x xs ih =>
    cases hx : f s x with
    | mk r s₁ =>
      -- A call that does not return breaks the sequence off.
      have hbreaks (hne : r ≠ ok ()) (hforEach : forEach f s (x :: xs) = (r, s₁)) :
          ∃ done rest s₂, x :: xs = done ++ rest ∧ Attempted f s done s₂ ∧
            (rest = [] ∧ forEach f s (x :: xs) = (ok (), s₂) ∨
              ∃ y rest' r' s', rest = y :: rest' ∧ f s₂ y = (r', s') ∧ r' ≠ ok () ∧
                forEach f s (x :: xs) = (r', s')) :=
        ⟨[], x :: xs, s, rfl, .nil s, .inr ⟨x, xs, r, s₁, rfl, hx, hne, hforEach⟩⟩
      cases r with
      | ok u =>
        obtain ⟨done, rest, s₂, rfl, hdone, hend⟩ := ih s₁
        have hforEach : forEach f s (x :: (done ++ rest)) = forEach f s₁ (done ++ rest) := by
          rw [forEach, hx]
        exact ⟨x :: done, rest, s₂, rfl, .cons hx hdone, hforEach ▸ hend⟩
      | err e => exact hbreaks (by simp) (by rw [forEach, hx])
      | panic => exact hbreaks (by simp) (by rw [forEach, hx])

end Outcome

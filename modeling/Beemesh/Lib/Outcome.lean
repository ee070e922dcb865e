import Mathlib.Data.Nat.Digits.Defs

/-!
# Calls that can panic

What a call comes to in a language whose indexing, slicing and arithmetic are checked at run time:
a value, an error that it returns, or a panic. The operations that panic are here with what it
takes for them not to.

## Main definitions

* `Outcome ε α`: a value, an error or a panic
* `index`, `slice`, `usizeAdd`: the checked operations on lists and on 64-bit lengths
* `strTo`: a string cut at a number of bytes

## Main results

* `bind_eq_ok_iff`, `bind_eq_panic_iff`: sequences of calls
* `mapM_eq_ok`, `mapM_exists_ok`: a call for each element of a list
* `slice_eq_ok_iff`, `usizeAdd_eq_ok`: when the operations succeed
* `strTo_eq_ok_iff`: a string is cut at the end of a character
-/

/-- What a call comes to. -/
inductive Outcome (ε α : Type)
  | ok (a : α)
  | err (e : ε)
  | panic
  deriving DecidableEq

namespace Outcome

variable {ε α β : Type}

instance : Monad (Outcome ε) where
  pure := ok
  bind
    | ok a, f => f a
    | err e, _ => err e
    | panic, _ => panic

@[simp] theorem ok_bind (a : α) (f : α → Outcome ε β) : (ok a >>= f) = f a := rfl

@[simp] theorem err_bind (e : ε) (f : α → Outcome ε β) : (err e >>= f) = err e := rfl

@[simp] theorem panic_bind (f : α → Outcome ε β) : ((panic : Outcome ε α) >>= f) = panic := rfl

@[simp] theorem pure_eq_ok (a : α) : (pure a : Outcome ε α) = ok a := rfl

/-- A sequence returns a value when each of its calls does. -/
theorem bind_eq_ok_iff {x : Outcome ε α} {f : α → Outcome ε β} {b : β} :
    (x >>= f) = ok b ↔ ∃ a, x = ok a ∧ f a = ok b := by
  cases x <;> simp

/-- A sequence panics when one of its calls does, those before it having returned values. -/
theorem bind_eq_panic_iff {x : Outcome ε α} {f : α → Outcome ε β} :
    (x >>= f) = panic ↔ x = panic ∨ ∃ a, x = ok a ∧ f a = panic := by
  cases x <;> simp

instance : LawfulMonad (Outcome ε) := .mk' (Outcome ε)
  (fun x => by cases x <;> rfl) (fun _ _ => rfl) (fun x _ _ => by cases x <;> rfl)

/-- A call for each element of a list, all of which return values. -/
theorem mapM_eq_ok {f : α → Outcome ε β} {g : α → β} {xs : List α}
    (h : ∀ x ∈ xs, f x = ok (g x)) : xs.mapM f = ok (xs.map g) := by
  induction xs with
  | nil => rfl
  | cons x xs ih =>
    rw [List.mapM_cons, h x (by simp), ih fun y hy => h y (by simp [hy])]
    rfl

/-- The same for values of which one part is known. -/
theorem mapM_exists_ok {γ : Type} {f : α → Outcome ε β} {part : β → γ} {g : α → γ} {xs : List α}
    (h : ∀ x ∈ xs, ∃ y, f x = ok y ∧ part y = g x) :
    ∃ ys, xs.mapM f = ok ys ∧ ys.map part = xs.map g := by
  induction xs with
  | nil => exact ⟨[], rfl, rfl⟩
  | cons x xs ih =>
    obtain ⟨y, hy, hpart⟩ := h x (by simp)
    obtain ⟨ys, hys, hparts⟩ := ih fun z hz => h z (by simp [hz])
    refine ⟨y :: ys, ?_, by rw [List.map_cons, hpart, hparts, List.map_cons]⟩
    rw [List.mapM_cons, hy, hys]
    rfl

/-- A call that returns: its value or its error. -/
def ofResult : Except ε α → Outcome ε α
  | .ok a => ok a
  | .error e => err e

@[simp] theorem ofResult_eq_ok_iff {x : Except ε α} {a : α} : ofResult x = ok a ↔ x = .ok a := by
  cases x <;> simp [ofResult]

@[simp] theorem ofResult_ne_panic {x : Except ε α} : ofResult x ≠ panic := by
  cases x <;> simp [ofResult]

/-- An early return of `e`, unless the condition holds. -/
def require (condition : Prop) [Decidable condition] (e : ε) : Outcome ε Unit :=
  if condition then ok () else err e

@[simp] theorem require_eq_ok_iff {condition : Prop} [Decidable condition] {e : ε} {u : Unit} :
    require condition e = ok u ↔ condition := by
  unfold require
  split_ifs with h <;> simp [h]

@[simp] theorem require_ne_panic {condition : Prop} [Decidable condition] {e : ε} :
    require condition e ≠ panic := by
  unfold require
  split_ifs <;> simp

/-! ## Checked operations -/

/-- `xs[i]`. -/
def index (xs : List α) (i : ℕ) : Outcome ε α :=
  match xs[i]? with
  | some x => ok x
  | none => panic

/-- `&xs[i..j]`. -/
def slice (xs : List α) (i j : ℕ) : Outcome ε (List α) :=
  if i ≤ j ∧ j ≤ xs.length then ok ((xs.drop i).take (j - i)) else panic

/-- `a + b` on 64-bit lengths, overflow checked. -/
def usizeAdd (a b : ℕ) : Outcome ε ℕ := if a + b < 2 ^ 64 then ok (a + b) else panic

theorem index_eq_ok_iff {xs : List α} {i : ℕ} {x : α} :
    (index xs i : Outcome ε α) = ok x ↔ xs[i]? = some x := by
  unfold index
  cases xs[i]? <;> simp

theorem slice_eq_ok_iff {xs ys : List α} {i j : ℕ} :
    (slice xs i j : Outcome ε (List α)) = ok ys ↔
      i ≤ j ∧ j ≤ xs.length ∧ (xs.drop i).take (j - i) = ys := by
  unfold slice
  split_ifs with h
  · simp [h]
  · simp only [false_iff]
    exact fun ⟨hij, hj, _⟩ => h ⟨hij, hj⟩

theorem usizeAdd_eq_ok {a b : ℕ} (h : a + b < 2 ^ 64) :
    (usizeAdd a b : Outcome ε ℕ) = ok (a + b) := if_pos h

/-! ## Strings -/

/-- The characters that take up the first `n` bytes, if `n` is the end of one of them. -/
def charsTo : ℕ → List Char → Option (List Char)
  | 0, _ => some []
  | _ + 1, [] => none
  | n + 1, c :: s =>
    if c.utf8Size ≤ n + 1 then (charsTo (n + 1 - c.utf8Size) s).map (c :: ·) else none

/-- `&s[..n]`. -/
def strTo (s : String) (n : ℕ) : Outcome ε String :=
  match charsTo n s.toList with
  | some front => ok (String.ofList front)
  | none => panic

/-- The characters cut off are the ones in front, and take up the bytes asked for. -/
theorem charsTo_eq_some_iff {n : ℕ} {s front : List Char} :
    charsTo n s = some front ↔ ∃ back, s = front ++ back ∧ (front.map Char.utf8Size).sum = n := by
  induction s generalizing n front with
  | nil =>
    cases n with
    | zero =>
      constructor
      · rintro ⟨⟩
        exact ⟨[], rfl, rfl⟩
      · rintro ⟨back, hs, -⟩
        rw [(List.append_eq_nil_iff.mp hs.symm).1]
        rfl
    | succ n =>
      constructor
      · rintro ⟨⟩
      · rintro ⟨back, hs, hsum⟩
        rw [(List.append_eq_nil_iff.mp hs.symm).1] at hsum
        simp at hsum
  | cons c s ih =>
    cases n with
    | zero =>
      -- Every character takes up a byte, so nothing takes up none.
      constructor
      · rintro ⟨⟩
        exact ⟨c :: s, rfl, rfl⟩
      · rintro ⟨back, hs, hsum⟩
        cases front with
        | nil => rfl
        | cons d front =>
          have hpos := Char.utf8Size_pos d
          simp only [List.map_cons, List.sum_cons] at hsum
          omega
    | succ n =>
      rw [charsTo]
      constructor
      · intro h
        split_ifs at h with hsize
        obtain ⟨tail, htail, rfl⟩ := Option.map_eq_some_iff.mp h
        obtain ⟨back, rfl, hsum⟩ := ih.mp htail
        exact ⟨back, rfl, by simp only [List.map_cons, List.sum_cons]; omega⟩
      · rintro ⟨back, hs, hsum⟩
        cases front with
        | nil => simp at hsum
        | cons d front =>
          obtain ⟨rfl, rfl⟩ := List.cons.inj hs
          simp only [List.map_cons, List.sum_cons] at hsum
          rw [if_pos (by omega), ih.mpr ⟨back, rfl, by omega⟩]
          rfl

/-- **Cutting a string**: at the end of a character, and else a panic. -/
theorem strTo_eq_ok_iff {s front : String} {n : ℕ} :
    (strTo s n : Outcome ε String) = ok front ↔
      ∃ back, s = front ++ back ∧ (front.toList.map Char.utf8Size).sum = n := by
  unfold strTo
  constructor
  · intro h
    split at h
    · rename_i chars hchars
      obtain ⟨back, hs, hsum⟩ := charsTo_eq_some_iff.mp hchars
      obtain rfl := ok.inj h
      refine ⟨String.ofList back, String.toList_inj.mp ?_, by rwa [String.toList_ofList]⟩
      rw [String.toList_append, String.toList_ofList, String.toList_ofList, hs]
    · exact absurd h (by simp)
  · rintro ⟨back, rfl, hsum⟩
    rw [charsTo_eq_some_iff.mpr ⟨back.toList, String.toList_append, hsum⟩]
    exact congrArg ok String.ofList_toList

/-- A string all of whose characters take up one byte is cut wherever it is long enough. -/
theorem strTo_of_ascii {s : String} (h : ∀ c ∈ s.toList, c.utf8Size = 1) (n : ℕ) :
    (strTo s n : Outcome ε String) =
      if n ≤ s.toList.length then ok (String.ofList (s.toList.take n)) else panic := by
  have hsum (front : List Char) (hfront : ∀ c ∈ front, c ∈ s.toList) :
      (front.map Char.utf8Size).sum = front.length := by
    rw [List.map_congr_left fun c hc => h c (hfront c hc), List.map_const', List.sum_replicate_nat,
      Nat.mul_one]
  split_ifs with hn
  · refine strTo_eq_ok_iff.mpr ⟨String.ofList (s.toList.drop n), String.toList_inj.mp ?_, ?_⟩
    · rw [String.toList_append, String.toList_ofList, String.toList_ofList, List.take_append_drop]
    · rw [String.toList_ofList, hsum _ fun c hc => List.mem_of_mem_take hc, List.length_take,
        Nat.min_eq_left hn]
  · unfold strTo
    cases hchars : charsTo n s.toList with
    | none => rfl
    | some front =>
      obtain ⟨back, hs, hfront⟩ := charsTo_eq_some_iff.mp hchars
      rw [hsum front fun c hc => hs ▸ List.mem_append_left back hc] at hfront
      have hlength := congrArg List.length hs
      rw [List.length_append] at hlength
      omega

end Outcome

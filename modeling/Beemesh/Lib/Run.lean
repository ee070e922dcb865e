import Mathlib.Data.List.Basic

/-!
# Runs of a deterministic step function

A system is a step function on states and actions; a run folds it over a list of actions. Every
state reached from `s` is `run step s acts` for some `acts`, so a statement about every list of
actions is a statement about every reachable state. A guarded run is one each of whose actions is
taken in a state that allows it.

## Main definitions

* `run step s acts`: the state after the actions `acts`
* `Guarded step guard s acts`: every action of the run meets `guard` in the state it is taken in
* `Always step p s acts`: every state of the run has `p`
* `Occurs step p s acts`: some action of the run meets `p` in the state it is taken in

## Main results

* `run_invariant`: a property kept by every step holds after every run
* `Guarded.invariant`: a property kept by every guarded step holds after every guarded run
* `Guarded.of_invariant`: what such a property gives of a guarded step holds of all of them
* `guarded_congr`: guards that agree where an invariant holds guard the same runs
* `always_iff_guarded`: a property holds throughout exactly the runs of a guard, where it starts and
  the guard keeps it and is needed for it
* `run_image`, `always_image`: runs of a system and of its image
* `run_iff_occurs`: what only such an action brings about holds after the runs with one
-/

namespace Run

variable {σ α : Type*} (step : σ → α → σ)

/-- The state after the actions `acts`, from `s`. -/
def run (s : σ) (acts : List α) : σ := acts.foldl step s

@[simp] theorem run_nil (s : σ) : run step s [] = s := rfl

@[simp] theorem run_cons (s : σ) (a : α) (acts : List α) :
    run step s (a :: acts) = run step (step s a) acts := rfl

theorem run_append (s : σ) (acts acts' : List α) :
    run step s (acts ++ acts') = run step (run step s acts) acts' :=
  List.foldl_append

/-- Every action of the run from `s` meets `guard` in the state it is taken in. -/
def Guarded (guard : σ → α → Prop) : σ → List α → Prop
  | _, [] => True
  | s, a :: acts => guard s a ∧ Guarded guard (step s a) acts

instance (guard : σ → α → Prop) [∀ s a, Decidable (guard s a)] :
    ∀ s acts, Decidable (Guarded step guard s acts)
  | _, [] => inferInstanceAs (Decidable True)
  | s, a :: acts =>
    have := instDecidableGuarded guard (step s a) acts
    inferInstanceAs (Decidable (_ ∧ _))

variable {step}

theorem guarded_cons {guard : σ → α → Prop} {s : σ} {a : α} {acts : List α} :
    Guarded step guard s (a :: acts) ↔ guard s a ∧ Guarded step guard (step s a) acts :=
  Iff.rfl

theorem guarded_append {guard : σ → α → Prop} {s : σ} {acts acts' : List α} :
    Guarded step guard s (acts ++ acts') ↔
      Guarded step guard s acts ∧ Guarded step guard (run step s acts) acts' := by
  induction acts generalizing s with
  | nil => simp [Guarded]
  | cons a acts ih => simp [Guarded, ih, and_assoc]

theorem Guarded.mono {guard guard' : σ → α → Prop} (h : ∀ s a, guard s a → guard' s a) {s : σ}
    {acts : List α} (hg : Guarded step guard s acts) : Guarded step guard' s acts := by
  induction acts generalizing s with
  | nil => trivial
  | cons a acts ih => exact ⟨h s a hg.1, ih hg.2⟩

theorem Guarded.and {guard guard' : σ → α → Prop} {s : σ} {acts : List α}
    (hg : Guarded step guard s acts) (hg' : Guarded step guard' s acts) :
    Guarded step (fun s a => guard s a ∧ guard' s a) s acts := by
  induction acts generalizing s with
  | nil => trivial
  | cons a acts ih => exact ⟨⟨hg.1, hg'.1⟩, ih hg.2 hg'.2⟩

/-- **Guarded invariants**: a property that every guarded step keeps holds at the end of every
guarded run. -/
theorem Guarded.invariant {guard : σ → α → Prop} {inv : σ → Prop}
    (hstep : ∀ s a, guard s a → inv s → inv (step s a)) {s : σ} {acts : List α}
    (hg : Guarded step guard s acts) (hs : inv s) : inv (run step s acts) := by
  induction acts generalizing s with
  | nil => exact hs
  | cons a acts ih => exact ih hg.2 (hstep s a hg.1 hs)

/-- What a guard and an invariant that it keeps give of each action holds of every action of a
guarded run. -/
theorem Guarded.of_invariant {guard guard' : σ → α → Prop} {inv : σ → Prop}
    (hstep : ∀ s a, guard s a → inv s → inv (step s a))
    (hgives : ∀ s a, guard s a → inv s → guard' s a) {s : σ} {acts : List α}
    (hg : Guarded step guard s acts) (hs : inv s) : Guarded step guard' s acts := by
  induction acts generalizing s with
  | nil => trivial
  | cons a acts ih => exact ⟨hgives s a hg.1 hs, ih hg.2 (hstep s a hg.1 hs)⟩

/-- **Invariants**: a property that every step keeps holds at the end of every run. -/
theorem run_invariant {inv : σ → Prop} (hstep : ∀ s a, inv s → inv (step s a)) {s : σ}
    (acts : List α) (hs : inv s) : inv (run step s acts) := by
  induction acts generalizing s with
  | nil => exact hs
  | cons a acts ih => exact ih (hstep s a hs)

/-- Guards that agree where an invariant holds guard the same runs. -/
theorem guarded_congr {guard guard' : σ → α → Prop} {inv : σ → Prop}
    (hstep : ∀ s a, inv s → inv (step s a)) (hguard : ∀ s a, inv s → (guard s a ↔ guard' s a))
    {s : σ} (acts : List α) (hs : inv s) :
    Guarded step guard s acts ↔ Guarded step guard' s acts := by
  induction acts generalizing s with
  | nil => exact Iff.rfl
  | cons a acts ih => exact and_congr (hguard s a hs) (ih (hstep s a hs))

/-! ## Properties of every state -/

variable (step) in
/-- Every state of the run from `s` has `p`. -/
def Always (p : σ → Prop) (s : σ) (acts : List α) : Prop :=
  ∀ acts', acts' <+: acts → p (run step s acts')

@[simp] theorem always_nil {p : σ → Prop} {s : σ} : Always step p s [] ↔ p s := by
  simp [Always]

theorem always_cons {p : σ → Prop} {s : σ} {a : α} {acts : List α} :
    Always step p s (a :: acts) ↔ p s ∧ Always step p (step s a) acts := by
  constructor
  · intro h
    exact ⟨h [] (List.nil_prefix), fun acts' hacts' => h (a :: acts')
      (List.cons_prefix_cons.mpr ⟨rfl, hacts'⟩)⟩
  · rintro ⟨hs, h⟩ acts' hacts'
    cases acts' with
    | nil => exact hs
    | cons a' acts' =>
      obtain ⟨rfl, hrest⟩ := List.cons_prefix_cons.mp hacts'
      exact h acts' hrest

theorem Always.last {p : σ → Prop} {s : σ} {acts : List α} (h : Always step p s acts) :
    p (run step s acts) :=
  h acts List.prefix_rfl

/-- An invariant of the guarded steps that has `p` wherever it holds, and that a step outside the
guard takes out of `p`, describes the runs throughout which `p` holds. -/
theorem always_iff_guarded {guard : σ → α → Prop} {inv p : σ → Prop} {allowed : α → Prop}
    (hp : ∀ s, inv s → p s) (hstep : ∀ s a, inv s → guard s a → inv (step s a))
    (hbreak : ∀ s a, allowed a → inv s → ¬ guard s a → ¬ p (step s a)) {s : σ} {acts : List α}
    (hacts : ∀ a ∈ acts, allowed a) (hs : inv s) :
    Always step p s acts ↔ Guarded step guard s acts := by
  induction acts generalizing s with
  | nil => exact iff_of_true (always_nil.mpr (hp s hs)) trivial
  | cons a acts ih =>
    rw [always_cons, guarded_cons, and_iff_right (hp s hs)]
    by_cases hguard : guard s a
    · rw [and_iff_right hguard]
      exact ih (fun a' ha' => hacts a' (List.mem_cons_of_mem a ha')) (hstep s a hs hguard)
    · refine iff_of_false (fun h => ?_) fun h => hguard h.1
      exact hbreak s a (hacts a List.mem_cons_self) hs hguard (h [] List.nil_prefix)

/-! ## Runs of a system and of its image -/

section Image

variable {τ : Type*} {step' : τ → α → τ} {f : τ → σ} (hf : ∀ t a, f (step' t a) = step (f t) a)

include hf

/-- The image of a run is the run of the image. -/
theorem run_image (t : τ) (acts : List α) : f (run step' t acts) = run step (f t) acts := by
  induction acts generalizing t with
  | nil => rfl
  | cons a acts ih => rw [run_cons, ih, hf, run_cons]

theorem always_image {p : σ → Prop} (t : τ) (acts : List α) :
    Always step' (fun t => p (f t)) t acts ↔ Always step p (f t) acts := by
  refine forall_congr' fun acts' => imp_congr_right fun _ => ?_
  change p (f (run step' t acts')) ↔ _
  rw [run_image hf]

end Image

/-! ## Actions that occur -/

variable (step) in
/-- Some action of the run from `s` meets `p` in the state it is taken in. -/
def Occurs (p : σ → α → Prop) : σ → List α → Prop
  | _, [] => False
  | s, a :: acts => p s a ∨ Occurs p (step s a) acts

/-- What steps keep, and only an action with `p` brings about, holds after a run exactly if it held
before or such an action occurs. -/
theorem run_iff_occurs {inv q : σ → Prop} {p : σ → α → Prop}
    (hinv : ∀ s a, inv s → inv (step s a)) (hq : ∀ s a, inv s → (q (step s a) ↔ q s ∨ p s a))
    {s : σ} (acts : List α) (hs : inv s) :
    q (run step s acts) ↔ q s ∨ Occurs step p s acts := by
  induction acts generalizing s with
  | nil => exact (or_iff_left id).symm
  | cons a acts ih =>
    rw [run_cons, ih (hinv s a hs), hq s a hs, or_assoc]
    exact Iff.rfl

end Run

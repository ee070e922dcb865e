import Beemesh.Lib.Run

/-!
# Runs that a failure ends

Actions are taken one after another until one of them fails. What the actions before it did stays.

## Main definitions

* `runUntil fails step s acts`: the action that failed, if any, and the state that is left

## Main results

* `runUntil_append`: later actions are taken if no earlier one failed
* `exists_of_runUntil_eq_some`: where a run broke off
* `runUntil_of_forall`: a run that no failure ended
* `exists_prefix_runUntil`: however a run ends, it has taken the first of its actions
-/

namespace Run

variable {σ α : Type*} (fails : α → Bool) (step : σ → α → σ)

/-- The run from `s`, up to the first action that fails. -/
def runUntil : σ → List α → Option α × σ
  | s, [] => (none, s)
  | s, a :: acts => if fails a then (some a, s) else runUntil (step s a) acts

variable {fails step}

theorem runUntil_cons_of_fails {a : α} (ha : fails a = true) (s : σ) (acts : List α) :
    runUntil fails step s (a :: acts) = (some a, s) := if_pos ha

theorem runUntil_cons_of_not_fails {a : α} (ha : fails a = false) (s : σ) (acts : List α) :
    runUntil fails step s (a :: acts) = runUntil fails step (step s a) acts :=
  if_neg (Bool.eq_false_iff.mp ha)

/-- Later actions are taken if no earlier one failed. -/
theorem runUntil_append (s : σ) (acts acts' : List α) :
    runUntil fails step s (acts ++ acts') =
      if (runUntil fails step s acts).1.isSome = true then runUntil fails step s acts
      else runUntil fails step (runUntil fails step s acts).2 acts' := by
  induction acts generalizing s with
  | nil => rfl
  | cons a acts ih =>
    rw [List.cons_append]
    cases ha : fails a with
    | true =>
      rw [runUntil_cons_of_fails ha, runUntil_cons_of_fails ha]
      exact (if_pos rfl).symm
    | false => rw [runUntil_cons_of_not_fails ha, runUntil_cons_of_not_fails ha, ih]

theorem runUntil_fst (s : σ) (acts : List α) :
    (runUntil fails step s acts).1 = acts.find? fails := by
  induction acts generalizing s with
  | nil => rfl
  | cons a acts ih =>
    cases ha : fails a with
    | true => rw [runUntil_cons_of_fails ha, List.find?_cons_of_pos ha]
    | false =>
      rw [runUntil_cons_of_not_fails ha, ih, List.find?_cons_of_neg (Bool.eq_false_iff.mp ha)]

/-- **Where a run broke off**: the actions before the one that failed have done what they do. -/
theorem exists_of_runUntil_eq_some {s s' : σ} {a : α} {acts : List α}
    (h : runUntil fails step s acts = (some a, s')) :
    ∃ done rest, acts = done ++ a :: rest ∧ (∀ b ∈ done, fails b = false) ∧ fails a = true ∧
      s' = run step s done := by
  induction acts generalizing s with
  | nil => exact nomatch h
  | cons b acts ih =>
    cases hb : fails b with
    | true =>
      rw [runUntil_cons_of_fails hb] at h
      cases h
      exact ⟨[], acts, rfl, fun c hc => absurd hc List.not_mem_nil, hb, rfl⟩
    | false =>
      rw [runUntil_cons_of_not_fails hb] at h
      obtain ⟨done, rest, rfl, hdone, ha, rfl⟩ := ih h
      refine ⟨b :: done, rest, rfl, fun c hc => ?_, ha, rfl⟩
      rcases List.mem_cons.mp hc with rfl | hc
      · exact hb
      · exact hdone c hc

/-- A run that no failure ended is the run of all actions. -/
theorem runUntil_of_forall {s : σ} {acts : List α} (h : ∀ a ∈ acts, fails a = false) :
    runUntil fails step s acts = (none, run step s acts) := by
  induction acts generalizing s with
  | nil => rfl
  | cons a acts ih =>
    rw [runUntil_cons_of_not_fails (h a List.mem_cons_self),
      ih fun b hb => h b (List.mem_cons_of_mem a hb)]
    rfl

/-- However a run ends, it has taken the first of its actions. -/
theorem exists_prefix_runUntil (s : σ) (acts : List α) :
    ∃ done, done <+: acts ∧ (runUntil fails step s acts).2 = run step s done := by
  cases hrun : runUntil fails step s acts with
  | mk failed s' =>
    cases failed with
    | none =>
      have hforall : ∀ a ∈ acts, fails a = false := by
        have hfind := (runUntil_fst s acts).symm.trans (congrArg Prod.fst hrun)
        exact fun a ha => Bool.eq_false_iff.mpr (List.find?_eq_none.mp hfind a ha)
      rw [runUntil_of_forall hforall] at hrun
      exact ⟨acts, List.prefix_rfl, (congrArg Prod.snd hrun).symm⟩
    | some a =>
      obtain ⟨done, rest, rfl, -, -, hs'⟩ := exists_of_runUntil_eq_some hrun
      exact ⟨done, List.prefix_append done (a :: rest), hs'⟩

end Run

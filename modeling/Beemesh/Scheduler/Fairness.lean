import Beemesh.Lib.Run
import Beemesh.Scheduler.Selection

/-!
# Fair rounds

A round-robin scheduler counts the plans that it makes, and starts each of them one place further
on. As many plans as there are available candidates make a round. In a round of plans on one list,
each of the candidates is selected as often as a plan is long; calls that fail in between do not
count.

## Main definitions

* `ScheduleCall`, `Scheduler.call`: a call, and what it does
* `Scheduler.calls`: calls, one after the other, and what they return
* `selections`, `successes`: the candidates selected in them, and the calls that made a plan

## Main results

* `call_roundRobin`: what a round-robin call does
* `count_selections`: how often a candidate is selected over any calls
* `roundRobin_fair`: rounds are fair
-/

namespace Beemesh

variable {L : Type}

/-! ## Calls -/

/-- The arguments of a call, and what it reads besides. -/
structure ScheduleCall (L : Type) where
  env : SelectionEnv L
  candidates : List (NodeCandidate L)
  requiredCount : ℕ

def Scheduler.call (s : Scheduler) (c : ScheduleCall L) :
    Except SchedulingError SchedulingPlan × Scheduler :=
  s.scheduleWorkload c.env c.candidates c.requiredCount

/-- Calls on one scheduler, one after the other, each with what it returns. Calls of several threads
are in the order in which they advance the counter. -/
def Scheduler.calls (s : Scheduler) :
    List (ScheduleCall L) → List (ScheduleCall L × Except SchedulingError SchedulingPlan)
  | [] => []
  | c :: cs => (c, (s.call c).1) :: (s.call c).2.calls cs

/-- The candidates that a call selects. -/
def selectedIn : Except SchedulingError SchedulingPlan → List ℕ
  | .ok plan => plan.selectedCandidates
  | .error _ => []

/-- The candidates that calls select, as often as they do. -/
def selections (trace : List (ScheduleCall L × Except SchedulingError SchedulingPlan)) : List ℕ :=
  trace.flatMap fun t => selectedIn t.2

/-- How many calls make a plan. -/
def successes (trace : List (ScheduleCall L × Except SchedulingError SchedulingPlan)) : ℕ :=
  trace.countP fun t => t.2.isOk

/-! ## One call -/

/-- The counter, one further on. -/
def Scheduler.advance (s : Scheduler) : Scheduler :=
  { s with roundRobinCounter := s.roundRobinCounter + 1 }

@[simp] theorem Scheduler.config_advance (s : Scheduler) : s.advance.config = s.config := rfl

theorem Scheduler.roundRobinCounter_advance (s : Scheduler) (t : ℕ) :
    s.advance.roundRobinCounter + BitVec.ofNat 64 t =
      s.roundRobinCounter + BitVec.ofNat 64 (t + 1) := by
  rw [advance, BitVec.add_assoc, BitVec.add_comm 1, BitVec.ofNat_add]
  rfl

variable {s : Scheduler} {candidates : List (NodeCandidate L)}

/-- **What a round-robin call does**: it fails and leaves the counter, or makes a plan from it and
advances it. -/
theorem call_roundRobin (hstrategy : s.config.strategy = .roundRobin) (c : ScheduleCall L) :
    (∃ e, s.call c = (.error e, s)) ∨
      ∃ plan, s.call c = (.ok plan, s.advance) ∧
        plan.selectedCandidates = selectRoundRobin (availableCandidates c.candidates)
          s.roundRobinCounter (s.config.actualRequiredCount c.requiredCount) := by
  by_cases h : Selectable c.candidates (s.config.actualRequiredCount c.requiredCount)
  · refine .inr ⟨⟨_, c.candidates.length, s.config.strategy⟩, ?_, rfl⟩
    rw [Scheduler.call, scheduleWorkload_of h, Scheduler.selectCandidates, hstrategy]
    rfl
  · exact .inl (scheduleWorkload_of_not c.env h)

/-- A place is in a window as often as its candidate is in the selection. -/
theorem count_selectRoundRobin {start : U64} {count place i : ℕ}
    (hstart : start.toNat + count ≤ 2 ^ 64)
    (hplace : (availableIndices candidates)[place]? = some i) :
    (selectRoundRobin (availableCandidates candidates) start count).count i =
      (Rotation.window (availableCandidates candidates).length start.toNat count).count place := by
  rw [selectRoundRobin_eq hstart, List.count_filterMap, List.count_eq_countP]
  refine List.countP_congr fun place' _ => ?_
  rw [beq_iff_eq, beq_iff_eq]
  constructor
  · intro h
    exact availableIndices_inj h hplace
  · rintro rfl
    exact hplace

theorem notMem_selectRoundRobin {start : U64} {count i : ℕ} (hi : ¬ IsAvailable candidates i) :
    i ∉ selectRoundRobin (availableCandidates candidates) start count := by
  intro hmem
  obtain ⟨n, -, hn⟩ := List.mem_filterMap.mp hmem
  rw [wrapIndex_eq] at hn
  exact hi (mem_availableIndices.mp (List.mem_of_getElem? hn))

/-! ## Many calls -/

section Trace

variable {c : ScheduleCall L} {e : SchedulingError} {plan : SchedulingPlan}

theorem calls_of_error (h : s.call c = (.error e, s)) (cs : List (ScheduleCall L)) :
    s.calls (c :: cs) = (c, .error e) :: s.calls cs := by
  rw [Scheduler.calls, h]

theorem calls_of_ok (h : s.call c = (.ok plan, s.advance)) (cs : List (ScheduleCall L)) :
    s.calls (c :: cs) = (c, .ok plan) :: s.advance.calls cs := by
  rw [Scheduler.calls, h]

variable (trace : List (ScheduleCall L × Except SchedulingError SchedulingPlan))

theorem successes_cons_ok : successes ((c, .ok plan) :: trace) = successes trace + 1 :=
  List.countP_cons_of_pos rfl

theorem count_selections_cons_ok (i : ℕ) : (selections ((c, .ok plan) :: trace)).count i =
    plan.selectedCandidates.count i + (selections trace).count i :=
  List.count_append

end Trace

/-- The calls that make a plan are calls for `count` of these candidates. -/
def PlansOn (config : SchedulerConfig) (candidates : List (NodeCandidate L)) (count : ℕ)
    (trace : List (ScheduleCall L × Except SchedulingError SchedulingPlan)) : Prop :=
  ∀ t ∈ trace, t.2.isOk = true →
    t.1.candidates = candidates ∧ config.actualRequiredCount t.1.requiredCount = count

/-- **How often a candidate is selected** over any calls: in each plan as often as it is in the
selection from the counter, which is one further on from plan to plan. -/
theorem count_selections {count : ℕ} (cs : List (ScheduleCall L))
    (hstrategy : s.config.strategy = .roundRobin)
    (hplans : PlansOn s.config candidates count (s.calls cs)) (i : ℕ) :
    (selections (s.calls cs)).count i = ∑ t ∈ Finset.range (successes (s.calls cs)),
      (selectRoundRobin (availableCandidates candidates)
        (s.roundRobinCounter + BitVec.ofNat 64 t) count).count i := by
  induction cs generalizing s with
  | nil => rfl
  | cons c cs ih =>
    rcases call_roundRobin hstrategy c with ⟨e, hcall⟩ | ⟨plan, hcall, hplan⟩
    · -- A call that fails changes neither side.
      rw [calls_of_error hcall] at hplans ⊢
      exact ih hstrategy fun t ht => hplans t (List.mem_cons_of_mem _ ht)
    · -- The plan is the first term of the sum; the other calls start one place further on.
      rw [calls_of_ok hcall] at hplans ⊢
      obtain ⟨rfl, rfl⟩ := hplans (c, .ok plan) List.mem_cons_self rfl
      have hrest := ih (s := s.advance) hstrategy fun t ht => hplans t (List.mem_cons_of_mem _ ht)
      rw [successes_cons_ok, count_selections_cons_ok, hrest, hplan, Finset.sum_range_succ',
        Nat.add_comm]
      simp only [Scheduler.roundRobinCounter_advance, BitVec.add_zero]

/-- The counter is as many places further on as there were plans: calls that fail leave it. -/
theorem roundRobinCounter_run (cs : List (ScheduleCall L))
    (hstrategy : s.config.strategy = .roundRobin) :
    (Run.run (fun s c => (Scheduler.call s c).2) s cs).roundRobinCounter =
      s.roundRobinCounter + BitVec.ofNat 64 (successes (s.calls cs)) := by
  induction cs generalizing s with
  | nil => exact (BitVec.add_zero _).symm
  | cons c cs ih =>
    rcases call_roundRobin hstrategy c with ⟨e, hcall⟩ | ⟨plan, hcall, -⟩
    · rw [Run.run_cons, hcall, calls_of_error hcall]
      exact ih hstrategy
    · rw [Run.run_cons, hcall, calls_of_ok hcall, successes_cons_ok, ih (s := s.advance) hstrategy,
        Scheduler.roundRobinCounter_advance]

/-! ## Rounds -/

/-- **Rounds are fair**: over as many plans as there are available candidates, each for `count` of
the same candidates, an available candidate is selected `count` times and no other one is; calls
that fail in between do not advance the counter. -/
theorem roundRobin_fair {count : ℕ} {cs : List (ScheduleCall L)}
    (hstrategy : s.config.strategy = .roundRobin)
    (hplans : PlansOn s.config candidates count (s.calls cs))
    (hround : successes (s.calls cs) = (availableCandidates candidates).length)
    (hpos : 1 ≤ (availableCandidates candidates).length)
    (hcounter : s.roundRobinCounter.toNat + ((availableCandidates candidates).length - 1) + count ≤
      2 ^ 64) :
    (∀ i, IsAvailable candidates i → (selections (s.calls cs)).count i = count) ∧
    (∀ i, ¬ IsAvailable candidates i → i ∉ selections (s.calls cs)) ∧
    (Run.run (fun s c => (Scheduler.call s c).2) s cs).roundRobinCounter =
      s.roundRobinCounter + BitVec.ofNat 64 (availableCandidates candidates).length := by
  refine ⟨?_, ?_, ?_⟩
  · intro i hi
    obtain ⟨place, hlt, hplace⟩ := List.mem_iff_getElem.mp (mem_availableIndices.mpr hi)
    have hplace := List.getElem?_eq_some_iff.mpr ⟨hlt, hplace⟩
    rw [length_availableIndices] at hlt
    rw [count_selections cs hstrategy hplans, hround]
    calc ∑ t ∈ Finset.range (availableCandidates candidates).length,
          (selectRoundRobin (availableCandidates candidates)
            (s.roundRobinCounter + BitVec.ofNat 64 t) count).count i
      _ = ∑ t ∈ Finset.range (availableCandidates candidates).length,
          (Rotation.window (availableCandidates candidates).length
            (s.roundRobinCounter.toNat + t) count).count place := by
        refine Finset.sum_congr rfl fun t ht => ?_
        have ht := Finset.mem_range.mp ht
        rcases Nat.eq_zero_or_pos count with rfl | hcount
        · -- Plans of no candidates.
          rfl
        · have hword : (s.roundRobinCounter + BitVec.ofNat 64 t).toNat =
              s.roundRobinCounter.toNat + t := by
            rw [BitVec.toNat_add, BitVec.toNat_ofNat]
            omega
          rw [count_selectRoundRobin (by omega) hplace, hword]
      _ = count := Rotation.sum_count_window hlt
  · -- A candidate that is not available is in none of the plans.
    intro i hi hmem
    have hcount := count_selections cs hstrategy hplans i
    rw [Finset.sum_eq_zero fun t _ => List.count_eq_zero.mpr (notMem_selectRoundRobin hi)] at hcount
    exact absurd hmem (List.count_eq_zero.mp hcount)
  · rw [roundRobinCounter_run cs hstrategy, hround]

/-- Two of three candidates that are available. -/
def twoOfThree : List (NodeCandidate Unit) :=
  [⟨"a", (), true⟩, ⟨"b", (), false⟩, ⟨"c", (), true⟩]

def callForTwoOfThree (requiredCount : ℕ) : ScheduleCall Unit :=
  ⟨⟨0, id, fun _ _ => none⟩, twoOfThree, requiredCount⟩

/-- A round of two plans, with a call for too many candidates between them. -/
theorem roundRobin_fair_twoOfThree :
    (∀ i, IsAvailable twoOfThree i →
      (selections ((Scheduler.new ⟨none, .roundRobin⟩).calls
        [callForTwoOfThree 1, callForTwoOfThree 5, callForTwoOfThree 1])).count i = 1) ∧
    selections ((Scheduler.new ⟨none, .roundRobin⟩).calls
      [callForTwoOfThree 1, callForTwoOfThree 5, callForTwoOfThree 1]) = [0, 2] := by
  have hplans : PlansOn ⟨none, .roundRobin⟩ twoOfThree 1
      ((Scheduler.new ⟨none, .roundRobin⟩).calls
        [callForTwoOfThree 1, callForTwoOfThree 5, callForTwoOfThree 1]) := by
    intro t ht hok
    rcases List.mem_cons.mp ht with rfl | ht
    · exact ⟨rfl, rfl⟩
    rcases List.mem_cons.mp ht with rfl | ht
    · exact nomatch hok
    · obtain rfl := List.mem_singleton.mp ht
      exact ⟨rfl, rfl⟩
  have hfair := roundRobin_fair (s := Scheduler.new ⟨none, .roundRobin⟩) rfl hplans rfl (by decide)
    (by decide)
  exact ⟨hfair.1, rfl⟩

end Beemesh

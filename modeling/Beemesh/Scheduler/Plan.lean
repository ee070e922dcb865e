import Beemesh.Basic
import Mathlib.Data.Nat.Digits.Defs

/-!
# The workload scheduler

`Scheduler::schedule_workload`: the available candidates are numbered, and a strategy selects as
many of them as are asked for. The load of a candidate is of any type with a partial comparison, as
floating point numbers have.

## Main definitions

* `SchedulerConfig`, `NodeCandidate`, `SchedulingPlan`, `SchedulingError`
* `selectRoundRobin`, `selectRandom`, `selectLoadBased`: the strategies
* `Scheduler.scheduleWorkload`: a plan, or why there is none

## Main results

* `scheduleWorkload_roundRobin_new`: the first round-robin plan selects the candidates in front
-/

namespace Beemesh

/-! ## Data -/

inductive SchedulingStrategy
  | roundRobin
  | random
  | loadBased
  | firstAvailable
  deriving DecidableEq

/-- `SchedulerConfig`. Load balancing is not looked at. -/
structure SchedulerConfig where
  maxCandidates : Option ℕ
  strategy : SchedulingStrategy

/-- `NodeCandidate`. Capabilities are not looked at. -/
structure NodeCandidate (L : Type) where
  nodeId : String
  loadFactor : L
  available : Bool

structure SchedulingPlan where
  selectedCandidates : List ℕ
  totalCandidates : ℕ
  strategyUsed : SchedulingStrategy

inductive SchedulingError
  | noCandidatesAvailable
  | noAvailableCandidates
  | insufficientCandidates (available required : ℕ)
  | selectionFailed

def SchedulingError.display : SchedulingError → String
  | noCandidatesAvailable => "No candidates available for scheduling"
  | noAvailableCandidates => "No candidates are currently available"
  | insufficientCandidates available required =>
    s!"Insufficient candidates: have {available}, need {required}"
  | selectionFailed => "Failed to select candidates"

structure Scheduler where
  config : SchedulerConfig
  roundRobinCounter : U64

def Scheduler.new (config : SchedulerConfig) : Scheduler := ⟨config, 0⟩

/-! ## Strategies -/

section Strategies

variable {L : Type}

/-- The available candidates, with their indices. -/
def availableCandidates (candidates : List (NodeCandidate L)) : List (NodeCandidate L × ℕ) :=
  candidates.zipIdx.filter fun c => c.1.available

/-- The index in the list of candidates of the `n`-th available one, counted around. -/
def wrapIndex (available : List (NodeCandidate L × ℕ)) (n : ℕ) : Option ℕ :=
  available[n % 2 ^ 64 % available.length]?.map Prod.snd

/-- `select_round_robin`, from the counter that it has read. The sum wraps in a release build. -/
def selectRoundRobin (available : List (NodeCandidate L × ℕ)) (start : U64) (count : ℕ) : List ℕ :=
  (List.range count).filterMap fun i => wrapIndex available (start.toNat + i)

/-- The loop of `select_random` for so many more attempts. -/
def randomLoop (available : List (NodeCandidate L × ℕ)) (seed : U64) (count : ℕ) :
    ℕ → ℕ → List ℕ → List ℕ
  | 0, _, selected => selected
  | left + 1, attempts, selected =>
    if selected.length < count then
      randomLoop available seed count left (attempts + 1)
        ((wrapIndex available (seed.toNat + attempts)).elim selected selected.insert)
    else selected

def maxAttempts : ℕ := 1000

/-- `select_random`. The order in which the hash set gives its elements back is `drain`. -/
def selectRandom (available : List (NodeCandidate L × ℕ)) (seed : U64) (drain : List ℕ → List ℕ)
    (count : ℕ) : Except SchedulingError (List ℕ) :=
  let selected := randomLoop available seed count maxAttempts 0 []
  if selected.length < count then .error .selectionFailed else .ok (drain selected)

/-- `select_load_based`: a stable sort, loads that do not compare counting as equal. -/
def selectLoadBased (partialCmp : L → L → Option Ordering)
    (available : List (NodeCandidate L × ℕ)) (count : ℕ) : List ℕ :=
  ((available.mergeSort fun a b =>
    (partialCmp a.1.loadFactor b.1.loadFactor).getD .eq ≠ .gt).take count).map Prod.snd

/-- What a call reads besides its arguments: the clock, the order of a hash set and the comparison
of loads. -/
structure SelectionEnv (L : Type) where
  seed : U64
  drain : List ℕ → List ℕ
  partialCmp : L → L → Option Ordering

/-- `select_candidates`, and the counter that it leaves. -/
def Scheduler.selectCandidates (s : Scheduler) (env : SelectionEnv L)
    (available : List (NodeCandidate L × ℕ)) (count : ℕ) :
    Except SchedulingError (List ℕ) × Scheduler :=
  match s.config.strategy with
  | .firstAvailable => (.ok ((available.take count).map Prod.snd), s)
  | .roundRobin => (.ok (selectRoundRobin available s.roundRobinCounter count),
      { s with roundRobinCounter := s.roundRobinCounter + 1 })
  | .random => (selectRandom available env.seed env.drain count, s)
  | .loadBased => (.ok (selectLoadBased env.partialCmp available count), s)

/-- `schedule_workload`. -/
def Scheduler.scheduleWorkload (s : Scheduler) (env : SelectionEnv L)
    (candidates : List (NodeCandidate L)) (requiredCount : ℕ) :
    Except SchedulingError SchedulingPlan × Scheduler :=
  if candidates = [] then (.error .noCandidatesAvailable, s)
  else
    let available := availableCandidates candidates
    if available = [] then (.error .noAvailableCandidates, s)
    else
      let required := match s.config.maxCandidates with
        | some max => min requiredCount max
        | none => requiredCount
      if available.length < required then
        (.error (.insufficientCandidates available.length required), s)
      else
        let (selected, s') := s.selectCandidates env available required
        (selected.map fun indices => ⟨indices, candidates.length, s.config.strategy⟩, s')

end Strategies

/-! ## The first round -/

section RoundRobin

variable {L : Type} {candidates : List (NodeCandidate L)}

theorem availableCandidates_of_all (h : ∀ c ∈ candidates, c.available = true) :
    availableCandidates candidates = candidates.zipIdx := by
  refine List.filter_eq_self.mpr fun c hc => h c.1 ?_
  exact (List.mem_zipIdx' hc).2 ▸ List.getElem_mem _

/-- From zero on, the candidates are taken in their order. -/
theorem selectRoundRobin_zero {count : ℕ} (hcount : count ≤ candidates.length)
    (hlength : candidates.length ≤ 2 ^ 64) :
    selectRoundRobin candidates.zipIdx 0 count = List.range count := by
  have hindex (i : ℕ) (hi : i < count) :
      wrapIndex candidates.zipIdx ((0 : U64).toNat + i) = some i := by
    have hzero : (0 : U64).toNat + i = i := Nat.zero_add i
    have hmod : i % 2 ^ 64 % candidates.length = i := by
      rw [Nat.mod_eq_of_lt (by omega), Nat.mod_eq_of_lt (by omega)]
    have hget : candidates[i]? = some candidates[i] := List.getElem?_eq_getElem (by omega)
    rw [wrapIndex, List.length_zipIdx, hzero, hmod, List.getElem?_zipIdx, hget]
    simp
  rw [selectRoundRobin]
  refine (List.filterMap_congr fun i hi => hindex i (List.mem_range.mp hi)).trans ?_
  exact List.filterMap_some

/-- **The first round-robin plan** of a scheduler selects the candidates in front, when all of them
are available. -/
theorem scheduleWorkload_roundRobin_new (env : SelectionEnv L) {count : ℕ}
    (havailable : ∀ c ∈ candidates, c.available = true) (hne : candidates ≠ [])
    (hcount : count ≤ candidates.length) (hlength : candidates.length ≤ 2 ^ 64) :
    ((Scheduler.new ⟨none, .roundRobin⟩).scheduleWorkload env candidates count).1 =
      .ok ⟨List.range count, candidates.length, .roundRobin⟩ := by
  have hzip : candidates.zipIdx ≠ [] := by simpa [List.zipIdx_eq_nil_iff] using hne
  have hlt : ¬ candidates.zipIdx.length < count := by
    rw [List.length_zipIdx]
    omega
  simp only [Scheduler.scheduleWorkload, Scheduler.new, Scheduler.selectCandidates, if_neg hne,
    availableCandidates_of_all havailable, if_neg hzip, if_neg hlt,
    selectRoundRobin_zero hcount hlength, Except.map]

end RoundRobin

end Beemesh

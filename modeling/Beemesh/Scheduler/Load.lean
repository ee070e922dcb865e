import Beemesh.Lib.StableSort
import Beemesh.Scheduler.Selection

/-!
# The least loaded candidates

The load-based strategy sorts the available candidates by their loads and takes the front. Where the
loads are totally ordered, as floating point numbers are that are not NaN, it takes the least loaded
ones in their order, and those of equal loads by their indices.

## Main definitions

* `LoadsOrdered`: the comparison orders the loads of the candidates totally
* `Before`: a candidate has less load than another, or the same load and the smaller index

## Main results

* `pairwise_selectLoadBased`, `selectLoadBased_least`: the selection is in this order, and before
  what is not selected
* `loadBased_least_loaded`: a load-based plan takes the least loaded candidates
-/

namespace Beemesh

variable {L : Type} (partialCmp : L → L → Option Ordering) (candidates : List (NodeCandidate L))

/-! ## Orders of loads -/

/-- Any two loads of the candidates compare, the other way around the other way, and to be not
greater is transitive among them. -/
structure LoadsOrdered : Prop where
  comparable : ∀ a ∈ candidates, ∀ b ∈ candidates, ∃ o,
    partialCmp a.loadFactor b.loadFactor = some o ∧
      partialCmp b.loadFactor a.loadFactor = some o.swap
  trans : ∀ a ∈ candidates, ∀ b ∈ candidates, ∀ c ∈ candidates,
    partialCmp a.loadFactor b.loadFactor ≠ some .gt →
      partialCmp b.loadFactor c.loadFactor ≠ some .gt →
        partialCmp a.loadFactor c.loadFactor ≠ some .gt

/-- The candidate at `i` has less load than the one at `j`, or the same load and stands first. -/
def Before (i j : ℕ) : Prop :=
  ∃ a b, candidates[i]? = some a ∧ candidates[j]? = some b ∧
    (partialCmp a.loadFactor b.loadFactor = some .lt ∨
      partialCmp a.loadFactor b.loadFactor = some .eq ∧ i < j)

/-- The comparison of the sort. -/
def loadLe (a b : NodeCandidate L × ℕ) : Bool :=
  (partialCmp a.1.loadFactor b.1.loadFactor).getD .eq ≠ .gt

variable {partialCmp candidates} {a b : NodeCandidate L × ℕ}

theorem mem_candidates_of_available (ha : a ∈ availableCandidates candidates) :
    a.1 ∈ candidates :=
  List.mem_of_getElem? (mem_availableCandidates.mp ha).1

theorem LoadsOrdered.loadLe_iff (h : LoadsOrdered partialCmp candidates)
    (ha : a ∈ availableCandidates candidates) (hb : b ∈ availableCandidates candidates) :
    loadLe partialCmp a b = true ↔ partialCmp a.1.loadFactor b.1.loadFactor ≠ some .gt := by
  obtain ⟨o, ho, -⟩ := h.comparable a.1 (mem_candidates_of_available ha) b.1
    (mem_candidates_of_available hb)
  simp [loadLe, ho]

/-- The sort compares by an order of the available candidates. -/
theorem LoadsOrdered.orderedBy (h : LoadsOrdered partialCmp candidates) :
    List.OrderedBy (loadLe partialCmp) (availableCandidates candidates) where
  trans a ha b hb c hc := by
    rw [h.loadLe_iff ha hb, h.loadLe_iff hb hc, h.loadLe_iff ha hc]
    exact h.trans a.1 (mem_candidates_of_available ha) b.1 (mem_candidates_of_available hb) c.1
      (mem_candidates_of_available hc)
  total a ha b hb := by
    obtain ⟨o, ho, hswap⟩ := h.comparable a.1 (mem_candidates_of_available ha) b.1
      (mem_candidates_of_available hb)
    cases o <;> simp [loadLe, ho, hswap]

/-- Candidates that a stable sort has one behind the other. -/
theorem LoadsOrdered.before (h : LoadsOrdered partialCmp candidates)
    (ha : a ∈ availableCandidates candidates) (hb : b ∈ availableCandidates candidates)
    (hle : loadLe partialCmp a b = true) (htie : loadLe partialCmp b a = true → a.2 < b.2) :
    Before partialCmp candidates a.2 b.2 := by
  refine ⟨a.1, b.1, (mem_availableCandidates.mp ha).1, (mem_availableCandidates.mp hb).1, ?_⟩
  obtain ⟨o, ho, hswap⟩ := h.comparable a.1 (mem_candidates_of_available ha) b.1
    (mem_candidates_of_available hb)
  -- Of equal loads, the sort leaves them as they stand in the list.
  cases o with
  | lt => exact .inl ho
  | eq => exact .inr ⟨ho, htie (by simp [loadLe, hswap])⟩
  | gt => exact absurd ho ((h.loadLe_iff ha hb).mp hle)

/-! ## The selection -/

/-- The available candidates, sorted as the strategy sorts them. -/
theorem LoadsOrdered.pairwise_sorted (h : LoadsOrdered partialCmp candidates) :
    ((availableCandidates candidates).mergeSort (loadLe partialCmp)).Pairwise fun a b =>
      Before partialCmp candidates a.2 b.2 := by
  have hstable := List.pairwise_mergeSort_stable h.orderedBy pairwise_availableCandidates
    fun a => Nat.lt_irrefl a.2
  refine hstable.imp_of_mem ?_
  intro a b ha hb hab
  exact h.before (List.mem_mergeSort.mp ha) (List.mem_mergeSort.mp hb) hab.1 hab.2

/-- The selection is in order. -/
theorem pairwise_selectLoadBased (h : LoadsOrdered partialCmp candidates) (count : ℕ) :
    (selectLoadBased partialCmp (availableCandidates candidates) count).Pairwise
      (Before partialCmp candidates) := by
  refine List.pairwise_map.mpr ?_
  exact h.pairwise_sorted.sublist (List.take_sublist _ _)

/-- What is selected is before what is not. -/
theorem selectLoadBased_least (h : LoadsOrdered partialCmp candidates) {count i j : ℕ}
    (hi : i ∈ selectLoadBased partialCmp (availableCandidates candidates) count)
    (hj : IsAvailable candidates j)
    (hnot : j ∉ selectLoadBased partialCmp (availableCandidates candidates) count) :
    Before partialCmp candidates i j := by
  obtain ⟨a, ha, rfl⟩ := List.mem_map.mp hi
  obtain ⟨c, hc⟩ := hj
  have hb : (c, j) ∈ (availableCandidates candidates).mergeSort (loadLe partialCmp) :=
    List.mem_mergeSort.mpr (mem_availableCandidates.mpr hc)
  refine h.pairwise_sorted.rel_of_mem_take (b := (c, j)) ha hb fun hmem => hnot ?_
  exact List.mem_map_of_mem (f := Prod.snd) hmem

/-- **Load-based plans take the least loaded**: so many available candidates, in the order of their
loads, those of equal loads by their indices, and all of them before those that are not taken. -/
theorem loadBased_least_loaded {s : Scheduler} {env : SelectionEnv L} {requiredCount : ℕ}
    {plan : SchedulingPlan} (hstrategy : s.config.strategy = .loadBased)
    (hloads : LoadsOrdered env.partialCmp candidates)
    (h : (s.scheduleWorkload env candidates requiredCount).1 = .ok plan) :
    Picks candidates (s.config.actualRequiredCount requiredCount) plan.selectedCandidates ∧
      plan.selectedCandidates.Pairwise (Before env.partialCmp candidates) ∧
      ∀ i ∈ plan.selectedCandidates, ∀ j, IsAvailable candidates j →
        j ∉ plan.selectedCandidates → Before env.partialCmp candidates i j := by
  obtain ⟨hselectable, indices, hok, rfl⟩ := scheduleWorkload_eq_ok_iff.mp h
  rw [Scheduler.selectCandidates] at hok
  simp only [hstrategy] at hok
  obtain rfl := Except.ok.inj hok
  refine ⟨selectLoadBased_picks env.partialCmp hselectable.2,
    pairwise_selectLoadBased hloads _, ?_⟩
  intro i hi j hj hnot
  exact selectLoadBased_least hloads hi hj hnot

/-- Loads that are numbers are totally ordered. -/
theorem loadsOrdered_nat (candidates : List (NodeCandidate ℕ)) :
    LoadsOrdered (fun a b => some (compare a b)) candidates where
  comparable a _ b _ := ⟨compare a.loadFactor b.loadFactor, rfl, by rw [Nat.compare_swap]⟩
  trans a _ b _ c _ := by
    simp only [ne_eq, Option.some.injEq, Nat.compare_eq_gt, Nat.not_lt]
    exact Nat.le_trans

/-- Candidates of the loads 3, 1, 0 and 1, the third of them not available. -/
def loadedCandidates : List (NodeCandidate ℕ) :=
  [⟨"a", 3, true⟩, ⟨"b", 1, true⟩, ⟨"c", 0, false⟩, ⟨"d", 1, true⟩]

/-- A plan for two of them takes the second and the fourth. -/
theorem loadBased_least_loaded_two :
    ∃ plan : SchedulingPlan,
      Picks loadedCandidates 2 plan.selectedCandidates ∧ plan.selectedCandidates = [1, 3] ∧
      plan.selectedCandidates.Pairwise (Before (fun a b => some (compare a b)) loadedCandidates) ∧
      ∀ i ∈ plan.selectedCandidates, ∀ j, IsAvailable loadedCandidates j →
        j ∉ plan.selectedCandidates →
          Before (fun a b => some (compare a b)) loadedCandidates i j := by
  have hplan : ((Scheduler.new ⟨none, .loadBased⟩).scheduleWorkload
      ⟨0, id, fun a b => some (compare a b)⟩ loadedCandidates 2).1 =
        .ok ⟨[1, 3], 4, .loadBased⟩ := by
    have hgt : compare 3 1 = Ordering.gt := rfl
    simp [Scheduler.scheduleWorkload, Scheduler.new, Scheduler.selectCandidates, loadedCandidates,
      availableCandidates, selectLoadBased, List.mergeSort, List.MergeSort.Internal.splitInTwo,
      Except.map, hgt]
  obtain ⟨hpicks, hsorted, hleast⟩ := loadBased_least_loaded rfl (loadsOrdered_nat _) hplan
  exact ⟨_, hpicks, rfl, hsorted, hleast⟩

end Beemesh

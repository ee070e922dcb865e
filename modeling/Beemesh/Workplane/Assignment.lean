import Beemesh.Lib.Apportionment
import Beemesh.Workplane.Ranking
import Mathlib.Algebra.BigOperators.Ring.Finset
import Mathlib.Data.Rat.Floor
import Mathlib.Tactic.Ring

/-!
# The assignment, in closed form

With exact scores, of which one is positive, the shares of the proposals with positive scores make
the total. The whole replicas of all shares are handed out first; what is left is less than there are
shares that lose by rounding, so that one pass over what they lose hands it out. Without a positive
score each proposal brings one replica, as long as there are any.

## Main definitions

* `share`, `loss`: the share of a proposal, and what it loses by rounding
* `wholeReplicas`, `oneEach`: what the two passes hand out
* `leftCount`: how many replicas are left after the first

## Main results

* `sum_loss`: what is left is what the shares of positive scores lose
* `assignReplicas_of_pos`: the assignment, if a score is positive
* `assignReplicas_of_not_pos`: the assignment, if none is
* `assignReplicas_total`: how many replicas are handed out
-/

namespace Beemesh.Workplane

/-! ## The two passes -/

section Passes

variable {F : Type} (A : ScoreArithmetic F)

/-- What the share of a proposal loses by rounding, with its machine. -/
def remainderOf (total : ℤ) (sum : F) (p : Proposal F) : Remainder F :=
  ⟨p.nodeID, A.sub (proportion A total sum p.score)
    (A.ofInt (A.toInt (proportion A total sum p.score)))⟩

/-- The whole replicas of all shares. -/
def wholeReplicas (total : ℤ) (sum : F) (props : List (Proposal F)) (assign : Table String ℕ) :
    Table String ℕ :=
  props.foldl (fun assign p =>
    let base := A.toInt (proportion A total sum p.score)
    if 0 < base then assign.bump p.nodeID base.toNat else assign) assign

/-- One replica more for each. -/
def oneEach (remainders : List (Remainder F)) (assign : Table String ℕ) : Table String ℕ :=
  remainders.foldl (fun assign r => assign.bump r.nodeID 1) assign

variable {A}

theorem foldl_firstPass (total : ℤ) (sum : F) (props : List (Proposal F)) (s : FirstPass F) :
    props.foldl (FirstPass.proposal A total sum) s =
      { assign := wholeReplicas A total sum props s.assign
        remaining := s.remaining - floorTotal A total sum props
        remainders := s.remainders ++ props.map (remainderOf A total sum) } := by
  -- By the proposals, from any state: each moves its whole replicas from what remains.
  induction props generalizing s with
  | nil => simp [wholeReplicas, floorTotal]
  | cons p props ih =>
    rw [List.foldl_cons, ih, floorTotal_cons]
    simp only [FirstPass.proposal, wholeReplicas, List.foldl_cons, List.map_cons, remainderOf,
      List.append_assoc, List.singleton_append]
    split_ifs with hbase
    · simp only [FirstPass.mk.injEq, true_and, and_true]
      push_cast
      omega
    · simp only [FirstPass.mk.injEq, true_and, and_true]
      push_cast
      omega

/-- A pass that is long enough hands out what remains. -/
theorem leftoverPass_of_le (remainders : List (Remainder F)) {n : ℕ} (h : n ≤ remainders.length)
    (assign : Table String ℕ) :
    leftoverPass remainders (assign, (n : ℤ)) = (oneEach (remainders.take n) assign, 0) := by
  induction remainders generalizing n assign with
  | nil =>
    obtain rfl : n = 0 := Nat.le_zero.mp h
    rfl
  | cons r remainders ih =>
    cases n with
    | zero => rfl
    | succ n =>
      rw [leftoverPass, if_neg (by omega), Nat.cast_succ, Int.add_sub_cancel,
        ih (Nat.le_of_succ_le_succ h)]
      rfl

/-- So that it is the only one. -/
theorem leftovers_of_le {remainders : List (Remainder F)} {n : ℕ} (h : n ≤ remainders.length)
    (assign : Table String ℕ) :
    leftovers remainders n (assign, (n : ℤ)) = some (oneEach (remainders.take n) assign) := by
  cases n with
  | zero => rfl
  | succ n =>
    rw [leftovers, if_pos (by omega), leftoverPass_of_le remainders h]
    unfold leftovers
    rw [if_neg (lt_irrefl 0)]

end Passes

/-! ## Exact shares -/

section Rounding

variable {x : ℚ}

theorem toInt_of_nonneg (h : 0 ≤ x) : exactScores.toInt x = ⌊x⌋ := by
  rw [Rat.floor_def']
  exact Int.tdiv_eq_ediv_of_nonneg (Rat.num_nonneg.mpr h)

/-- A negative number is rounded up. -/
theorem toInt_of_nonpos (h : x ≤ 0) : exactScores.toInt x = ⌈x⌉ := by
  have hneg : exactScores.toInt (-x) = -exactScores.toInt x := by
    simp [exactScores]
  rw [toInt_of_nonneg (neg_nonneg.mpr h), Int.floor_neg, neg_inj] at hneg
  exact hneg.symm

theorem sub_toInt_of_nonneg (h : 0 ≤ x) : x - exactScores.toInt x = Int.fract x := by
  rw [toInt_of_nonneg h, Int.fract]

theorem sub_toInt_of_nonpos (h : x ≤ 0) : x - exactScores.toInt x ≤ 0 := by
  rw [toInt_of_nonpos h, sub_nonpos]
  exact Int.le_ceil x

theorem sub_toInt_lt_one (x : ℚ) : x - exactScores.toInt x < 1 := by
  rcases le_total 0 x with h | h
  · rw [sub_toInt_of_nonneg h]
    exact Int.fract_lt_one x
  · exact (sub_toInt_of_nonpos h).trans_lt one_pos

/-- The positive part is what is handed out and what is lost. -/
theorem toInt_add_max_loss (x : ℚ) :
    ((exactScores.toInt x).toNat : ℚ) + max (x - exactScores.toInt x) 0 = max x 0 := by
  rcases le_total 0 x with h | h
  · rw [sub_toInt_of_nonneg h, max_eq_left (Int.fract_nonneg x), max_eq_left h, toInt_of_nonneg h]
    have hcast : ((⌊x⌋.toNat : ℤ) : ℚ) = ⌊x⌋ := by
      rw [Int.toNat_of_nonneg (Int.floor_nonneg.mpr h)]
    rw [Int.cast_natCast] at hcast
    rw [hcast, Int.floor_add_fract]
  · -- A negative number hands out nothing, and its loss does not count.
    have hceil : exactScores.toInt x ≤ 0 := by
      rw [toInt_of_nonpos h]
      exact Int.ceil_le.mpr (by exact_mod_cast h)
    rw [max_eq_right (sub_toInt_of_nonpos h), max_eq_right h, Int.toNat_of_nonpos hceil,
      Nat.cast_zero, add_zero]

end Rounding

/-- The share of a proposal. -/
def share (total : ℤ) (sum : ℚ) (p : Proposal ℚ) : ℚ := p.score / sum * total

/-- What it loses by rounding. -/
def loss (total : ℤ) (sum : ℚ) (p : Proposal ℚ) : ℚ :=
  share total sum p - exactScores.toInt (share total sum p)

/-- What is left of the total after the whole replicas. -/
def leftCount (total : ℤ) (props : List (Proposal ℚ)) : ℕ :=
  total.toNat - floorTotal exactScores total (scoreSum exactScores props) props

section Shares

variable {total : ℤ} {props : List (Proposal ℚ)}

/-- The sum of the scores is that of their positive parts. -/
theorem scoreSum_exact (props : List (Proposal ℚ)) :
    scoreSum exactScores props = (props.map fun p => max p.score 0).sum := by
  have hfold (s : ℚ) : props.foldl (fun sum p => if exactScores.lt exactScores.zero p.score then
      exactScores.add sum p.score else sum) s = s + (props.map fun p => max p.score 0).sum := by
    induction props generalizing s with
    | nil => simp
    | cons p props ih =>
      rw [List.foldl_cons, ih, List.map_cons, List.sum_cons, ← add_assoc]
      congr 1
      split_ifs with hpos
      · exact congrArg (s + ·) (max_eq_left (of_decide_eq_true hpos).le).symm
      · have hnonpos : p.score ≤ 0 := not_lt.mp fun h => hpos (decide_eq_true h)
        rw [max_eq_right hnonpos, add_zero]
  exact (hfold 0).trans (zero_add _)

theorem scoreSum_pos_iff :
    0 < scoreSum exactScores props ↔ ∃ p ∈ props, 0 < p.score := by
  constructor
  · intro h
    by_contra hnone
    push Not at hnone
    rw [scoreSum_exact, List.map_congr_left fun p hp => max_eq_right (hnone p hp)] at h
    simp at h
  · rintro ⟨p, hp, hpos⟩
    exact of_decide_eq_true (lt_foldl_scores (A := exactScores) (.inl rfl)
      (.inr ⟨p, hp, decide_eq_true hpos⟩))

/-- **The shares of positive scores** make the total. -/
theorem sum_max_share (htotal : 0 < total) (hpos : ∃ p ∈ props, 0 < p.score) :
    (props.map fun p => max (share total (scoreSum exactScores props) p) 0).sum = total := by
  have hsum := scoreSum_pos_iff.mpr hpos
  have hfactor : 0 < (total : ℚ) / scoreSum exactScores props :=
    div_pos (by exact_mod_cast htotal) hsum
  have hshare (p : Proposal ℚ) : max (share total (scoreSum exactScores props) p) 0 =
      total / scoreSum exactScores props * max p.score 0 := by
    rw [mul_max_of_nonneg _ _ hfactor.le, mul_zero, share]
    congr 1
    ring
  simp only [hshare]
  rw [List.sum_map_mul_left, ← scoreSum_exact, div_mul_cancel₀ _ hsum.ne']

/-- **What is left** of the total is what the shares of positive scores lose. -/
theorem sum_loss (htotal : 0 < total) (hpos : ∃ p ∈ props, 0 < p.score) :
    floorTotal exactScores total (scoreSum exactScores props) props ≤ total.toNat ∧
      (props.map fun p => max (loss total (scoreSum exactScores props) p) 0).sum =
        leftCount total props := by
  -- The shares make the total, and each is what is handed out and what is lost.
  have hparts : (floorTotal exactScores total (scoreSum exactScores props) props : ℚ) +
      (props.map fun p => max (loss total (scoreSum exactScores props) p) 0).sum = total := by
    rw [← sum_max_share htotal hpos, floorTotal, Nat.cast_list_sum, List.map_map,
      ← List.sum_map_add]
    exact congrArg List.sum (List.map_congr_left fun p _ => toInt_add_max_loss _)
  have htotal' : ((total.toNat : ℕ) : ℚ) = total := by
    rw [← Int.cast_natCast, Int.toNat_of_nonneg htotal.le]
  have hloss : 0 ≤ (props.map fun p => max (loss total (scoreSum exactScores props) p) 0).sum := by
    refine List.sum_nonneg fun v hv => ?_
    obtain ⟨p, -, rfl⟩ := List.mem_map.mp hv
    exact le_max_right _ _
  have hle : floorTotal exactScores total (scoreSum exactScores props) props ≤ total.toNat := by
    have hcast : (floorTotal exactScores total (scoreSum exactScores props) props : ℚ) ≤
        total.toNat := by linarith
    exact_mod_cast hcast
  refine ⟨hle, ?_⟩
  rw [leftCount, Nat.cast_sub hle]
  linarith

theorem leftCount_le_length (htotal : 0 < total) (hpos : ∃ p ∈ props, 0 < p.score) :
    leftCount total props ≤ props.length :=
  List.le_length_of_sum (fun _ _ => max_lt (sub_toInt_lt_one _) one_pos) (sum_loss htotal hpos).2

end Shares

/-! ## The assignment -/

section Assignments

variable {total : ℤ} {props : List (Proposal ℚ)}

/-- The remainders of all proposals, as `assignReplicas` sorts them. -/
def sortedRemainders (sortStable : SliceSort) (total : ℤ) (props : List (Proposal ℚ)) :
    List (Remainder ℚ) :=
  sortStable.slice (lossMore exactScores)
    (props.map (remainderOf exactScores total (scoreSum exactScores props)))

theorem length_sortedRemainders (sortStable : SliceSort) (total : ℤ) (props : List (Proposal ℚ)) :
    (sortedRemainders sortStable total props).length = props.length := by
  rw [sortedRemainders, (sortStable.perm _ _).length_eq, List.length_map]

/-- **With a positive score** two passes do: the whole replicas, and one more for those that lost
the most. -/
theorem assignReplicas_of_pos (sortStable : SliceSort) (htotal : 0 < total)
    (hpos : ∃ p ∈ props, 0 < p.score) :
    assignReplicas exactScores sortStable total props =
      some (oneEach ((sortedRemainders sortStable total props).take (leftCount total props))
        (wholeReplicas exactScores total (scoreSum exactScores props) props ∅)) := by
  have hsum : ¬ exactScores.le (scoreSum exactScores props) exactScores.zero = true := fun h =>
    absurd (scoreSum_pos_iff.mpr hpos) (not_lt.mpr (of_decide_eq_true h))
  have hremaining : total - floorTotal exactScores total (scoreSum exactScores props) props =
      (leftCount total props : ℤ) := by
    have hle := (sum_loss htotal hpos).1
    rw [leftCount]
    omega
  have hlength : leftCount total props ≤ (sortedRemainders sortStable total props).length := by
    rw [length_sortedRemainders]
    exact leftCount_le_length htotal hpos
  simp only [assignReplicas, if_neg (not_le.mpr htotal), if_neg hsum, foldl_firstPass, hremaining,
    Int.toNat_natCast, List.nil_append]
  exact leftovers_of_le hlength _

/-- **Without a positive score** each proposal brings one replica, as long as there are any. -/
theorem assignReplicas_of_not_pos (sortStable : SliceSort) (htotal : 0 < total)
    (hnone : ∀ p ∈ props, p.score ≤ 0) :
    assignReplicas exactScores sortStable total props =
      some ((props.take total.toNat).foldl (fun assign p => assign.bump p.nodeID 1) ∅) := by
  have hsum : exactScores.le (scoreSum exactScores props) exactScores.zero = true := by
    refine decide_eq_true (not_lt.mp fun h => ?_)
    obtain ⟨p, hp, hpos⟩ := scoreSum_pos_iff.mp h
    exact absurd hpos (not_lt.mpr (hnone p hp))
  simp only [assignReplicas, if_neg (not_le.mpr htotal), if_pos hsum]

/-- With a positive score it is the total that is handed out. -/
theorem handedOut_exact (htotal : 0 < total) (hpos : ∃ p ∈ props, 0 < p.score) :
    handedOut exactScores total props = total.toNat := by
  have hscore : ∃ p ∈ props, exactScores.lt exactScores.zero p.score = true := by
    obtain ⟨p, hp, hp'⟩ := hpos
    exact ⟨p, hp, decide_eq_true hp'⟩
  rw [handedOut_of_pos hscore, max_eq_left (sum_loss htotal hpos).1]

/-- **How many replicas are handed out**: the total, if a score is positive, and else one for each
proposal, up to the total. -/
theorem assignReplicas_total (sortStable : SliceSort) (htotal : 0 < total) (hprops : props ≠ []) :
    ∃ assign, assignReplicas exactScores sortStable total props = some assign ∧
      ((assign.total id : ℕ) : ℤ) =
        if ∃ p ∈ props, 0 < p.score then total else min total props.length := by
  obtain ⟨assign, hassign, hout⟩ :=
    exists_assignReplicas (A := exactScores) sortStable htotal hprops
  refine ⟨assign, hassign, ?_⟩
  rw [hout.total_eq]
  split_ifs with hpos
  · rw [handedOut_exact htotal hpos, Int.toNat_of_nonneg htotal.le]
  · have hscore : ∀ p ∈ props, exactScores.lt exactScores.zero p.score = false := fun p hp =>
      decide_eq_false fun h => hpos ⟨p, hp, h⟩
    rw [handedOut_of_not_pos hscore]
    omega

/-- A proposal with this score. -/
def proposing (nodeID : String) (score : ℚ) : Proposal ℚ := ⟨"t", nodeID, score, 0⟩

/-- Two machines, of which one scores, hand out all of three replicas. -/
theorem assignReplicas_total_pair :
    ∃ assign, assignReplicas exactScores insertionSlice 3 [proposing "a" 2, proposing "b" (-1)] =
        some assign ∧ ((assign.total id : ℕ) : ℤ) = 3 := by
  have h := assignReplicas_total insertionSlice (show (0 : ℤ) < 3 by decide)
    (List.cons_ne_nil (proposing "a" 2) [proposing "b" (-1)])
  rwa [if_pos ⟨proposing "a" 2, List.mem_cons_self, by decide +kernel⟩] at h

/-- **Without a positive score** the total is not handed out: two replicas are asked for, and the
one machine gets one. -/
theorem scores_without_weight :
    ¬ ∀ (sortStable : SliceSort) (total : ℤ) (props : List (Proposal ℚ)), 0 < total → props ≠ [] →
      ∃ assign, assignReplicas exactScores sortStable total props = some assign ∧
        ((assign.total id : ℕ) : ℤ) = total := by
  intro h
  obtain ⟨assign, hassign, htotal⟩ :=
    h insertionSlice 2 [proposing "a" 0] (by decide) (List.cons_ne_nil _ _)
  have hone : assignReplicas exactScores insertionSlice 2 [proposing "a" 0] =
      some (AList.bump ∅ "a" 1) :=
    assignReplicas_of_not_pos insertionSlice (by decide) (by simp [proposing])
  rw [hone, Option.some.injEq] at hassign
  rw [← hassign] at htotal
  exact absurd htotal (by decide)

end Assignments

end Beemesh.Workplane

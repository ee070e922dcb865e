import Beemesh.Lib.Firsts
import Beemesh.Workplane.Assignment

/-!
# Proportional assignments

Where no two proposals are of one machine and no score is negative, the assignment is the
apportionment of the replicas by largest remainders: the quota of a machine is its share. That the
machine that ranks first is not left without a replica takes that the sort of the remainders is
stable: of those that lose the same the one that ranks first comes first.

## Main definitions

* `replicasOf`: the replicas of a machine
* `quotaOf`: the share of the proposal of a machine
* `Proportional`: each machine gets its quota up to rounding, and the greater score no less

## Main results

* `largestRemainders_sorted`: the sorted remainders are the largest remainders of the quotas
* `replicasOf_assignReplicas`: the replicas of a machine are its seats
* `assignReplicas_proportional`: the assignment is proportional
-/

namespace Beemesh.Workplane

/-! ## The replicas of a machine -/

def replicasOf (assign : Table String ℕ) (nodeID : String) : ℕ := (assign.lookup nodeID).getD 0

theorem replicasOf_bump (assign : Table String ℕ) (nodeID nodeID' : String) (n : ℕ) :
    replicasOf (assign.bump nodeID n) nodeID' =
      replicasOf assign nodeID' + if nodeID' = nodeID then n else 0 :=
  AList.getD_lookup_bump assign nodeID nodeID' n

/-- One replica more for each, by machine. -/
theorem replicasOf_foldl_bump {α : Type} (f : α → String) (l : List α) (assign : Table String ℕ)
    (nodeID : String) :
    replicasOf (l.foldl (fun assign a => assign.bump (f a) 1) assign) nodeID =
      replicasOf assign nodeID + (l.map f).count nodeID := by
  induction l generalizing assign with
  | nil => rfl
  | cons a l ih =>
    rw [List.foldl_cons, ih, replicasOf_bump, List.map_cons, List.count_cons]
    by_cases hid : nodeID = f a
    · simp only [hid, if_pos, beq_self_eq_true]
      omega
    · rw [if_neg hid, if_neg (by simpa using Ne.symm hid)]
      omega

theorem replicasOf_oneEach {F : Type} (remainders : List (Remainder F)) (assign : Table String ℕ)
    (nodeID : String) :
    replicasOf (oneEach remainders assign) nodeID =
      replicasOf assign nodeID + (remainders.map Remainder.nodeID).count nodeID :=
  replicasOf_foldl_bump Remainder.nodeID remainders assign nodeID

/-- The whole replicas of a machine are those of its proposals. -/
theorem replicasOf_wholeReplicas {F : Type} {A : ScoreArithmetic F} {total : ℤ} {sum : F}
    (props : List (Proposal F)) (assign : Table String ℕ) (nodeID : String) :
    replicasOf (wholeReplicas A total sum props assign) nodeID = replicasOf assign nodeID +
      floorTotal A total sum (props.filter fun p => p.nodeID = nodeID) := by
  induction props generalizing assign with
  | nil => rfl
  | cons p props ih =>
    -- The first proposal brings its whole replicas to its own machine only.
    have hstep : wholeReplicas A total sum (p :: props) assign =
        wholeReplicas A total sum props (wholeReplicas A total sum [p] assign) := rfl
    have hone : replicasOf (wholeReplicas A total sum [p] assign) nodeID =
        replicasOf assign nodeID + if nodeID = p.nodeID then
          (A.toInt (proportion A total sum p.score)).toNat else 0 := by
      simp only [wholeReplicas, List.foldl_cons, List.foldl_nil]
      split_ifs with hbase hid hid
      · rw [replicasOf_bump, if_pos hid]
      · rw [replicasOf_bump, if_neg hid]
      · rw [Int.toNat_of_nonpos (not_lt.mp hbase), Nat.add_zero]
      · rfl
    rw [hstep, ih, hone]
    by_cases hid : nodeID = p.nodeID
    · rw [if_pos hid, List.filter_cons_of_pos (by simpa using hid.symm), floorTotal_cons]
      omega
    · rw [if_neg hid, List.filter_cons_of_neg (by simpa using Ne.symm hid), Nat.add_zero]

/-! ## Quotas -/

/-- The share of the proposal of a machine. -/
def quotaOf (total : ℤ) (props : List (Proposal ℚ)) (nodeID : String) : ℚ :=
  (((props.filter fun p => p.nodeID = nodeID).head?).map
    (share total (scoreSum exactScores props))).getD 0

section Quotas

variable {total : ℤ} {props : List (Proposal ℚ)}

theorem quotaOf_of_mem (hids : (props.map Proposal.nodeID).Nodup) {p : Proposal ℚ}
    (hp : p ∈ props) :
    quotaOf total props p.nodeID = share total (scoreSum exactScores props) p := by
  rw [quotaOf, List.filter_key_eq_singleton hids hp]
  rfl

theorem share_nonneg (htotal : 0 < total) (hscores : ∀ p ∈ props, 0 ≤ p.score) {p : Proposal ℚ}
    (hp : p ∈ props) : 0 ≤ share total (scoreSum exactScores props) p := by
  have hsum : 0 ≤ scoreSum exactScores props := by
    rw [scoreSum_exact]
    refine List.sum_nonneg fun v hv => ?_
    obtain ⟨q, -, rfl⟩ := List.mem_map.mp hv
    exact le_max_right _ _
  have htotal' : (0 : ℚ) ≤ total := by exact_mod_cast htotal.le
  exact mul_nonneg (div_nonneg (hscores p hp) hsum) htotal'

/-- What is left of the remainder of a proposal is the fraction of its quota. -/
theorem frac_remainderOf (htotal : 0 < total) (hids : (props.map Proposal.nodeID).Nodup)
    (hscores : ∀ p ∈ props, 0 ≤ p.score) {p : Proposal ℚ} (hp : p ∈ props) :
    (remainderOf exactScores total (scoreSum exactScores props) p).frac =
      Int.fract (quotaOf total props p.nodeID) := by
  rw [quotaOf_of_mem hids hp, ← sub_toInt_of_nonneg (share_nonneg htotal hscores hp)]
  rfl

/-- The machines of the sorted remainders are those of the proposals. -/
theorem perm_sortedRemainders (sortStable : SliceSort) (total : ℤ) (props : List (Proposal ℚ)) :
    ((sortedRemainders sortStable total props).map Remainder.nodeID).Perm
      (props.map Proposal.nodeID) := by
  have hperm := (sortStable.perm (lossMore exactScores)
    (props.map (remainderOf exactScores total (scoreSum exactScores props)))).map Remainder.nodeID
  rwa [List.map_map] at hperm

variable (sortStable : OrderedSlice)

theorem mem_sortedRemainders {sortStable : SliceSort} {r : Remainder ℚ} :
    r ∈ sortedRemainders sortStable total props ↔
      ∃ p ∈ props, remainderOf exactScores total (scoreSum exactScores props) p = r := by
  rw [sortedRemainders, (sortStable.perm _ _).mem_iff, List.mem_map]

/-- **The sorted remainders** are the largest remainders of the quotas. -/
theorem largestRemainders_sorted (htotal : 0 < total) (hpos : ∃ p ∈ props, 0 < p.score)
    (hids : (props.map Proposal.nodeID).Nodup) (hscores : ∀ p ∈ props, 0 ≤ p.score) :
    LargestRemainders (quotaOf total props)
      ((sortedRemainders sortStable.toSliceSort total props).map Remainder.nodeID)
      (leftCount total props) := by
  have hfrac : ∀ r ∈ sortedRemainders sortStable.toSliceSort total props,
      r.frac = Int.fract (quotaOf total props r.nodeID) := by
    intro r hr
    obtain ⟨p, hp, rfl⟩ := mem_sortedRemainders.mp hr
    exact frac_remainderOf htotal hids hscores hp
  constructor
  · rw [List.pairwise_map]
    refine (sortStable.ordered (lossMore exactScores) _).imp_of_mem fun hr hr' hle => ?_
    rw [← hfrac _ hr, ← hfrac _ hr']
    exact lossMore_eq_false_iff.mp hle
  · -- The sum does not depend on the order.
    have hperm := (sortStable.perm (lossMore exactScores)
      (props.map (remainderOf exactScores total (scoreSum exactScores props)))).map Remainder.frac
    rw [List.map_map]
    calc ((sortedRemainders sortStable.toSliceSort total props).map
          ((fun nodeID => Int.fract (quotaOf total props nodeID)) ∘ Remainder.nodeID)).sum
        = ((sortedRemainders sortStable.toSliceSort total props).map Remainder.frac).sum :=
          congrArg List.sum (List.map_congr_left fun r hr => (hfrac r hr).symm)
      _ = (props.map fun p => max (loss total (scoreSum exactScores props) p) 0).sum := by
          rw [sortedRemainders, hperm.sum_eq, List.map_map]
          refine congrArg List.sum (List.map_congr_left fun p hp => ?_)
          have hloss : 0 ≤ loss total (scoreSum exactScores props) p := by
            rw [loss, sub_toInt_of_nonneg (share_nonneg htotal hscores hp)]
            exact Int.fract_nonneg _
          rw [max_eq_left hloss]
          rfl
      _ = leftCount total props := (sum_loss htotal hpos).2

/-- **The replicas of a machine** are its seats. -/
theorem replicasOf_assignReplicas (htotal : 0 < total) (hpos : ∃ p ∈ props, 0 < p.score)
    (hids : (props.map Proposal.nodeID).Nodup) (hscores : ∀ p ∈ props, 0 ≤ p.score) :
    ∃ assign, assignReplicas exactScores sortStable.toSliceSort total props = some assign ∧
      ∀ p ∈ props, (replicasOf assign p.nodeID : ℤ) = seats (quotaOf total props)
        ((sortedRemainders sortStable.toSliceSort total props).map Remainder.nodeID)
        (leftCount total props) p.nodeID := by
  refine ⟨_, assignReplicas_of_pos sortStable.toSliceSort htotal hpos, fun p hp => ?_⟩
  have hwhole : exactScores.toInt (proportion exactScores total (scoreSum exactScores props)
      p.score) = ⌊quotaOf total props p.nodeID⌋ := by
    rw [quotaOf_of_mem hids hp]
    exact toInt_of_nonneg (share_nonneg htotal hscores hp)
  have hnonneg : 0 ≤ ⌊quotaOf total props p.nodeID⌋ := by
    rw [quotaOf_of_mem hids hp, Int.floor_nonneg]
    exact share_nonneg htotal hscores hp
  -- No machine comes twice, neither among the proposals nor among those that get one more.
  have hsorted := (perm_sortedRemainders sortStable.toSliceSort total props).nodup_iff.mpr hids
  have hnodup := (List.take_sublist (leftCount total props) _).nodup hsorted
  rw [replicasOf_oneEach, replicasOf_wholeReplicas, List.filter_key_eq_singleton hids hp,
    floorTotal_cons, hwhole, List.map_take, hnodup.count, seats]
  have hempty : replicasOf ∅ p.nodeID = 0 := rfl
  have hnil : floorTotal exactScores total (scoreSum exactScores props) [] = 0 := rfl
  rw [hempty, hnil]
  push_cast
  rw [Int.toNat_of_nonneg hnonneg]
  omega

end Quotas

/-! ## Proportional assignments -/

/-- Each machine gets the floor or the ceiling of its part of the total, and none if it has no
score; a machine with a greater score gets no less; and the one that ranks first gets one. -/
structure Proportional (total : ℤ) (props : List (Proposal ℚ)) (assign : Table String ℕ) :
    Prop where
  quota : ∀ p ∈ props, let part := total * p.score / (props.map Proposal.score).sum
    (replicasOf assign p.nodeID : ℤ) = ⌊part⌋ ∨ (replicasOf assign p.nodeID : ℤ) = ⌈part⌉
  none : ∀ p ∈ props, p.score = 0 → replicasOf assign p.nodeID = 0
  mono : ∀ p ∈ props, ∀ q ∈ props, p.score < q.score →
    replicasOf assign p.nodeID ≤ replicasOf assign q.nodeID
  top : ∀ p ∈ props.head?, 1 ≤ replicasOf assign p.nodeID

section Proportional

variable {total : ℤ} {props : List (Proposal ℚ)}

theorem scoreSum_of_nonneg (hscores : ∀ p ∈ props, 0 ≤ p.score) :
    scoreSum exactScores props = (props.map Proposal.score).sum := by
  rw [scoreSum_exact]
  exact congrArg List.sum (List.map_congr_left fun p hp => max_eq_left (hscores p hp))

/-- Greater scores have greater shares. -/
theorem share_le_share_iff (htotal : 0 < total) {sum : ℚ} (hsum : 0 < sum) {p q : Proposal ℚ} :
    share total sum p ≤ share total sum q ↔ p.score ≤ q.score := by
  have htotal' : (0 : ℚ) < total := by exact_mod_cast htotal
  rw [share, share, mul_le_mul_iff_left₀ htotal', div_le_div_iff_of_pos_right hsum]

theorem share_lt_share_iff (htotal : 0 < total) {sum : ℚ} (hsum : 0 < sum) {p q : Proposal ℚ} :
    share total sum p < share total sum q ↔ p.score < q.score := by
  rw [← not_le, share_le_share_iff htotal hsum, not_le]

/-- Of a list in the order of the ranks the head has the greatest score. -/
theorem score_le_head {p : Proposal ℚ} {rest : List (Proposal ℚ)}
    (hsorted : (p :: rest).Pairwise fun p q => proposalLess exactScores q p = false) :
    ∀ q ∈ p :: rest, q.score ≤ p.score := by
  intro q hq
  rcases List.mem_cons.mp hq with rfl | hq
  · exact le_rfl
  · have hrank := proposalLess_eq_false_iff.mp (List.rel_of_pairwise_cons hsorted hq)
    exact Prod.Lex.monotone_fst_ofLex hrank

/-- A machine that ranks first, with less than a whole replica, is the first that lost something. -/
theorem head?_sortedRemainders (sortStable : StableSlice) (htotal : 0 < total) {p : Proposal ℚ}
    {rest : List (Proposal ℚ)} (hsum : 0 < scoreSum exactScores (p :: rest))
    (hscores : ∀ q ∈ p :: rest, 0 ≤ q.score)
    (hsorted : (p :: rest).Pairwise fun p q => proposalLess exactScores q p = false)
    (hless : share total (scoreSum exactScores (p :: rest)) p < 1) :
    (sortedRemainders sortStable.toSliceSort total (p :: rest)).head? =
      some (remainderOf exactScores total (scoreSum exactScores (p :: rest)) p) := by
  -- Shares below one lose all of themselves.
  have hfrac : ∀ q ∈ p :: rest,
      (remainderOf exactScores total (scoreSum exactScores (p :: rest)) q).frac =
        share total (scoreSum exactScores (p :: rest)) q := by
    intro q hq
    have hnonneg := share_nonneg htotal hscores hq
    have hbelow := ((share_le_share_iff htotal hsum).mpr (score_le_head hsorted q hq)).trans_lt hless
    calc (remainderOf exactScores total (scoreSum exactScores (p :: rest)) q).frac
        = Int.fract (share total (scoreSum exactScores (p :: rest)) q) :=
          sub_toInt_of_nonneg hnonneg
      _ = share total (scoreSum exactScores (p :: rest)) q :=
          Int.fract_eq_self.mpr ⟨hnonneg, hbelow⟩
  refine (sortStable.stablePerm _).head?_cons fun r hr => ?_
  obtain ⟨q, hq, rfl⟩ := List.mem_map.mp hr
  rw [lossMore_eq_false_iff, hfrac q (List.mem_cons_of_mem p hq), hfrac p List.mem_cons_self,
    share_le_share_iff htotal hsum]
  exact score_le_head hsorted q (List.mem_cons_of_mem p hq)

/-- The quotas make the total. -/
theorem sum_quotaOf (htotal : 0 < total) (hpos : ∃ p ∈ props, 0 < p.score)
    (hids : (props.map Proposal.nodeID).Nodup) (hscores : ∀ p ∈ props, 0 ≤ p.score) :
    ((props.map Proposal.nodeID).map (quotaOf total props)).sum = total := by
  rw [← sum_max_share htotal hpos, List.map_map]
  refine congrArg List.sum (List.map_congr_left fun p hp => ?_)
  rw [Function.comp_apply, quotaOf_of_mem hids hp, max_eq_left (share_nonneg htotal hscores hp)]

/-- The quota of a machine is its part of the total. -/
theorem quotaOf_eq_part (hids : (props.map Proposal.nodeID).Nodup)
    (hscores : ∀ p ∈ props, 0 ≤ p.score) {p : Proposal ℚ} (hp : p ∈ props) :
    quotaOf total props p.nodeID = total * p.score / (props.map Proposal.score).sum := by
  rw [quotaOf_of_mem hids hp, share, scoreSum_of_nonneg hscores]
  ring

theorem quotaOf_lt_quotaOf_iff (htotal : 0 < total) (hids : (props.map Proposal.nodeID).Nodup)
    (hsum : 0 < scoreSum exactScores props) {p q : Proposal ℚ} (hp : p ∈ props) (hq : q ∈ props) :
    quotaOf total props p.nodeID < quotaOf total props q.nodeID ↔ p.score < q.score := by
  rw [quotaOf_of_mem hids hp, quotaOf_of_mem hids hq, share_lt_share_iff htotal hsum]

/-- A machine that ranks first has a seat: it has a whole quota, or it is the first that lost
something. -/
theorem one_le_seats_head (sortStable : StableSlice) (htotal : 0 < total) {p : Proposal ℚ}
    {rest : List (Proposal ℚ)} (hids : ((p :: rest).map Proposal.nodeID).Nodup)
    (hscores : ∀ q ∈ p :: rest, 0 ≤ q.score) (hsum : 0 < scoreSum exactScores (p :: rest))
    (hsorted : (p :: rest).Pairwise fun p q => proposalLess exactScores q p = false) :
    1 ≤ seats (quotaOf total (p :: rest))
      ((sortedRemainders sortStable.toSliceSort total (p :: rest)).map Remainder.nodeID)
      (leftCount total (p :: rest)) p.nodeID := by
  have hpos := scoreSum_pos_iff.mp hsum
  have hperm := perm_sortedRemainders sortStable.toSliceSort total (p :: rest)
  have hquota : ∀ q ∈ p :: rest, quotaOf total (p :: rest) q.nodeID =
      share total (scoreSum exactScores (p :: rest)) q := fun q hq => quotaOf_of_mem hids hq
  refine one_le_seats
    (largestRemainders_sorted sortStable.toOrderedSlice htotal hpos hids hscores) ?_ ?_ ?_ ?_
  · intro nodeID hnodeID
    obtain ⟨q, hq, rfl⟩ := List.mem_map.mp (hperm.mem_iff.mp hnodeID)
    rw [hquota q hq]
    exact share_nonneg htotal hscores hq
  · intro nodeID hnodeID
    obtain ⟨q, hq, rfl⟩ := List.mem_map.mp (hperm.mem_iff.mp hnodeID)
    rw [hquota q hq, hquota p List.mem_cons_self, share_le_share_iff htotal hsum]
    exact score_le_head hsorted q hq
  · rw [(hperm.map _).sum_eq, sum_quotaOf htotal hpos hids hscores]
    exact_mod_cast htotal
  · -- With less than a whole quota it heads the remainders.
    intro hless
    rw [hquota p List.mem_cons_self] at hless
    rw [List.head?_map, head?_sortedRemainders sortStable htotal hsum hscores hsorted hless]
    rfl

/-- The assignment of a list in the order of the ranks is proportional. -/
theorem proportional_of_sorted (sortStable : StableSlice) (htotal : 0 < total)
    (hids : (props.map Proposal.nodeID).Nodup) (hscores : ∀ p ∈ props, 0 ≤ p.score)
    (hsum : 0 < (props.map Proposal.score).sum)
    (hsorted : props.Pairwise fun p q => proposalLess exactScores q p = false) :
    ∃ assign, assignReplicas exactScores sortStable.toSliceSort total props = some assign ∧
      Proportional total props assign := by
  rw [← scoreSum_of_nonneg hscores] at hsum
  have hpos := scoreSum_pos_iff.mp hsum
  obtain ⟨assign, hassign, hseats⟩ :=
    replicasOf_assignReplicas sortStable.toOrderedSlice htotal hpos hids hscores
  have hlargest := largestRemainders_sorted sortStable.toOrderedSlice htotal hpos hids hscores
  refine ⟨assign, hassign, ?_, ?_, ?_, ?_⟩
  · intro p hp part
    rw [hseats p hp, show part = quotaOf total props p.nodeID from
      (quotaOf_eq_part hids hscores hp).symm]
    exact seats_eq_floor_or_ceil hlargest p.nodeID
  · intro p hp hzero
    have hquota : quotaOf total props p.nodeID = 0 := by
      rw [quotaOf_eq_part hids hscores hp, hzero, mul_zero, zero_div]
    have hnone := hseats p hp
    rw [seats_of_eq_zero hlargest hquota] at hnone
    exact_mod_cast hnone
  · intro p hp q hq hlt
    have horder := (perm_sortedRemainders sortStable.toSliceSort total props).mem_iff.mpr
      (List.mem_map_of_mem hq)
    have hle := seats_mono hlargest horder ((quotaOf_lt_quotaOf_iff htotal hids hsum hp hq).mpr hlt)
    rw [← hseats p hp, ← hseats q hq] at hle
    exact_mod_cast hle
  · intro p hp
    obtain ⟨rest, rfl⟩ := List.head?_eq_some_iff.mp hp
    have hseat := one_le_seats_head sortStable htotal hids hscores hsum hsorted
    rw [← hseats p List.mem_cons_self] at hseat
    exact_mod_cast hseat

/-- **The assignment is proportional**, of the proposals as a round sorts them. -/
theorem assignReplicas_proportional (sort : OrderedSlice) (sortStable : StableSlice)
    (htotal : 0 < total) {received : List (Proposal ℚ)}
    (hids : (received.map Proposal.nodeID).Nodup) (hscores : ∀ p ∈ received, 0 ≤ p.score)
    (hsum : 0 < (received.map Proposal.score).sum) :
    let props := sort.slice (proposalLess exactScores) received
    ∃ assign, assignReplicas exactScores sortStable.toSliceSort total props = some assign ∧
      Proportional total props assign := by
  intro props
  have hperm : props.Perm received := sort.perm (proposalLess exactScores) received
  refine proportional_of_sorted sortStable htotal ?_ ?_ ?_ ?_
  · rwa [(hperm.map Proposal.nodeID).nodup_iff]
  · exact fun p hp => hscores p (hperm.mem_iff.mp hp)
  · rwa [(hperm.map Proposal.score).sum_eq]
  · exact sort.ordered (proposalLess exactScores) received

/-- Of seven replicas a machine with half the score of another gets two, and this gets five. -/
theorem assignReplicas_proportional_pair :
    let props := insertionSlice.slice (proposalLess exactScores) [proposing "a" 1, proposing "b" 2]
    ∃ assign, assignReplicas exactScores insertionSlice 7 props = some assign ∧
      Proportional 7 props assign :=
  assignReplicas_proportional insertionStable.toOrderedSlice insertionStable (by decide)
    (by decide) (by decide +kernel) (by decide +kernel)

end Proportional

end Beemesh.Workplane

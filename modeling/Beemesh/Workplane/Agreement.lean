import Beemesh.Workplane.Proportional

/-!
# Machines agree on the assignment

A round sorts its proposals before it assigns replicas, and with a proposal of each machine no two of
them have the same rank, so that it does not matter in what order they came, nor how the round
sorts. Machines that hear each other, and put in their own proposals, have the same proposals.

## Main definitions

* `roundProposals`, `roundAssignment`: the proposals of a round, and their assignment
* `HearsAll`: what a round collects, but for its own proposal, is what there is to hear

## Main results

* `distributedSchedule_eq`: a round carries out its assignment
* `upsertProposal_perm`: a proposal that is put in takes the place of another of its machine
* `sameAssignment`: rounds with the same proposals have the same assignment
-/

namespace Beemesh.Workplane

/-! ## The assignment of a round -/

section Rounds

variable {F M : Type} (A : ScoreArithmetic F)

/-- What a round sorts: what it collects, with its own proposal. -/
def roundProposals (opt : Options F M) (taskID : String) (received : List (Proposal F)) :
    List (Proposal F) :=
  upsertProposal (collect taskID received) (opt.selfProposal taskID)

/-- The replicas that a round assigns. -/
def Task.wanted (task : Task) : ℤ := if task.replicas ≤ 0 then 1 else task.replicas

/-- The assignment of a round. -/
def roundAssignment (sort sortStable : SliceSort) (opt : Options F M) (task : Task)
    (received : List (Proposal F)) : Option (Table String ℕ) :=
  assignReplicas A sortStable task.wanted
    (sort.slice (proposalLess A) (roundProposals opt task.taskID received))

theorem upsertProposal_ne_nil (list : List (Proposal F)) (p : Proposal F) :
    upsertProposal list p ≠ [] := by
  cases list with
  | nil => exact List.cons_ne_nil p []
  | cons q list =>
    rw [upsertProposal]
    split_ifs
    · exact List.cons_ne_nil _ _
    · exact List.cons_ne_nil _ _

/-- **A round carries out its assignment.** -/
theorem distributedSchedule_eq (sort sortStable : SliceSort) (opt : Options F M) (task : Task)
    (received : List (Proposal F)) :
    distributedSchedule A sort sortStable opt task received =
      (roundAssignment A sort sortStable opt task received).map fun assignments =>
        .publishProposal (opt.selfProposal task.taskID) :: assignments.entries.flatMap
          (execute opt (if task.replicas ≤ 0 then { task with replicas := 1 } else task)) := by
  have hne (taskID : String) : ¬ (upsertProposal (collect taskID received)
      (opt.selfProposal taskID)).isEmpty = true := fun h =>
    upsertProposal_ne_nil _ _ (List.isEmpty_iff.mp h)
  unfold distributedSchedule roundAssignment Task.wanted roundProposals
  split_ifs with hreplicas
  · simp only [if_neg (hne _)]
  · simp only [if_neg (hne _)]

/-- **A proposal that is put in** takes the place of another of its machine. -/
theorem upsertProposal_perm {list : List (Proposal F)} {p : Proposal F}
    (hids : (list.map Proposal.nodeID).Nodup) (htask : ∀ q ∈ list, q.taskID = p.taskID) :
    (upsertProposal list p).Perm (p :: list.filter fun q => q.nodeID ≠ p.nodeID) := by
  induction list with
  | nil => exact List.Perm.refl [p]
  | cons q list ih =>
    rw [List.map_cons, List.nodup_cons] at hids
    have hq := htask q List.mem_cons_self
    by_cases hid : q.nodeID = p.nodeID
    · -- No other proposal is of this machine.
      have hrest : list.filter (fun r => r.nodeID ≠ p.nodeID) = list := by
        rw [List.filter_eq_self]
        intro r hr
        refine decide_eq_true fun h => hids.1 ?_
        rw [hid, ← h]
        exact List.mem_map_of_mem hr
      rw [upsertProposal, if_pos ⟨hid, hq⟩, List.filter_cons_of_neg (by simpa using hid), hrest]
    · rw [upsertProposal, if_neg fun h => hid h.1, List.filter_cons_of_pos (by simpa using hid)]
      have hperm := ih hids.2 fun r hr => htask r (List.mem_cons_of_mem q hr)
      exact (hperm.cons q).trans (List.Perm.swap p q _)

end Rounds

/-! ## What machines hear -/

section Hearing

variable {F M : Type}

theorem taskID_of_mem_collect {taskID : String} {received : List (Proposal F)} {p : Proposal F}
    (hp : p ∈ collect taskID received) : p.taskID = taskID :=
  of_decide_eq_true (List.mem_filter.mp hp).2

/-- Of `all` proposals a machine hears each of another machine, once. Its own is one of them; what
it hears of itself is one proposal at most. -/
structure HearsAll (all : List (Proposal F)) (opt : Options F M) (taskID : String)
    (received : List (Proposal F)) : Prop where
  own : opt.selfProposal taskID ∈ all
  nodup : ((collect taskID received).map Proposal.nodeID).Nodup
  others : ∀ p, p.nodeID ≠ opt.nodeID → (p ∈ collect taskID received ↔ p ∈ all)

/-- A machine that hears all has all of them. -/
theorem HearsAll.perm {all : List (Proposal F)} {opt : Options F M} {taskID : String}
    {received : List (Proposal F)} (h : HearsAll all opt taskID received)
    (hall : (all.map Proposal.nodeID).Nodup) : (roundProposals opt taskID received).Perm all := by
  have htask : ∀ q ∈ all, q.taskID = (opt.selfProposal taskID).taskID := by
    intro q hq
    by_cases hid : q.nodeID = opt.nodeID
    · rw [List.inj_on_of_nodup_map hall hq h.own hid]
    · exact taskID_of_mem_collect ((h.others q hid).mpr hq)
  have hothers : ((collect taskID received).filter fun q => q.nodeID ≠ opt.nodeID).Perm
      (all.filter fun q => q.nodeID ≠ opt.nodeID) := by
    rw [List.perm_ext_iff_of_nodup (h.nodup.of_map.filter _) (hall.of_map.filter _)]
    intro q
    rw [List.mem_filter, List.mem_filter]
    exact and_congr_left fun hid => h.others q (of_decide_eq_true hid)
  -- Both are the own proposal, and those of the others.
  have hround : (roundProposals opt taskID received).Perm (opt.selfProposal taskID ::
      (collect taskID received).filter fun q => q.nodeID ≠ opt.nodeID) :=
    upsertProposal_perm h.nodup fun q hq => taskID_of_mem_collect hq
  have hsame := upsertProposal_perm hall htask
  rw [upsertProposal_of_mem hall h.own] at hsame
  exact (hround.trans (hothers.cons _)).trans hsame.symm

end Hearing

/-! ## Agreement -/

/-- A stable sort does not matter to the assignment, either. -/
theorem assignReplicas_stable (sortStable sortStable' : StableSlice) (total : ℤ)
    (props : List (Proposal ℚ)) :
    assignReplicas exactScores sortStable.toSliceSort total props =
      assignReplicas exactScores sortStable'.toSliceSort total props := by
  have hslice (l : List (Remainder ℚ)) :
      sortStable.slice (fun r r' => exactScores.lt r'.frac r.frac) l =
        sortStable'.slice (fun r r' => exactScores.lt r'.frac r.frac) l :=
    StableSlice.slice_eq sortStable sortStable' l
  simp only [assignReplicas, hslice]

/-- Proposals of different machines, in whatever order, have one assignment. -/
theorem assignReplicas_perm (sort sort' : OrderedSlice) (sortStable sortStable' : StableSlice)
    (total : ℤ) {props props' : List (Proposal ℚ)} (hids : (props.map Proposal.nodeID).Nodup)
    (hperm : props.Perm props') :
    assignReplicas exactScores sortStable.toSliceSort total
        (sort.slice (proposalLess exactScores) props) =
      assignReplicas exactScores sortStable'.toSliceSort total
        (sort'.slice (proposalLess exactScores) props') := by
  have hranks : ∀ p ∈ props, ∀ q ∈ props, p.rank = q.rank → p = q := fun p hp q hq hrank =>
    List.inj_on_of_nodup_map hids hp hq (rank_eq_iff.mp hrank).2.2
  rw [sort.slice_eq_of_perm sort' hranks hperm]
  exact assignReplicas_stable sortStable sortStable' total _

/-- **Rounds with the same proposals** have the same assignment: in whatever order the proposals of
different machines came, and on all machines that hear each other. -/
theorem sameAssignment {M : Type} (sort sort' : OrderedSlice)
    (sortStable sortStable' : StableSlice) :
    (∀ (total : ℤ) (props props' : List (Proposal ℚ)), (props.map Proposal.nodeID).Nodup →
      props.Perm props' →
      assignReplicas exactScores sortStable.toSliceSort total
          (sort.slice (proposalLess exactScores) props) =
        assignReplicas exactScores sortStable'.toSliceSort total
          (sort'.slice (proposalLess exactScores) props')) ∧
    ∀ (task : Task) (all : List (Proposal ℚ)) (opt opt' : Options ℚ M)
      (received received' : List (Proposal ℚ)), (all.map Proposal.nodeID).Nodup →
      HearsAll all opt task.taskID received → HearsAll all opt' task.taskID received' →
      roundAssignment exactScores sort.toSliceSort sortStable.toSliceSort opt task received =
        roundAssignment exactScores sort'.toSliceSort sortStable'.toSliceSort opt' task
          received' := by
  refine ⟨fun total props props' hids hperm => ?_, ?_⟩
  · exact assignReplicas_perm sort sort' sortStable sortStable' total hids hperm
  · intro task all opt opt' received received' hall hopt hopt'
    have hround := hopt.perm hall
    refine assignReplicas_perm sort sort' sortStable sortStable' task.wanted ?_
      (hround.trans (hopt'.perm hall).symm)
    rwa [(hround.map Proposal.nodeID).nodup_iff]

/-- Two machines that hear each other assign three replicas alike. -/
theorem sameAssignment_pair :
    assignReplicas exactScores insertionSlice 3 (insertionSlice.slice (proposalLess exactScores)
        [proposing "a" 1, proposing "b" 1]) =
      assignReplicas exactScores insertionSlice 3 (insertionSlice.slice (proposalLess exactScores)
        [proposing "b" 1, proposing "a" 1]) ∧
    roundAssignment exactScores insertionSlice insertionSlice (scored "a" 1) threePods
        [proposing "b" 1] =
      roundAssignment exactScores insertionSlice insertionSlice (scored "b" 1) threePods
        [proposing "b" 1, proposing "a" 1] := by
  have h := sameAssignment (M := Unit) insertionStable.toOrderedSlice
    insertionStable.toOrderedSlice insertionStable insertionStable
  refine ⟨h.1 3 _ _ (by decide) (List.Perm.swap _ _ []), ?_⟩
  have ha : HearsAll [proposing "a" 1, proposing "b" 1] (scored "a" 1) "t" [proposing "b" 1] := by
    refine ⟨List.mem_cons_self, List.nodup_singleton _, fun p hp => ?_⟩
    have hother : p ≠ proposing "a" 1 := fun h => hp (congrArg Proposal.nodeID h)
    have hrest : p ∈ [proposing "a" 1, proposing "b" 1] ↔ p ∈ [proposing "b" 1] :=
      List.mem_cons.trans (or_iff_right hother)
    exact hrest.symm
  have hb : HearsAll [proposing "a" 1, proposing "b" 1] (scored "b" 1) "t"
      [proposing "b" 1, proposing "a" 1] := by
    refine ⟨List.mem_cons_of_mem _ List.mem_cons_self, by decide, fun p _ => ?_⟩
    exact (List.Perm.swap _ _ []).mem_iff
  exact h.2 threePods _ _ _ _ _ (by decide) ha hb

end Beemesh.Workplane

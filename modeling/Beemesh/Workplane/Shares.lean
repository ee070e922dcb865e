import Beemesh.Workplane.Agreement
import Beemesh.Workplane.Float64

/-!
# One share for each machine

A round keeps all proposals that it collects, and of its own the one it puts in takes the place of
the first. The assignment is by proposals: a machine that has sent two gets the replicas of both, and
each of them has its part in what a share is.

## Main definitions

* `keepOne`: of each machine the proposal that ranks first
* `OneShare`: a round assigns what it would assign with one proposal of each machine
* `CountsOnce`: no machine has two proposals, or none has two that count

## Main results

* `slice_keepOne`: one proposal of each machine, sorted, is what is first of it in the sorted round
* `assignReplicas_retainNew`: what counts once is assigned as if it were kept alone
* `oneShare_of_countsOnce`: where no machine has two proposals that count, each has one share
* `two_shares`: a machine that sends its proposal twice, and gets more
-/

namespace Beemesh.Workplane

variable {F : Type}

/-- Of each machine the proposal that ranks first, in the order in which the machines came. -/
def keepOne (A : ScoreArithmetic F) (sort : SliceSort) (props : List (Proposal F)) :
    List (Proposal F) :=
  (List.retainNew Proposal.nodeID [] props).filterMap fun p =>
    (sort.slice (proposalLess A) props).find? fun q => q.nodeID = p.nodeID

/-- A round assigns to every machine what it would with one proposal of each. -/
def OneShare {M : Type} (A : ScoreArithmetic F) (sort sortStable : SliceSort) (opt : Options F M)
    (task : Task) (received : List (Proposal F)) : Prop :=
  (roundAssignment A sort sortStable opt task received).map replicasOf =
    (assignReplicas A sortStable task.wanted (sort.slice (proposalLess A)
      (keepOne A sort (roundProposals opt task.taskID received)))).map replicasOf

/-- No machine has two proposals, or with finite scores none has two that count. If one is positive,
the scores are tame, those count that are positive, and only one machine may have more; else the
first ones count, of which each brings a replica. -/
def CountsOnce (A : Float64 F) (total : ℤ) (props : List (Proposal F)) : Prop :=
  (props.map Proposal.nodeID).Nodup ∨ (∀ p ∈ props, A.Finite p.score) ∧
    if ∃ p ∈ props, A.scores p = true then
      Tame A total props ∧ (((props.filter A.scores).map Proposal.nodeID).Nodup ∨
        ∃ nodeID, ∀ p ∈ props, A.scores p = true → p.nodeID = nodeID)
    else ((props.take total.toNat).map Proposal.nodeID).Nodup

/-- Replicas for one machine only are all for it. -/
theorem HandsOut.replicasOf_single {ids : List String} {assign : Table String ℕ} {n : ℕ}
    (h : HandsOut ids assign n) {nodeID : String} (hids : ∀ id ∈ ids, id = nodeID) :
    replicasOf assign = fun id => if id = nodeID then n else 0 := by
  have hkeys : ∀ id ∈ assign, id = nodeID := fun id hid => hids id (h.within id hid)
  funext id
  split_ifs with hid
  · rw [hid, replicasOf, ← AList.total_of_single hkeys, h.total_eq]
  · rw [replicasOf, AList.lookup_eq_none.mpr fun hmem => hid (hkeys id hmem)]
    rfl

variable {A : Float64 F}

/-! ## The order of finite scores -/

/-- What proposals are compared by: the greater score comes first, then the older proposal, then
the machine. -/
def Float64.rank (A : Float64 F) (p : Proposal F) : ℚᵒᵈ ×ₗ ℤ ×ₗ String :=
  Proposal.rank { p with score := A.value p.score }

/-- Proposals are compared by rank. -/
def rankLess (A : Float64 F) (p q : Proposal F) : Bool := decide (A.rank p < A.rank q)

instance isStrictWeakOrder_rankLess : IsStrictWeakOrder (Proposal F) (rankLess A · ·) :=
  List.isStrictWeakOrder_of_key A.rank fun _ _ => decide_eq_true_iff

theorem proposalLess_eq {p q : Proposal F} (hp : A.Finite p.score) (hq : A.Finite q.score) :
    proposalLess A.toScoreArithmetic p q = rankLess A p q := by
  have heq : A.eq p.score q.score = exactScores.eq (A.value p.score) (A.value q.score) := by
    rw [Bool.eq_iff_iff, A.eq_iff hp hq]
    exact decide_eq_true_iff.symm
  have hlt : A.lt q.score p.score = exactScores.lt (A.value q.score) (A.value p.score) := by
    rw [Bool.eq_iff_iff, A.lt_iff hq hp]
    exact decide_eq_true_iff.symm
  rw [Bool.eq_iff_iff, rankLess, decide_eq_true_iff, Float64.rank, Float64.rank, ← proposalLess_iff,
    proposalLess, proposalLess, heq, hlt]

section Sorted

variable {sort : OrderedSlice} (hsort : sort.Local) {props : List (Proposal F)}
  (hfinite : ∀ p ∈ props, A.Finite p.score)

include hsort hfinite

theorem slice_eq_rankLess : sort.slice (proposalLess A.toScoreArithmetic) props =
    sort.slice (rankLess A) props :=
  hsort fun p hp q hq => proposalLess_eq (hfinite p hp) (hfinite q hq)

/-- The sorted proposals are in the order of their ranks. -/
theorem slice_orderedPerm : props.OrderedPerm (rankLess A)
    (sort.slice (proposalLess A.toScoreArithmetic) props) := by
  rw [slice_eq_rankLess hsort hfinite]
  exact sort.orderedPerm props

end Sorted

/-- The greatest score is in front. -/
theorem value_le_head {p : Proposal F} {props : List (Proposal F)}
    (h : (p :: props).Pairwise fun p q => rankLess A q p = false) :
    ∀ q ∈ p :: props, A.value q.score ≤ A.value p.score := by
  intro q hq
  rcases List.mem_cons.mp hq with rfl | hq
  · exact le_rfl
  · have hle := not_lt.mp (of_decide_eq_false (List.rel_of_pairwise_cons h hq))
    exact Prod.Lex.monotone_fst_ofLex hle

/-- In the order of the ranks the proposals with a positive score come first. -/
theorem filter_append_filter_scores {props : List (Proposal F)}
    (hfinite : ∀ p ∈ props, A.Finite p.score)
    (h : props.Pairwise fun p q => rankLess A q p = false) :
    props.filter A.scores ++ props.filter (fun p => !A.scores p) = props := by
  refine List.Pairwise.filter_append_filter (h.imp_of_mem fun {p q} hp hq hle hscore => ?_)
  rw [A.scores_iff (hfinite q hq)] at hscore
  rw [A.scores_iff (hfinite p hp)]
  exact hscore.trans_le (Prod.Lex.monotone_fst_ofLex (not_lt.mp (of_decide_eq_false hle)))

/-! ## One proposal of each machine -/

section Kept

variable {props : List (Proposal F)}

theorem nodup_keepOne (A : ScoreArithmetic F) (sort : SliceSort) (props : List (Proposal F)) :
    ((keepOne A sort props).map Proposal.nodeID).Nodup := by
  have hnodup : ((List.retainNew Proposal.nodeID [] props).map Proposal.nodeID).Nodup :=
    List.nodup_map_retainNew [] props
  rw [List.Nodup, List.pairwise_map] at hnodup ⊢
  refine hnodup.filterMap _ fun p p' hne q hq q' hq' => ?_
  have hid : q.nodeID = p.nodeID := by simpa using List.find?_some hq
  have hid' : q'.nodeID = p'.nodeID := by simpa using List.find?_some hq'
  rwa [hid, hid']

/-- What is kept is first of its machine in the sorted list. -/
theorem mem_keepOne {A : ScoreArithmetic F} {sort : SliceSort} {q : Proposal F} :
    q ∈ keepOne A sort props ↔
      q ∈ List.retainNew Proposal.nodeID [] (sort.slice (proposalLess A) props) := by
  rw [List.mem_retainNew, and_iff_right List.not_mem_nil, keepOne, List.mem_filterMap]
  constructor
  · rintro ⟨p, hp, hq⟩
    have hid : q.nodeID = p.nodeID := by simpa using List.find?_some hq
    rwa [hid]
  · intro hq
    have hmem : q.nodeID ∈ props.map Proposal.nodeID :=
      List.mem_map_of_mem ((sort.perm _ _).mem_iff.mp (List.mem_of_find?_eq_some hq))
    obtain ⟨p, hp, hid⟩ := List.mem_map.mp
      (List.mem_map_retainNew.mpr ⟨List.not_mem_nil (a := q.nodeID), hmem⟩)
    exact ⟨p, hp, by rwa [hid]⟩

/-- **One proposal of each machine**, sorted, is what is first of it in the sorted round. -/
theorem slice_keepOne {sort : OrderedSlice} (hsort : sort.Local)
    (hfinite : ∀ p ∈ props, A.Finite p.score) :
    sort.slice (proposalLess A.toScoreArithmetic)
        (keepOne A.toScoreArithmetic sort.toSliceSort props) =
      List.retainNew Proposal.nodeID []
        (sort.slice (proposalLess A.toScoreArithmetic) props) := by
  have hsorted := slice_orderedPerm hsort hfinite
  have hnodup := nodup_keepOne A.toScoreArithmetic sort.toSliceSort props
  have hsub : (List.retainNew Proposal.nodeID []
      (sort.slice (proposalLess A.toScoreArithmetic) props)).Sublist
        (sort.slice (proposalLess A.toScoreArithmetic) props) := List.retainNew_sublist [] _
  have hkept : ∀ p ∈ keepOne A.toScoreArithmetic sort.toSliceSort props, A.Finite p.score :=
    fun p hp => hfinite p (hsorted.perm.mem_iff.mp (hsub.subset (mem_keepOne.mp hp)))
  have hself : (List.retainNew Proposal.nodeID []
      (sort.slice (proposalLess A.toScoreArithmetic) props)).OrderedPerm (rankLess A)
      (List.retainNew Proposal.nodeID []
        (sort.slice (proposalLess A.toScoreArithmetic) props)) :=
    ⟨List.Perm.refl _, hsorted.ordered.sublist hsub⟩
  refine (slice_orderedPerm hsort hkept).unique (fun p hp q hq hpq hqp => ?_) hself ?_
  · have hrank := le_antisymm (not_lt.mp (of_decide_eq_false hqp))
      (not_lt.mp (of_decide_eq_false hpq))
    exact List.inj_on_of_nodup_map hnodup hp hq (rank_eq_iff.mp hrank).2.2
  · rw [List.perm_ext_iff_of_nodup hnodup.of_map (List.nodup_map_retainNew [] _).of_map]
    exact fun q => mem_keepOne

/-- Where no machine has two proposals, all are kept. -/
theorem keepOne_of_nodup {A : ScoreArithmetic F} {sort : SliceSort}
    (hids : (props.map Proposal.nodeID).Nodup) : keepOne A sort props = props := by
  have hself {l : List (Proposal F)} (hl : (l.map Proposal.nodeID).Nodup) :
      List.retainNew Proposal.nodeID [] l = l := by
    obtain ⟨rest, hrest, hsub⟩ := List.retainNew_append [] hl fun p _ => List.not_mem_nil
    rwa [List.append_nil, List.sublist_nil.mp hsub, List.append_nil] at hrest
  have hids' : ((sort.slice (proposalLess A) props).map Proposal.nodeID).Nodup :=
    ((sort.perm _ _).map _).nodup_iff.mpr hids
  rw [keepOne, hself hids]
  refine (List.filterMap_congr fun p hp => ?_).trans List.filterMap_some
  have hmem : p ∈ List.retainNew Proposal.nodeID [] (sort.slice (proposalLess A) props) := by
    rw [hself hids']
    exact (sort.perm _ _).mem_iff.mpr hp
  exact (List.mem_retainNew.mp hmem).2

end Kept

/-! ## What counts -/

/-- In order, the positive scores are in front of the others. -/
theorem exists_scores_append {props : List (Proposal F)} (hfinite : ∀ p ∈ props, A.Finite p.score)
    (hordered : props.Pairwise fun p q => rankLess A q p = false)
    (hpos : ∃ p ∈ props, A.scores p = true) :
    ∃ l', props = props.filter A.scores ++ l' ∧ props.filter A.scores ≠ [] ∧
      (∀ p ∈ props.filter A.scores, A.scores p = true) ∧ ∀ p ∈ l', ¬ A.scores p = true := by
  obtain ⟨p, hp, hscore⟩ := hpos
  refine ⟨props.filter fun p => !A.scores p, (filter_append_filter_scores hfinite hordered).symm,
    List.ne_nil_of_mem (List.mem_filter.mpr ⟨hp, hscore⟩), fun q hq => (List.mem_filter.mp hq).2,
    fun q hq => ?_⟩
  simpa using (List.mem_filter.mp hq).2

/-- Where the first machines are distinct, they are the first of those that are kept. -/
theorem take_retainNew {props : List (Proposal F)} {n : ℕ}
    (hids : ((props.take n).map Proposal.nodeID).Nodup) :
    (List.retainNew Proposal.nodeID [] props).take n = props.take n := by
  obtain ⟨rest, hrest, hsub⟩ := List.retainNew_append (props.drop n) hids
    fun p _ => List.not_mem_nil
  rw [List.take_append_drop] at hrest
  rw [hrest]
  rcases le_total n props.length with hn | hn
  · exact List.take_left' (List.length_take_of_le hn)
  · rw [List.drop_of_length_le hn, List.sublist_nil] at hsub
    rw [hsub, List.append_nil, List.take_take, min_self]

/-- The greatest score is kept. -/
theorem exists_le_retainNew {props : List (Proposal F)}
    (hordered : props.Pairwise fun p q => rankLess A q p = false) :
    ∀ q ∈ props, ∃ q' ∈ List.retainNew Proposal.nodeID [] props,
      A.value q.score ≤ A.value q'.score := by
  intro q hq
  cases props with
  | nil => cases hq
  | cons p props =>
    refine ⟨p, ?_, value_le_head hordered q hq⟩
    rw [List.retainNew, if_neg List.not_mem_nil]
    exact List.mem_cons_self

section Counts

variable {total : ℤ} (htotal : 0 < total) {props : List (Proposal F)}

include htotal

/-- What is kept is tame. -/
theorem Tame.retainNew (htame : Tame A total props)
    (hordered : props.Pairwise fun p q => rankLess A q p = false) :
    Tame A total (List.retainNew Proposal.nodeID [] props) :=
  htame.sublist htotal (List.retainNew_sublist [] props) (exists_le_retainNew hordered)

/-- Without a positive score each proposal brings one replica, as long as there are any. -/
theorem assignReplicas_of_not_scores (sortStable : SliceSort)
    (hnone : ∀ p ∈ props, ¬ A.scores p = true) :
    assignReplicas A.toScoreArithmetic sortStable total props =
      some ((props.take total.toNat).foldl (fun assign p => assign.bump p.nodeID 1) ∅) := by
  have hsum : scoreSum A.toScoreArithmetic props = A.zero :=
    scoreSum_append (A := A) (l := []) hnone
  simp only [assignReplicas, if_neg (not_le.mpr htotal), hsum, A.zero_le, if_true]

section Positive

variable {sortStable : StableSlice} (hstable : sortStable.Local) (htame : Tame A total props)
  (hordered : props.Pairwise fun p q => rankLess A q p = false)
  (hpos : ∃ p ∈ props, A.scores p = true)

include hstable htame hordered hpos

/-- One machine alone with positive scores gets all. -/
theorem replicasOf_of_single {nodeID : String}
    (hsingle : ∀ p ∈ props, A.scores p = true → p.nodeID = nodeID) :
    (assignReplicas A.toScoreArithmetic sortStable.toSliceSort total props).map replicasOf =
      some fun id => if id = nodeID then total.toNat else 0 := by
  obtain ⟨l', hsplit, hne, hall, hrest⟩ := exists_scores_append htame.finite hordered hpos
  have hids : ∀ p ∈ props.filter A.scores, p.nodeID = nodeID := fun p hp =>
    hsingle p (List.mem_of_mem_filter hp) (hall p hp)
  generalize props.filter A.scores = l at hsplit hne hall hids
  subst hsplit
  have htame' := htame.of_append htotal hne hall hrest
  -- The others do not count, and those that do are of this machine.
  have hself : Tame A total (l ++ []) := by rwa [List.append_nil]
  have halone := assignReplicas_append hself htotal hne hall
    (fun _ hp => absurd hp List.not_mem_nil) hstable
  rw [List.append_nil] at halone
  obtain ⟨assign, hassign, hout⟩ := exists_assignReplicas (A := A.toScoreArithmetic)
    sortStable.toSliceSort htotal hne
  have hhanded : handedOut A.toScoreArithmetic total l = total.toNat := by
    obtain ⟨p, hp⟩ := List.exists_mem_of_ne_nil l hne
    obtain ⟨-, hhigh⟩ := htame'.floorTotal_bounds htotal hne hall
    rw [handedOut_of_pos ⟨p, hp, hall p hp⟩, max_eq_left (by omega)]
  rw [hhanded] at hout
  rw [assignReplicas_append htame htotal hne hall hrest hstable, ← halone, hassign,
    Option.map_some, hout.replicasOf_single fun id hid => ?_]
  obtain ⟨q, hq, rfl⟩ := List.mem_map.mp hid
  exact hids q hq

/-- Where the machines with positive scores are distinct, their proposals are kept, and the others
do not count. -/
theorem assignReplicas_retainNew_of_nodup
    (hids : ((props.filter A.scores).map Proposal.nodeID).Nodup) :
    assignReplicas A.toScoreArithmetic sortStable.toSliceSort total props =
      assignReplicas A.toScoreArithmetic sortStable.toSliceSort total
        (List.retainNew Proposal.nodeID [] props) := by
  have htame' := htame.retainNew htotal hordered
  obtain ⟨l', hsplit, hne, hall, hrest⟩ := exists_scores_append htame.finite hordered hpos
  generalize props.filter A.scores = l at hids hsplit hne hall
  subst hsplit
  obtain ⟨rest, hkept, hsub⟩ := List.retainNew_append l' hids fun p _ => List.not_mem_nil
  rw [hkept] at htame' ⊢
  rw [assignReplicas_append htame htotal hne hall hrest hstable,
    assignReplicas_append htame' htotal hne hall (fun p hp => hrest p (hsub.subset hp)) hstable]

end Positive

/-- **What counts once** is assigned as if it were kept alone. -/
theorem assignReplicas_retainNew {sortStable : StableSlice} (hstable : sortStable.Local)
    (hordered : props.Pairwise fun p q => rankLess A q p = false)
    (hcounts : if ∃ p ∈ props, A.scores p = true then
      Tame A total props ∧ (((props.filter A.scores).map Proposal.nodeID).Nodup ∨
        ∃ nodeID, ∀ p ∈ props, A.scores p = true → p.nodeID = nodeID)
      else ((props.take total.toNat).map Proposal.nodeID).Nodup) :
    (assignReplicas A.toScoreArithmetic sortStable.toSliceSort total props).map replicasOf =
      (assignReplicas A.toScoreArithmetic sortStable.toSliceSort total
        (List.retainNew Proposal.nodeID [] props)).map replicasOf := by
  have hsub : (List.retainNew Proposal.nodeID [] props).Sublist props :=
    List.retainNew_sublist [] props
  split_ifs at hcounts with hpos
  · obtain ⟨htame, hids | ⟨nodeID, hsingle⟩⟩ := hcounts
    · rw [assignReplicas_retainNew_of_nodup htotal hstable htame hordered hpos hids]
    · have htame' := htame.retainNew htotal hordered
      have hpos' : ∃ p ∈ List.retainNew Proposal.nodeID [] props, A.scores p = true := by
        obtain ⟨p, hp, hscore⟩ := hpos
        obtain ⟨q, hq, hle⟩ := exists_le_retainNew hordered p hp
        rw [A.scores_iff (htame.finite p hp)] at hscore
        exact ⟨q, hq, (A.scores_iff (htame'.finite q hq)).mpr (hscore.trans_le hle)⟩
      rw [replicasOf_of_single htotal hstable htame hordered hpos hsingle,
        replicasOf_of_single htotal hstable htame' (hordered.sublist hsub) hpos'
          fun p hp => hsingle p (hsub.subset hp)]
  · have hnone : ∀ p ∈ props, ¬ A.scores p = true := fun p hp hscore => hpos ⟨p, hp, hscore⟩
    rw [assignReplicas_of_not_scores htotal _ hnone,
      assignReplicas_of_not_scores htotal _ fun p hp => hnone p (hsub.subset hp),
      take_retainNew hcounts]

/-- Without a positive score, what is assigned as if it were kept alone counts once. -/
theorem nodup_take_of_assignReplicas_retainNew (sortStable : SliceSort)
    (hnone : ∀ p ∈ props, ¬ A.scores p = true)
    (hsame : (assignReplicas A.toScoreArithmetic sortStable total props).map replicasOf =
      (assignReplicas A.toScoreArithmetic sortStable total
        (List.retainNew Proposal.nodeID [] props)).map replicasOf) :
    ((props.take total.toNat).map Proposal.nodeID).Nodup := by
  have hsub : (List.retainNew Proposal.nodeID [] props).Sublist props :=
    List.retainNew_sublist [] props
  rw [assignReplicas_of_not_scores htotal _ hnone,
    assignReplicas_of_not_scores htotal _ fun p hp => hnone p (hsub.subset hp), Option.map_some,
    Option.map_some, Option.some.injEq] at hsame
  rw [List.nodup_iff_count_le_one]
  intro nodeID
  -- Of those that are kept none comes twice.
  have hcount := congrFun hsame nodeID
  rw [replicasOf_foldl_bump, replicasOf_foldl_bump, Nat.add_left_cancel_iff] at hcount
  have hnodup := ((List.take_sublist total.toNat _).map Proposal.nodeID).nodup
    (List.nodup_map_retainNew [] props)
  rw [hcount]
  exact List.nodup_iff_count_le_one.mp hnodup nodeID

end Counts

/-! ## The shares of a round -/

theorem Task.wanted_pos (task : Task) : 0 < task.wanted := by
  rw [Task.wanted]
  split_ifs with hreplicas
  · exact one_pos
  · exact not_le.mp hreplicas

/-- **One share for each machine**, where none has two proposals that count. Without a positive
score the first ones count, and then this is needed. -/
theorem oneShare_of_countsOnce {M : Type} (A : Float64 F) (sort : OrderedSlice)
    (sortStable : StableSlice) (hsort : sort.Local) (hstable : sortStable.Local)
    (opt : Options F M) (task : Task) (received : List (Proposal F)) :
    let props := sort.slice (proposalLess A.toScoreArithmetic)
      (roundProposals opt task.taskID received)
    (CountsOnce A task.wanted props → OneShare A.toScoreArithmetic sort.toSliceSort
      sortStable.toSliceSort opt task received) ∧
    ((∀ p ∈ props, A.Finite p.score ∧ ¬ A.scores p = true) →
      OneShare A.toScoreArithmetic sort.toSliceSort sortStable.toSliceSort opt task received →
        CountsOnce A task.wanted props) := by
  intro props
  have hperm := sort.perm (proposalLess A.toScoreArithmetic)
    (roundProposals opt task.taskID received)
  constructor
  · rintro (hids | ⟨hfinite, hcounts⟩)
    · rw [OneShare, roundAssignment, keepOne_of_nodup ((hperm.map _).nodup_iff.mp hids)]
    · have hfinite' := fun p hp => hfinite p (hperm.mem_iff.mpr hp)
      have hordered := (slice_orderedPerm hsort hfinite').ordered
      rw [OneShare, roundAssignment, slice_keepOne hsort hfinite']
      exact assignReplicas_retainNew task.wanted_pos hstable hordered hcounts
  · intro hnone hone
    have hfinite' := fun p hp => (hnone p (hperm.mem_iff.mpr hp)).1
    rw [OneShare, roundAssignment, slice_keepOne hsort hfinite'] at hone
    refine .inr ⟨fun p hp => (hnone p hp).1, ?_⟩
    rw [if_neg fun ⟨p, hp, hscore⟩ => (hnone p hp).2 hscore]
    exact nodup_take_of_assignReplicas_retainNew task.wanted_pos _ (fun p hp => (hnone p hp).2) hone

def twoPods : Task := { taskID := "t", replicas := 2 }

/-- A proposal for the task with this score. -/
def offering (nodeID : String) (score : ℤ) : Proposal Binary64 := ⟨"t", nodeID, .ofInt score, 0⟩

/-- A machine whose own score is one. -/
def scoredOne (nodeID : String) : Options Binary64 Unit := ⟨nodeID, (), fun _ => .ofInt 1, 0⟩

/-- A machine that sends its proposal twice has one share, where its score is zero. -/
theorem oneShare_once :
    OneShare float64.toScoreArithmetic insertionSlice insertionSlice (scoredOne "b") twoPods
      [offering "a" 0, offering "a" 0] := by
  refine (oneShare_of_countsOnce float64 insertionStable.toOrderedSlice insertionStable
    insertionSlice_local insertionSlice_local (scoredOne "b") twoPods
      [offering "a" 0, offering "a" 0]).1 ?_
  have hround : roundProposals (scoredOne "b") "t" [offering "a" 0, offering "a" 0] =
      [offering "a" 0, offering "a" 0, (scoredOne "b").selfProposal "t"] := rfl
  have hscores : ∀ p ∈ insertionSlice.slice (proposalLess float64.toScoreArithmetic)
      (roundProposals (scoredOne "b") "t" [offering "a" 0, offering "a" 0]),
      ∃ n : ℤ, 0 ≤ n ∧ n ≤ 1 ∧ p.score = .ofInt n := by
    intro p hp
    rw [(insertionSlice.perm _ _).mem_iff, hround, List.mem_cons, List.mem_pair] at hp
    rcases hp with rfl | rfl | rfl
    · exact ⟨0, le_rfl, zero_le_one, rfl⟩
    · exact ⟨0, le_rfl, zero_le_one, rfl⟩
    · exact ⟨1, zero_le_one, le_rfl, rfl⟩
  have hvalues {n : ℤ} (hlow : 0 ≤ n) (hhigh : n ≤ 1) :
      float64.Finite (.ofInt n) ∧ float64.value (.ofInt n) = n :=
    float64.ofInt_exact (by rw [abs_of_nonneg hlow]; omega)
  have hfinite : ∀ p ∈ insertionSlice.slice (proposalLess float64.toScoreArithmetic)
      (roundProposals (scoredOne "b") "t" [offering "a" 0, offering "a" 0]),
      float64.Finite p.score := by
    intro p hp
    obtain ⟨n, hlow, hhigh, hscore⟩ := hscores p hp
    exact hscore ▸ (hvalues hlow hhigh).1
  refine .inr ⟨hfinite, ?_⟩
  rw [if_pos (by decide +kernel)]
  refine ⟨Tame.of_nonneg (by decide) hfinite (fun p hp => ?_) (by decide +kernel), .inl ?_⟩
  · obtain ⟨n, hlow, hhigh, hscore⟩ := hscores p hp
    rw [hscore, (hvalues hlow hhigh).2]
    exact ⟨by exact_mod_cast hlow, (Int.cast_le.mpr hhigh).trans (by norm_num)⟩
  · decide +kernel

/-- **A machine with two shares**: it sends its proposal twice, and gets both replicas, where it
would get one. -/
theorem two_shares :
    ¬ ∀ (sort : OrderedSlice) (sortStable : StableSlice) (opt : Options Binary64 Unit)
      (task : Task) (received : List (Proposal Binary64)),
      OneShare float64.toScoreArithmetic sort.toSliceSort sortStable.toSliceSort opt task
        received := by
  intro h
  have hone := h insertionStable.toOrderedSlice insertionStable (scoredOne "b") twoPods
      [offering "a" 1, offering "a" 1]
  have hshare := congrArg (Option.map fun replicas => replicas "a") hone
  rw [Option.map_map, Option.map_map] at hshare
  exact absurd hshare (by decide +kernel)

end Beemesh.Workplane

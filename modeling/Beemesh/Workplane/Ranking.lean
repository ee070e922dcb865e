import Beemesh.Lib.Sorting
import Beemesh.Workplane.Scheduler
import Mathlib.Data.Prod.Lex
import Mathlib.Order.Lex

/-!
# The ranking of proposals

The proposals of a round are sorted by `sort.Slice`, and what their shares lose by rounding by
`sort.SliceStable`. Here the two do what their documentation says, given a comparison that is a
strict weak order; with exact scores both comparisons of a round are.

## Main definitions

* `OrderedSlice`, `StableSlice`: `sort.Slice` and `sort.SliceStable`, as they are documented
* `SliceSort.Local`: a sort that compares members of the list only
* `Proposal.rank`: what proposals are compared by
* `insertionStable`: a sort that is both

## Main results

* `proposalLess_iff`: proposals are compared by their ranks
* `OrderedSlice.slice_eq_of_perm`: one round sorts its proposals in one way
* `StableSlice.slice_eq`: so does every stable sort
-/

namespace Beemesh.Workplane

/-- `sort.Slice`: a strict weak order puts the list in order. -/
structure OrderedSlice extends SliceSort where
  ordered : ∀ {α : Type} (less : α → α → Bool) [IsStrictWeakOrder α (less · ·)] (l : List α),
    (slice less l).Pairwise fun a b => less b a = false

/-- `sort.SliceStable`: it also leaves what is in order as it stands. -/
structure StableSlice extends OrderedSlice where
  stable : ∀ {α : Type} (less : α → α → Bool) [IsStrictWeakOrder α (less · ·)] (l c : List α),
    c.Sublist l → c.Pairwise (fun a b => less b a = false) → c.Sublist (slice less l)

/-- The sort compares members of the list only. -/
def SliceSort.Local (sort : SliceSort) : Prop :=
  ∀ {α : Type} {less less' : α → α → Bool} {l : List α},
    (∀ a ∈ l, ∀ b ∈ l, less a b = less' a b) → sort.slice less l = sort.slice less' l

section Slices

variable {α : Type} {less : α → α → Bool} [IsStrictWeakOrder α (less · ·)]

theorem OrderedSlice.orderedPerm (sort : OrderedSlice) (l : List α) :
    l.OrderedPerm less (sort.slice less l) where
  perm := sort.perm less l
  ordered := sort.ordered less l

theorem StableSlice.stablePerm (sort : StableSlice) (l : List α) :
    l.StablePerm less (sort.slice less l) where
  perm := sort.perm less l
  ordered := sort.ordered less l
  stable := sort.stable less l

end Slices

/-! ## Comparisons of exact scores -/

/-- What proposals are compared by: the greater score comes first, then the older proposal, then
the machine. -/
def Proposal.rank (p : Proposal ℚ) : ℚᵒᵈ ×ₗ ℤ ×ₗ String :=
  toLex (OrderDual.toDual p.score, toLex (p.timestamp, p.nodeID))

/-- **Proposals are compared by their ranks.** -/
theorem proposalLess_iff {p q : Proposal ℚ} :
    proposalLess exactScores p q = true ↔ p.rank < q.rank := by
  rw [Proposal.rank, Proposal.rank, Prod.Lex.toLex_lt_toLex, Prod.Lex.toLex_lt_toLex,
    OrderDual.toDual_lt_toDual, OrderDual.toDual_inj]
  unfold proposalLess
  -- Equal scores are compared by time, and equal times by machine.
  by_cases hscore : p.score = q.score
  · rw [if_neg (by simp [exactScores, hscore]), or_iff_right fun h => h.ne' hscore,
      and_iff_right hscore]
    by_cases htime : p.timestamp = q.timestamp
    · simp [htime]
    · simp [htime]
  · rw [if_pos (by simpa [exactScores] using hscore), or_iff_left fun h => hscore h.1]
    simp [exactScores]

theorem proposalLess_eq_false_iff {p q : Proposal ℚ} :
    proposalLess exactScores p q = false ↔ q.rank ≤ p.rank := by
  rw [← not_lt, ← proposalLess_iff, Bool.not_eq_true]

instance isStrictWeakOrder_proposalLess :
    IsStrictWeakOrder (Proposal ℚ) (proposalLess exactScores · ·) :=
  List.isStrictWeakOrder_of_key Proposal.rank fun _ _ => proposalLess_iff

/-- Of two remainders the one that lost more comes first. -/
def lossMore {F : Type} (A : ScoreArithmetic F) (r r' : Remainder F) : Bool := A.lt r'.frac r.frac

instance isStrictWeakOrder_lossMore :
    IsStrictWeakOrder (Remainder ℚ) (lossMore exactScores · ·) :=
  List.isStrictWeakOrder_of_key (fun r => OrderDual.toDual r.frac) fun _ _ => decide_eq_true_iff

theorem lossMore_eq_false_iff {r r' : Remainder ℚ} :
    lossMore exactScores r r' = false ↔ r.frac ≤ r'.frac := by
  rw [lossMore, exactScores, decide_eq_false_iff_not, not_lt]

/-! ## What a round sorts -/

/-- Proposals of one rank have the same score, time and machine. -/
theorem rank_eq_iff {p q : Proposal ℚ} :
    p.rank = q.rank ↔ p.score = q.score ∧ p.timestamp = q.timestamp ∧ p.nodeID = q.nodeID := by
  rw [Proposal.rank, Proposal.rank, toLex_inj, Prod.mk.injEq, OrderDual.toDual_inj, toLex_inj,
    Prod.mk.injEq]

/-- **One round sorts its proposals in one way**, in whatever order they came, if no two have the
same rank. -/
theorem OrderedSlice.slice_eq_of_perm (sort sort' : OrderedSlice) {l l' : List (Proposal ℚ)}
    (hranks : ∀ p ∈ l, ∀ q ∈ l, p.rank = q.rank → p = q) (hl : l.Perm l') :
    sort.slice (proposalLess exactScores) l = sort'.slice (proposalLess exactScores) l' := by
  refine (sort.orderedPerm l).unique ?_ (sort'.orderedPerm l') hl
  intro p hp q hq hpq hqp
  rw [proposalLess_eq_false_iff] at hpq hqp
  exact hranks p hp q hq (le_antisymm hqp hpq)

/-- **Every stable sort** puts the remainders in one order. -/
theorem StableSlice.slice_eq (sort sort' : StableSlice) (l : List (Remainder ℚ)) :
    sort.slice (lossMore exactScores) l = sort'.slice (lossMore exactScores) l :=
  (sort.stablePerm l).unique (sort'.stablePerm l)

/-- Sorting by insertion is stable. -/
def insertionStable : StableSlice where
  toSliceSort := insertionSlice
  ordered _ _ l := (List.stablePerm_insertionSort l).ordered
  stable _ _ l := (List.stablePerm_insertionSort l).stable

theorem insertionSlice_local : insertionSlice.Local := by
  intro α less less' l h
  exact List.insertionSort_congr fun a ha b hb => by rw [h b hb a ha]

end Beemesh.Workplane

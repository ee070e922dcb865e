import Mathlib.Data.List.Nodup
import Mathlib.Data.List.Pairwise
import Mathlib.Order.Lattice

/-!
# Stable sorting

A merge sort by a comparison that is total and transitive on the members of a list puts them in
order, and leaves two members that compare equal both ways as they stood. What comes to the front of
it is what a selection of the least takes.

## Main results

* `List.pairwise_mergeSort_of_mem`: a sort by a comparison of the members puts them in order
* `List.pairwise_mergeSort_stable`: members that compare equal both ways stay in order
* `List.Pairwise.rel_of_mem_take`: what an ordered list has in front comes before the rest of it
* `List.Pairwise.filter_append_filter`: a test that what stands in front passes
* `List.Pairwise.forall_mem_take_iff`: when all in front of a list reach a value
-/

namespace List

variable {α : Type*} {le : α → α → Bool} {l : List α}

/-- A comparison orders the members of a list. -/
structure OrderedBy (le : α → α → Bool) (l : List α) : Prop where
  trans : ∀ a ∈ l, ∀ b ∈ l, ∀ c ∈ l, le a b → le b c → le a c
  total : ∀ a ∈ l, ∀ b ∈ l, le a b || le b a

/-- The sort of a list is that of its members, with their membership. -/
theorem mergeSort_eq_attach (le : α → α → Bool) (l : List α) :
    l.mergeSort le = (l.attach.mergeSort fun a b => le a.1 b.1).map Subtype.val := by
  rw [map_mergeSort (s := le) fun a _ b _ => rfl, attach_map_subtype_val]

/-- **A sort puts the members in order.** -/
theorem pairwise_mergeSort_of_mem (h : OrderedBy le l) :
    (l.mergeSort le).Pairwise fun a b => le a b = true := by
  rw [mergeSort_eq_attach, pairwise_map]
  refine pairwise_mergeSort ?_ ?_ l.attach
  · intro a b c
    exact h.trans a.1 a.2 b.1 b.2 c.1 c.2
  · intro a b
    exact h.total a.1 a.2 b.1 b.2

/-- Two members that stand in order are not exchanged. -/
theorem pair_sublist_mergeSort_of_mem (h : OrderedBy le l) {a b : α} (hab : le a b)
    (hsub : [a, b] <+ l) : [a, b] <+ l.mergeSort le := by
  have ha : a ∈ l := hsub.subset mem_cons_self
  have hb : b ∈ l := hsub.subset (mem_cons_of_mem a mem_cons_self)
  rw [← attach_map_subtype_val l] at hsub
  obtain ⟨pair, hpair, heq⟩ := sublist_map_iff.mp hsub
  have hsorted : pair <+ l.attach.mergeSort fun a b => le a.1 b.1 := by
    refine sublist_mergeSort ?_ ?_ ?_ hpair
    · intro a b c
      exact h.trans a.1 a.2 b.1 b.2 c.1 c.2
    · intro a b
      exact h.total a.1 a.2 b.1 b.2
    · have hpairwise : (pair.map Subtype.val).Pairwise fun a b => le a b = true := by
        rw [← heq]
        exact pairwise_pair.mpr hab
      exact pairwise_map.mp hpairwise
  rw [mergeSort_eq_attach, heq]
  exact hsorted.map _

/-- Of two members of a list one stands before the other. -/
theorem pair_sublist_or {a b : α} (ha : a ∈ l) (hb : b ∈ l) (hne : a ≠ b) :
    [a, b] <+ l ∨ [b, a] <+ l := by
  have hpairwise : l.Pairwise fun a b => [a, b] <+ l ∨ [b, a] <+ l :=
    pairwise_iff_forall_sublist.mpr .inl
  have : Std.Symm fun a b => [a, b] <+ l ∨ [b, a] <+ l := ⟨fun _ _ => Or.symm⟩
  exact hpairwise.forall ha hb hne

/-- In a list without repetition only one of the two does. -/
theorem Nodup.pair_sublist_asymm {a b : α} (hl : l.Nodup) (hab : [a, b] <+ l) :
    ¬ [b, a] <+ l := by
  intro hba
  induction l with
  | nil => exact nomatch hab
  | cons c l ih =>
    obtain ⟨hc, hl⟩ := nodup_cons.mp hl
    -- The member that stands first in one of the pairs stands later in the other.
    rcases sublist_cons_iff.mp hab with hab | ⟨tail, heq, htail⟩
    · rcases sublist_cons_iff.mp hba with hba | ⟨tail, heq, -⟩
      · exact ih hl hab hba
      · have hb : b ∈ l := hab.subset (mem_cons_of_mem a mem_cons_self)
        exact hc ((cons.inj heq).1 ▸ hb)
    · obtain ⟨rfl, rfl⟩ := cons.inj heq
      rcases sublist_cons_iff.mp hba with hba | ⟨tail, heq, -⟩
      · exact hc (hba.subset (mem_cons_of_mem b mem_cons_self))
      · exact hc ((cons.inj heq).1 ▸ htail.subset mem_cons_self)

/-- **A sort is stable**: in a list that `r` orders strictly, members that compare equal both ways
stay in the order of `r`. -/
theorem pairwise_mergeSort_stable (h : OrderedBy le l) {r : α → α → Prop} (hr : l.Pairwise r)
    (hirrefl : ∀ a, ¬ r a a) :
    (l.mergeSort le).Pairwise fun a b => le a b = true ∧ (le b a = true → r a b) := by
  have hnodup : l.Nodup := by
    refine hr.imp ?_
    rintro a b hab rfl
    exact hirrefl a hab
  have hsorted : (l.mergeSort le).Nodup := (mergeSort_perm l le).nodup_iff.mpr hnodup
  rw [pairwise_iff_forall_sublist] at hr ⊢
  intro a b hab
  have hle : le a b = true := pairwise_iff_forall_sublist.mp (pairwise_mergeSort_of_mem h) hab
  refine ⟨hle, fun hba => hr ?_⟩
  have hne : a ≠ b := by
    rintro rfl
    exact absurd (hab.nodup hsorted) (by simp)
  have ha : a ∈ l := mem_mergeSort.mp (hab.subset mem_cons_self)
  have hb : b ∈ l := mem_mergeSort.mp (hab.subset (mem_cons_of_mem a mem_cons_self))
  -- Were `b` before `a` in the list, it would still be.
  refine (pair_sublist_or ha hb hne).resolve_right fun hsub => ?_
  exact hsorted.pair_sublist_asymm hab (pair_sublist_mergeSort_of_mem h hba hsub)

/-- What a list that `r` orders has in front comes before what it does not have there. -/
theorem Pairwise.rel_of_mem_take {r : α → α → Prop} (hl : l.Pairwise r) {k : ℕ} {a b : α}
    (ha : a ∈ l.take k) (hb : b ∈ l) (hnot : b ∉ l.take k) : r a b := by
  rw [← take_append_drop k l] at hl hb
  exact (pairwise_append.mp hl).2.2 a ha b ((mem_append.mp hb).resolve_left hnot)

/-- Where what passes a test stands in front, the list is what passes it and what does not. -/
theorem Pairwise.filter_append_filter {p : α → Bool}
    (hl : l.Pairwise fun a b => p b = true → p a = true) :
    l.filter p ++ l.filter (fun a => !p a) = l := by
  induction l with
  | nil => rfl
  | cons a l ih =>
    obtain ⟨ha, hl⟩ := pairwise_cons.mp hl
    by_cases hp : p a = true
    · rw [filter_cons_of_pos hp, filter_cons_of_neg (by simpa using hp), cons_append, ih hl]
    · have hnone : l.filter p = [] := filter_eq_nil_iff.mpr fun b hb h => hp (ha b hb h)
      have hrest := ih hl
      rw [hnone, nil_append] at hrest
      rw [filter_cons_of_neg hp, filter_cons_of_pos (by simpa using hp), hnone, nil_append, hrest]

/-- **All in front of a descending list reach a value** if enough of its members do. -/
theorem Pairwise.forall_mem_take_iff {β : Type*} [LinearOrder β] {f : α → β}
    (hl : l.Pairwise fun a b => f b ≤ f a) {k : ℕ} {v : β} :
    (∀ a ∈ l.take k, v ≤ f a) ↔ min k l.length ≤ l.countP fun a => v ≤ f a := by
  constructor
  · intro h
    calc min k l.length = (l.take k).countP fun a => v ≤ f a := by
          rw [countP_eq_length.mpr fun a ha => decide_eq_true (h a ha), length_take]
      _ ≤ l.countP fun a => v ≤ f a := (take_sublist k l).countP_le
  · intro hcount
    by_contra hnot
    push Not at hnot
    obtain ⟨a, ha, hlt⟩ := hnot
    -- Behind one that does not reach it none does, so that they are too few.
    have hrest : (l.drop k).countP (fun a => v ≤ f a) = 0 := by
      rw [countP_eq_zero]
      intro b hb
      rw [← take_append_drop k l] at hl
      simpa using ((pairwise_append.mp hl).2.2 a ha b hb).trans_lt hlt
    have hfront : (l.take k).countP (fun a => v ≤ f a) < (l.take k).length := by
      refine lt_of_le_of_ne countP_le_length fun heq => ?_
      exact absurd hlt (not_lt.mpr (by simpa using countP_eq_length.mp heq a ha))
    rw [← take_append_drop k l, countP_append, hrest, take_append_drop] at hcount
    rw [length_take] at hfront
    exact absurd hcount (not_le.mpr hfront)

end List

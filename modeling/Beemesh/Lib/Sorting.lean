import Mathlib.Data.List.Sort
import Mathlib.Order.RelClasses

/-!
# What a sort returns

A sort is given a comparison that is a strict weak order, and returns a list of the same members in
which none stands behind one that it is less than. A stable sort leaves members that are not to be
exchanged as they stand. What an unstable sort returns is determined only where members that tie
are equal; what a stable one returns always is.

## Main definitions

* `List.OrderedPerm less l s`: `s` is `l`, in order
* `List.StablePerm less l s`: `s` is `l`, in order, with ties as they stand in `l`

## Main results

* `List.isStrictWeakOrder_of_key`: values in a linear order are compared by a strict weak order
* `List.OrderedPerm.unique`: a list without ties is ordered in one way, however it starts
* `List.StablePerm.unique`: a list is ordered stably in one way
* `List.StablePerm.head?_cons`: a head that nothing is less than stays in front
* `List.StablePerm.append`: lists that are in order one behind the other
* `List.stablePerm_insertionSort`: sorting by insertion is stable
-/

namespace List

variable {α : Type*} {less : α → α → Bool} {l l' s s' : List α}

/-- `s` has the members of `l`, none of them behind one that it is less than. -/
structure OrderedPerm (less : α → α → Bool) (l s : List α) : Prop where
  perm : s ~ l
  ordered : s.Pairwise fun a b => less b a = false

/-- What is in order in `l` is in order in `s`. -/
structure StablePerm (less : α → α → Bool) (l s : List α) : Prop extends OrderedPerm less l s where
  stable : ∀ c, c <+ l → c.Pairwise (fun a b => less b a = false) → c <+ s

/-- A comparison of values in a linear order is a strict weak order. -/
theorem isStrictWeakOrder_of_key {β : Type*} [LinearOrder β] (f : α → β)
    (hless : ∀ a b, less a b = true ↔ f a < f b) : IsStrictWeakOrder α (less · ·) where
  irrefl a := by rw [hless]; exact lt_irrefl (f a)
  trans a b c := by
    rw [hless, hless, hless]
    exact lt_trans
  incomp_trans a b c := by
    simp only [hless, not_lt]
    rintro ⟨hba, hab⟩ ⟨hcb, hbc⟩
    exact ⟨hcb.trans hba, hab.trans hbc⟩

/-- **A list without ties** is ordered in one way, and so is a list of the same members. -/
theorem OrderedPerm.unique (hties : ∀ a ∈ l, ∀ b ∈ l, less a b = false → less b a = false → a = b)
    (h : OrderedPerm less l s) (h' : OrderedPerm less l' s') (hl : l ~ l') : s = s' := by
  have hs' : s' ~ l := h'.perm.trans hl.symm
  refine Perm.eq_of_pairwise ?_ h.ordered h'.ordered (h.perm.trans hs'.symm)
  intro a b ha hb hab hba
  exact hties a (h.perm.mem_iff.mp ha) b (hs'.mem_iff.mp hb) hba hab

/-- Neither is less than the other. -/
def tied (less : α → α → Bool) (a b : α) : Bool := !less a b && !less b a

theorem tied_iff {a b : α} : tied less a b = true ↔ less a b = false ∧ less b a = false := by
  simp [tied]

namespace StablePerm

section Ties

variable [IsStrictWeakOrder α (less · ·)]

theorem tied_self (a : α) : tied less a a = true := by
  have hirrefl : ¬ less a a = true := irrefl_of (less · ·) a
  simp [tied, hirrefl]

/-- Members that tie with one do not exceed one another. -/
theorem not_less_of_tied {a b c : α} (hb : tied less a b = true) (hc : tied less a c = true) :
    less c b = false := by
  rw [tied_iff] at hb hc
  have htie := @IsStrictWeakOrder.incomp_trans α (less · ·) _ c a b
    ⟨by simp [hc.2], by simp [hc.1]⟩ ⟨by simp [hb.1], by simp [hb.2]⟩
  simpa using htie.1

/-- The members that tie with one stand as in the list. -/
theorem filter_tied (h : StablePerm less l s) (a : α) :
    s.filter (tied less a) = l.filter (tied less a) := by
  have hties : (l.filter (tied less a)).Pairwise fun b c => less c b = false :=
    pairwise_of_forall_mem_list fun b hb c hc =>
      not_less_of_tied (mem_filter.mp hb).2 (mem_filter.mp hc).2
  have hsub := (h.stable _ filter_sublist hties).filter (tied less a)
  simp only [filter_filter, Bool.and_self] at hsub
  exact (hsub.eq_of_length (h.perm.filter _).length_eq.symm).symm

theorem not_less_self (a : α) : less a a = false := (tied_iff.mp (tied_self a)).1

/-- Nothing in a list that is in order is less than its head. -/
theorem not_less_head {a b : α} {t : List α} (h : (b :: t).Pairwise fun a b => less b a = false)
    (ha : a ∈ b :: t) : less a b = false := by
  rcases mem_cons.mp ha with rfl | ha
  · exact not_less_self a
  · exact rel_of_pairwise_cons h ha

/-- Lists that are in order, with the same ties, begin alike. -/
theorem head_eq {a b : α} {t t' : List α} (h : (a :: t).Pairwise fun a b => less b a = false)
    (h' : (b :: t').Pairwise fun a b => less b a = false) (hperm : a :: t ~ b :: t')
    (hties : ∀ c, (a :: t).filter (tied less c) = (b :: t').filter (tied less c)) : a = b := by
  have hab : less a b = false := not_less_head h' (hperm.mem_iff.mp mem_cons_self)
  have hba : less b a = false := not_less_head h (hperm.mem_iff.mpr mem_cons_self)
  -- Both are the first that tie with `a`.
  have hfirst := hties a
  rw [filter_cons_of_pos (tied_self a), filter_cons_of_pos (tied_iff.mpr ⟨hab, hba⟩)] at hfirst
  exact (cons.inj hfirst).1

theorem eq_of_filter_tied (h : s.Pairwise fun a b => less b a = false)
    (h' : s'.Pairwise fun a b => less b a = false) (hperm : s ~ s')
    (hties : ∀ a, s.filter (tied less a) = s'.filter (tied less a)) : s = s' := by
  induction s generalizing s' with
  | nil => exact (nil_perm.mp hperm).symm
  | cons a t ih =>
    cases s' with
    | nil => exact perm_nil.mp hperm
    | cons b t' =>
      obtain rfl := head_eq h h' hperm hties
      refine congrArg (a :: ·) (ih h.of_cons h'.of_cons hperm.cons_inv fun c => ?_)
      have hc := hties c
      simp only [filter_cons] at hc
      split_ifs at hc
      · exact (cons.inj hc).2
      · exact hc

/-- **A list is ordered stably in one way.** -/
theorem unique (h : StablePerm less l s) (h' : StablePerm less l s') : s = s' :=
  eq_of_filter_tied h.ordered h'.ordered (h.perm.trans h'.perm.symm) fun a =>
    (h.filter_tied a).trans (h'.filter_tied a).symm

/-- **A head that nothing is less than** stays in front. -/
theorem head?_cons {a : α} (h : StablePerm less (a :: l) s) (ha : ∀ b ∈ l, less b a = false) :
    s.head? = some a := by
  have hs : a ∈ s := h.perm.mem_iff.mpr mem_cons_self
  cases s with
  | nil => cases hs
  | cons b t =>
    have hab : less a b = false := not_less_head h.ordered hs
    have hba : less b a = false := by
      rcases mem_cons.mp (h.perm.mem_iff.mp mem_cons_self) with rfl | hb
      · exact not_less_self b
      · exact ha b hb
    have hfirst := h.filter_tied a
    rw [filter_cons_of_pos (tied_iff.mpr ⟨hab, hba⟩), filter_cons_of_pos (tied_self a)] at hfirst
    exact congrArg some (cons.inj hfirst).1

end Ties

end StablePerm

/-- **Lists one behind the other**, of which nothing in the second is less than anything in the
first, are ordered each by itself. -/
theorem StablePerm.append (h : StablePerm less l s) (h' : StablePerm less l' s')
    (hle : ∀ a ∈ l, ∀ b ∈ l', less b a = false) : StablePerm less (l ++ l') (s ++ s') where
  perm := h.perm.append h'.perm
  ordered := by
    refine pairwise_append.mpr ⟨h.ordered, h'.ordered, fun a ha b hb => ?_⟩
    exact hle a (h.perm.mem_iff.mp ha) b (h'.perm.mem_iff.mp hb)
  stable c hc hpairwise := by
    obtain ⟨c₁, c₂, rfl, hc₁, hc₂⟩ := sublist_append_iff.mp hc
    obtain ⟨h₁, h₂, -⟩ := pairwise_append.mp hpairwise
    exact (h.stable c₁ hc₁ h₁).append (h'.stable c₂ hc₂ h₂)

/-! ## Insertion -/

section Congr

variable {r r' : α → α → Prop} [DecidableRel r] [DecidableRel r']

theorem orderedInsert_congr {a : α} (h : ∀ b ∈ l, r a b ↔ r' a b) :
    l.orderedInsert r a = l.orderedInsert r' a := by
  induction l with
  | nil => rfl
  | cons b l ih =>
    rw [orderedInsert, orderedInsert, ih fun c hc => h c (mem_cons_of_mem b hc)]
    exact if_congr (h b mem_cons_self) rfl rfl

/-- Sorting by insertion looks at members of the list only. -/
theorem insertionSort_congr (h : ∀ a ∈ l, ∀ b ∈ l, r a b ↔ r' a b) :
    l.insertionSort r = l.insertionSort r' := by
  induction l with
  | nil => rfl
  | cons a l ih =>
    rw [insertionSort_cons, insertionSort_cons,
      ih fun b hb c hc => h b (mem_cons_of_mem a hb) c (mem_cons_of_mem a hc)]
    refine orderedInsert_congr fun b hb => h a mem_cons_self b (mem_cons_of_mem a ?_)
    exact (perm_insertionSort r' l).mem_iff.mp hb

end Congr

section Insertion

variable [IsStrictWeakOrder α (less · ·)]

instance total_notLess : Std.Total fun a b => less b a = false where
  total a b := by
    by_contra h
    simp only [not_or, Bool.not_eq_false] at h
    -- Each would be less than the other.
    have hself := trans_of (less · ·) h.1 h.2
    exact irrefl_of (less · ·) b hself

instance isTrans_notLess : IsTrans α fun a b => less b a = false where
  trans a b c hba hcb := by
    by_contra hca
    rw [Bool.not_eq_false] at hca
    -- The three tie, since `c` is less than `a`.
    have hab : ¬ less a b = true := by
      intro hab
      rw [trans_of (less · ·) hca hab] at hcb
      cases hcb
    have hbc : ¬ less b c = true := by
      intro hbc
      rw [trans_of (less · ·) hbc hca] at hba
      cases hba
    have htie := @IsStrictWeakOrder.incomp_trans α (less · ·) _ a b c
      ⟨hab, by simp [hba]⟩ ⟨hbc, by simp [hcb]⟩
    exact htie.2 hca

/-- Sorting by insertion is stable. -/
theorem stablePerm_insertionSort (l : List α) :
    StablePerm less l (l.insertionSort fun a b => less b a = false) where
  perm := perm_insertionSort _ l
  ordered := pairwise_insertionSort _ l
  stable _ hc hpairwise := sublist_insertionSort hpairwise hc

end Insertion

end List

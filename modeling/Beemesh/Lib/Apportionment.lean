import Beemesh.Lib.StableSort
import Mathlib.Algebra.Order.BigOperators.Group.List
import Mathlib.Algebra.Order.Floor.Ring
import Mathlib.Tactic.Linarith

/-!
# Apportionment by largest remainders

Seats are given out by quotas: to everyone the whole part of the quota, and what is left of the
seats, one each, to those whose quotas lose the most by rounding down. As many are left as the
rounding loses in all, so that none of them goes to one that loses nothing.

## Main definitions

* `LargestRemainders quota order k`: `order` is by what rounding loses, which is `k` in all
* `seats quota order k`: the seats, where the first `k` of `order` get one of those that are left

## Main results

* `List.pos_of_mem_take`: the greatest `k` of numbers below one whose sum is `k` are positive
* `seats_eq_floor_or_ceil`: the seats are the quota, rounded down or up
* `seats_mono`: who has the greater quota has no fewer seats
* `one_le_seats`: who has the greatest quota has a seat, if he stands first among equals
-/

variable {ι K : Type*} [Field K] [LinearOrder K]

namespace List

variable [IsStrictOrderedRing K] {f : ι → K} {l : List ι} {k : ℕ}

theorem sum_map_le_length (h : ∀ i ∈ l, f i ≤ 1) : (l.map f).sum ≤ l.length := by
  have hle := sum_le_card_nsmul (l.map f) 1 (by simpa using h)
  simpa using hle

/-- Numbers below one whose sum is `k` are `k` at least. -/
theorem le_length_of_sum (hlt : ∀ i ∈ l, f i < 1) (hsum : (l.map f).sum = k) : k ≤ l.length := by
  have hle := sum_map_le_length fun i hi => (hlt i hi).le
  rw [hsum] at hle
  exact_mod_cast hle

/-- **The greatest `k`** of numbers below one whose sum is `k` are positive. -/
theorem pos_of_mem_take (hl : l.Pairwise fun i j => f j ≤ f i) (hlt : ∀ i ∈ l, f i < 1)
    (hsum : (l.map f).sum = k) : ∀ i ∈ l.take k, 0 < f i := by
  intro i hi
  by_contra hnot
  rw [not_lt] at hnot
  rw [← take_append_drop k l] at hl hlt hsum
  -- What stands behind adds nothing, and the first `k` make less than `k`.
  have hrest : ((l.drop k).map f).sum ≤ 0 := by
    have hle : ∀ v ∈ (l.drop k).map f, v ≤ 0 := by
      intro v hv
      obtain ⟨j, hj, rfl⟩ := mem_map.mp hv
      exact ((pairwise_append.mp hl).2.2 i hi j hj).trans hnot
    simpa using sum_le_card_nsmul ((l.drop k).map f) 0 hle
  have hfront : ((l.take k).map f).sum < ((l.take k).map fun _ => (1 : K)).sum := by
    refine sum_lt_sum f (fun _ => 1) (fun j hj => (hlt j (mem_append_left _ hj)).le) ?_
    exact ⟨i, hi, hnot.trans_lt one_pos⟩
  have hk : ((l.take k).length : K) ≤ k := by exact_mod_cast length_take_le k l
  rw [map_append, sum_append] at hsum
  rw [map_const', sum_replicate, nsmul_one] at hfront
  linarith

end List

variable [FloorRing K]

/-- The order is by what rounding down loses of the quotas, greatest first, and this is `k`. -/
structure LargestRemainders (quota : ι → K) (order : List ι) (k : ℕ) : Prop where
  ordered : order.Pairwise fun i j => Int.fract (quota j) ≤ Int.fract (quota i)
  sum_eq : (order.map fun i => Int.fract (quota i)).sum = k

/-- The seats by quota: the whole part, and one of those that are left for the first `k`. -/
def seats [DecidableEq ι] (quota : ι → K) (order : List ι) (k : ℕ) (i : ι) : ℤ :=
  ⌊quota i⌋ + if i ∈ order.take k then 1 else 0

theorem floor_le_seats [DecidableEq ι] (quota : ι → K) (order : List ι) (k : ℕ) (i : ι) :
    ⌊quota i⌋ ≤ seats quota order k i := by
  unfold seats
  split_ifs <;> omega

theorem seats_le [DecidableEq ι] (quota : ι → K) (order : List ι) (k : ℕ) (i : ι) :
    seats quota order k i ≤ ⌊quota i⌋ + 1 := by
  unfold seats
  split_ifs <;> omega

section Seats

variable [IsStrictOrderedRing K] {quota : ι → K} {order : List ι} {k : ℕ} {i j : ι}

/-- Whoever gets one of the seats that are left lost something by rounding. -/
theorem LargestRemainders.fract_pos (h : LargestRemainders quota order k)
    (hi : i ∈ order.take k) : 0 < Int.fract (quota i) :=
  List.pos_of_mem_take h.ordered (fun _ _ => Int.fract_lt_one _) h.sum_eq i hi

variable [DecidableEq ι]

/-- **The quota rule**: the seats are the quota, rounded down or up. -/
theorem seats_eq_floor_or_ceil (h : LargestRemainders quota order k) (i : ι) :
    seats quota order k i = ⌊quota i⌋ ∨ seats quota order k i = ⌈quota i⌉ := by
  unfold seats
  split_ifs with hi
  · have hceil : ⌈quota i⌉ = ⌊quota i⌋ + 1 := by
      rw [Int.ceil_eq_iff]
      have hpos := h.fract_pos hi
      have hlt := Int.lt_floor_add_one (quota i)
      rw [Int.fract] at hpos
      push_cast
      exact ⟨by linarith, hlt.le⟩
    exact .inr hceil.symm
  · exact .inl (add_zero _)

theorem seats_of_eq_zero (h : LargestRemainders quota order k) (hi : quota i = 0) :
    seats quota order k i = 0 := by
  rcases seats_eq_floor_or_ceil h i with heq | heq
  · rw [heq, hi, Int.floor_zero]
  · rw [heq, hi, Int.ceil_zero]

/-- **Who has the greater quota** has no fewer seats. -/
theorem seats_mono (h : LargestRemainders quota order k) (hi : i ∈ order) (hij : quota j < quota i) :
    seats quota order k j ≤ seats quota order k i := by
  have hfloor : ⌊quota j⌋ ≤ ⌊quota i⌋ := Int.floor_mono hij.le
  rcases hfloor.lt_or_eq with hlt | heq
  · calc seats quota order k j ≤ ⌊quota j⌋ + 1 := seats_le quota order k j
      _ ≤ ⌊quota i⌋ := hlt
      _ ≤ seats quota order k i := floor_le_seats quota order k i
  · -- The whole parts are the same, so that the greater quota loses more.
    have hfract : Int.fract (quota j) < Int.fract (quota i) := by
      rw [Int.fract, Int.fract, heq]
      linarith
    have htake : j ∈ order.take k → i ∈ order.take k := by
      intro hj
      by_contra hnot
      exact absurd hfract (not_lt.mpr (h.ordered.rel_of_mem_take hj hi hnot))
    unfold seats
    rw [heq]
    split_ifs with hj hi'
    · exact le_rfl
    · exact absurd (htake hj) hi'
    · omega
    · exact le_rfl

/-- **Who has the greatest quota** has a seat, if one seat is given out: he has a whole one, or
stands first among those that lose the most. -/
theorem one_le_seats (h : LargestRemainders quota order k) (hnonneg : ∀ j ∈ order, 0 ≤ quota j)
    (hmax : ∀ j ∈ order, quota j ≤ quota i) (hsum : 1 ≤ (order.map quota).sum)
    (hhead : quota i < 1 → order.head? = some i) : 1 ≤ seats quota order k i := by
  rcases le_or_gt 1 (quota i) with hone | hless
  · exact (Int.le_floor.mpr (by exact_mod_cast hone)).trans (floor_le_seats quota order k i)
  · -- All quotas are below one, so that all seats are left.
    have hfract : order.map (fun j => Int.fract (quota j)) = order.map quota := by
      refine List.map_congr_left fun j hj => ?_
      exact Int.fract_eq_self.mpr ⟨hnonneg j hj, (hmax j hj).trans_lt hless⟩
    have hk : 1 ≤ k := by
      have hsum_eq := h.sum_eq
      rw [hfract] at hsum_eq
      rw [hsum_eq] at hsum
      exact_mod_cast hsum
    obtain ⟨rest, rfl⟩ := List.head?_eq_some_iff.mp (hhead hless)
    obtain ⟨k, rfl⟩ := Nat.exists_eq_add_of_le' hk
    have hfloor : 0 ≤ ⌊quota i⌋ := Int.floor_nonneg.mpr (hnonneg i List.mem_cons_self)
    rw [seats, List.take_succ_cons, if_pos List.mem_cons_self]
    omega

end Seats

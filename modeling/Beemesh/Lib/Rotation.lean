import Mathlib.Algebra.BigOperators.Intervals
import Mathlib.Data.Nat.ModEq

/-!
# Rotating windows

Of `n` places around a circle, a window takes `k` that follow each other. A rotation moves the
window on by one place at a time. In a full round, every place is taken as often as the window is
long.

## Main definitions

* `Rotation.window n start k`: `k` places, from `start` on

## Main results

* `Rotation.nodup_window`: a window that is not longer than the circle has no place twice
* `Rotation.card_window`: how many places a window has
* `Rotation.sum_count_window`: in a full round, every place is in as many windows as one is long
-/

namespace Rotation

/-- The `k` places from `start` on, of `n` around a circle. -/
def window (n start k : ℕ) : List ℕ := (List.range k).map fun i => (start + i) % n

variable {n start k r : ℕ}

@[simp] theorem length_window : (window n start k).length = k := by
  simp [window]

theorem window_succ : window n start (k + 1) = window n start k ++ [(start + k) % n] := by
  rw [window, List.range_succ, List.map_append]
  rfl

theorem lt_of_mem_window (hn : 0 < n) (hr : r ∈ window n start k) : r < n := by
  obtain ⟨i, -, rfl⟩ := List.mem_map.mp hr
  exact Nat.mod_lt _ hn

theorem nodup_window (hk : k ≤ n) : (window n start k).Nodup := by
  refine List.Nodup.map_on ?_ List.nodup_range
  intro i hi j hj h
  have hmod : i ≡ j [MOD n] := Nat.ModEq.add_left_cancel' start h
  have hi := List.mem_range.mp hi
  have hj := List.mem_range.mp hj
  exact hmod.eq_of_lt_of_lt (by omega) (by omega)

/-- A window all around has every place. -/
theorem toFinset_window_self (hn : 0 < n) : (window n start n).toFinset = Finset.range n := by
  refine Finset.eq_of_subset_of_card_le ?_ ?_
  · intro r hr
    exact Finset.mem_range.mpr (lt_of_mem_window hn (List.mem_toFinset.mp hr))
  · rw [List.toFinset_card_of_nodup (nodup_window le_rfl), length_window, Finset.card_range]

/-- A longer window has no fewer places. -/
theorem toFinset_window_subset {k' : ℕ} (hk : k ≤ k') :
    (window n start k).toFinset ⊆ (window n start k').toFinset := by
  intro r hr
  obtain ⟨i, hi, rfl⟩ := List.mem_map.mp (List.mem_toFinset.mp hr)
  have hi := List.mem_range.mp hi
  exact List.mem_toFinset.mpr (List.mem_map_of_mem (List.mem_range.mpr (by omega)))

/-- How many places a window has. -/
theorem card_window (hn : 0 < n) : (window n start k).toFinset.card = min k n := by
  rcases Nat.le_total k n with hk | hk
  · rw [List.toFinset_card_of_nodup (nodup_window hk), length_window, min_eq_left hk]
  · have hall : (window n start k).toFinset = Finset.range n := by
      apply Finset.Subset.antisymm
      · intro r hr
        exact Finset.mem_range.mpr (lt_of_mem_window hn (List.mem_toFinset.mp hr))
      · have hself : (window n start n).toFinset = Finset.range n := toFinset_window_self hn
        rw [← hself]
        exact toFinset_window_subset hk
    rw [hall, Finset.card_range, min_eq_right hk]

theorem count_window_self (hr : r < n) : (window n start n).count r = 1 := by
  refine List.count_eq_one_of_mem (nodup_window le_rfl) ?_
  have hall : (window n start n).toFinset = Finset.range n :=
    toFinset_window_self (Nat.zero_lt_of_lt hr)
  rw [← List.mem_toFinset, hall]
  exact Finset.mem_range.mpr hr

/-- The occurrences of a place in a window, counted one by one. -/
theorem count_window : (window n start k).count r =
    ∑ i ∈ Finset.range k, if (start + i) % n = r then 1 else 0 := by
  induction k with
  | zero => rfl
  | succ k ih =>
    rw [window_succ, List.count_append, ih, Finset.sum_range_succ, List.count_singleton]
    simp only [beq_iff_eq]

/-- **A full round is fair**: every place is in as many of the windows of a round as each of them
is long. -/
theorem sum_count_window (hr : r < n) :
    ∑ t ∈ Finset.range n, (window n (start + t) k).count r = k := by
  induction k with
  | zero => simp [window]
  | succ k ih =>
    -- The last places of the windows of a round are themselves a window all around.
    have hlast : ∑ t ∈ Finset.range n, [(start + t + k) % n].count r = 1 := by
      have hself : (window n (start + k) n).count r = 1 := count_window_self hr
      rw [← hself, count_window]
      refine Finset.sum_congr rfl fun t _ => ?_
      rw [List.count_singleton, Nat.add_right_comm]
      simp only [beq_iff_eq]
    simp only [window_succ, List.count_append]
    rw [Finset.sum_add_distrib, ih, hlast]

end Rotation

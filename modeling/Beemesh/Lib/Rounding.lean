import Mathlib.Algebra.BigOperators.Ring.Finset
import Mathlib.Algebra.BigOperators.Ring.List
import Mathlib.Algebra.Order.BigOperators.Group.List
import Mathlib.Algebra.Order.Floor.Ring
import Mathlib.Tactic.Linarith
import Mathlib.Tactic.Ring

/-!
# Quotas in rounded arithmetic

A rounded operation returns its exact result up to a relative error `u` and an absolute error `η`,
on the same side of zero. A sum of positive numbers loses no more than a factor for each addition. The
quotas `x / s * t` of numbers, by such a sum `s` of them, make `t` up to less than one, as long as
there are few of them for the errors; then their whole parts make `t`, less one for each at most.

## Main definitions

* `Rounded u η z v`: `v` is `z`, rounded
* `Within a z v`: each of `z` and `v` is at least `a` times the other

## Main results

* `Within.add`: a rounded addition costs a factor
* `Rounded.quota_le`, `Rounded.le_quota`: a rounded quota is near the exact one
* `abs_sum_quotas_sub_lt`: rounded quotas make the total, up to less than one
* `sum_floor_bounds`: whole parts of what makes the total
-/

variable {ι K : Type*} [Field K] [LinearOrder K]

/-- `v` is `z`, rounded with relative error `u` and absolute error `η`, on the same side of zero. -/
structure Rounded (u η z v : K) : Prop where
  error : |v - z| ≤ u * |z| + η
  nonneg : 0 ≤ z → 0 ≤ v
  nonpos : z ≤ 0 → v ≤ 0

/-- Each of the two is at least `a` times the other. -/
structure Within (a z v : K) : Prop where
  low : a * z ≤ v
  high : a * v ≤ z

variable [IsStrictOrderedRing K] {u η z v : K}

namespace Rounded

theorem abs_le (h : Rounded u η z v) : |v| ≤ (1 + u) * |z| + η := by
  have hsplit : |v| ≤ |v - z| + |z| := by simpa using abs_add_le (v - z) z
  linarith [h.error]

theorem le_add (h : Rounded u η z v) (hz : 0 ≤ z) : v ≤ (1 + u) * z + η := by
  have herror := h.error
  rw [abs_of_nonneg hz] at herror
  linarith [le_abs_self (v - z)]

theorem sub_le (h : Rounded u η z v) (hz : 0 ≤ z) : (1 - u) * z - η ≤ v := by
  have herror := h.error
  rw [abs_of_nonneg hz] at herror
  linarith [neg_abs_le (v - z)]

end Rounded

/-! ## Sums -/

theorem Within.mono {a a' : K} (h : Within a z v) (hle : a' ≤ a) (hz : 0 ≤ z) (hv : 0 ≤ v) :
    Within a' z v where
  low := (mul_le_mul_of_nonneg_right hle hz).trans h.low
  high := (mul_le_mul_of_nonneg_right hle hv).trans h.high

/-- **A rounded addition** to a sum costs it a factor. -/
theorem Within.add {a s x : K} (h : Within a z s) (hs : Rounded u 0 (s + x) v) (hu : 0 ≤ u)
    (hua : u ≤ a) (ha : a ≤ 1) (hz : 0 ≤ z) (hx : 0 ≤ x) : Within (a - u) (z + x) v := by
  have ha' : 0 ≤ a := hu.trans hua
  have hs0 : 0 ≤ s := (mul_nonneg ha' hz).trans h.low
  have hsum : a * (z + x) ≤ s + x := by
    rw [mul_add]
    exact add_le_add h.low (mul_le_of_le_one_left hx ha)
  constructor
  · calc (a - u) * (z + x) ≤ (1 - u) * (a * (z + x)) := by
          have hzx := mul_nonneg hu (add_nonneg hz hx)
          nlinarith [mul_le_of_le_one_left hzx ha]
      _ ≤ (1 - u) * (s + x) := mul_le_mul_of_nonneg_left hsum (by linarith)
      _ ≤ v := by simpa using hs.sub_le (add_nonneg hs0 hx)
  · calc (a - u) * v ≤ (a - u) * ((1 + u) * (s + x)) := by
          refine mul_le_mul_of_nonneg_left ?_ (sub_nonneg.mpr hua)
          simpa using hs.le_add (add_nonneg hs0 hx)
      _ ≤ a * (s + x) := by
          -- The factor is `a - u (1 - a) - u ^ 2`.
          rw [← mul_assoc]
          refine mul_le_mul_of_nonneg_right ?_ (add_nonneg hs0 hx)
          nlinarith [mul_nonneg hu (sub_nonneg.mpr ha), mul_nonneg hu hu]
      _ ≤ z + x := by
          rw [mul_add]
          exact add_le_add h.high (mul_le_of_le_one_left hx ha)

/-! ## Quotas -/

section Quotas

variable {x s t q : K} (hq : Rounded u η (x / s) q) (hv : Rounded u η (q * t) v) (hx : 0 ≤ x)
  (hs : 0 < s) (ht : 1 ≤ t) (hu : 0 ≤ u) (hu1 : u ≤ 1) (hη : 0 ≤ η)

include hq hv hx hs ht hu hu1 hη

/-- **A rounded quota** is not far above the exact one. -/
theorem Rounded.quota_le : v ≤ (1 + 3 * u) * (x / s * t) + 3 * t * η := by
  have hexact : 0 ≤ x / s := div_nonneg hx hs.le
  have ht' : 0 ≤ t := zero_le_one.trans ht
  have hq0 : 0 ≤ q := hq.nonneg hexact
  have hqt : (1 + u) * (q * t) ≤ (1 + u) * (((1 + u) * (x / s) + η) * t) := by
    refine mul_le_mul_of_nonneg_left ?_ (by linarith)
    exact mul_le_mul_of_nonneg_right (hq.le_add hexact) ht'
  have hfactor : (1 + u) * (1 + u) * (x / s * t) ≤ (1 + 3 * u) * (x / s * t) := by
    refine mul_le_mul_of_nonneg_right ?_ (mul_nonneg hexact ht')
    nlinarith [mul_le_of_le_one_left hu hu1]
  have hsmall : (1 + u) * (η * t) + η ≤ 3 * t * η := by
    have htη := mul_nonneg hη ht'
    nlinarith [mul_le_of_le_one_left htη hu1, le_mul_of_one_le_right hη ht]
  calc v ≤ (1 + u) * (q * t) + η := hv.le_add (mul_nonneg hq0 ht')
    _ ≤ (1 + u) * (((1 + u) * (x / s) + η) * t) + η := by linarith
    _ = (1 + u) * (1 + u) * (x / s * t) + ((1 + u) * (η * t) + η) := by ring
    _ ≤ (1 + 3 * u) * (x / s * t) + 3 * t * η := add_le_add hfactor hsmall

/-- **A rounded quota** is not far below the exact one. -/
theorem Rounded.le_quota : (1 - 2 * u) * (x / s * t) - 2 * t * η ≤ v := by
  have hexact : 0 ≤ x / s := div_nonneg hx hs.le
  have ht' : 0 ≤ t := zero_le_one.trans ht
  have hq0 : 0 ≤ q := hq.nonneg hexact
  have hqt : (1 - u) * (((1 - u) * (x / s) - η) * t) ≤ (1 - u) * (q * t) := by
    refine mul_le_mul_of_nonneg_left ?_ (by linarith)
    exact mul_le_mul_of_nonneg_right (hq.sub_le hexact) ht'
  have hfactor : (1 - 2 * u) * (x / s * t) ≤ (1 - u) * (1 - u) * (x / s * t) := by
    refine mul_le_mul_of_nonneg_right ?_ (mul_nonneg hexact ht')
    nlinarith [mul_nonneg hu hu]
  have hsmall : (1 - u) * (η * t) + η ≤ 2 * t * η := by
    have htη := mul_nonneg hη ht'
    nlinarith [mul_nonneg hu htη, le_mul_of_one_le_right hη ht]
  calc (1 - 2 * u) * (x / s * t) - 2 * t * η
      ≤ (1 - u) * (1 - u) * (x / s * t) - ((1 - u) * (η * t) + η) := sub_le_sub hfactor hsmall
    _ = (1 - u) * (((1 - u) * (x / s) - η) * t) - η := by ring
    _ ≤ (1 - u) * (q * t) - η := by linarith
    _ ≤ v := hv.sub_le (mul_nonneg hq0 ht')

end Quotas

/-- Sums of bounds that are linear in `g`. -/
theorem List.sum_map_le_of_linear {l : List ι} {f g : ι → K} {c e : K}
    (h : ∀ i ∈ l, f i ≤ c * g i + e) : (l.map f).sum ≤ c * (l.map g).sum + l.length * e := by
  induction l with
  | nil => simp
  | cons i l ih =>
    have hi := h i List.mem_cons_self
    have hl := ih fun j hj => h j (List.mem_cons_of_mem i hj)
    simp only [List.map_cons, List.sum_cons, List.length_cons, Nat.cast_succ]
    linarith

/-- **Rounded quotas** make the total, up to less than one, where they are few for the errors. -/
theorem abs_sum_quotas_sub_lt {l : List ι} {x f : ι → K} {s t : K} (hl : l ≠ [])
    (hx : ∀ i ∈ l, 0 ≤ x i) (hs : 0 < s) (ht : 1 ≤ t)
    (hquota : ∀ i ∈ l, ∃ q, Rounded u η (x i / s) q ∧ Rounded u η (q * t) (f i))
    (hsum : Within (1 - l.length * u) (l.map x).sum s) (hu : 0 ≤ u) (hη : 0 ≤ η)
    (hfew : 8 * (u + η) * (l.length * t) ≤ 1) : |(l.map f).sum - t| < 1 := by
  have hn : (1 : K) ≤ l.length := by
    exact_mod_cast List.length_pos_iff.mpr hl
  have ht' : 0 ≤ t := zero_le_one.trans ht
  -- The errors of all quotas, and that of one.
  have hut : 0 ≤ u * t := mul_nonneg hu ht'
  have hnut : u * t ≤ l.length * (u * t) := le_mul_of_one_le_left hut hn
  have hnu : l.length * u ≤ l.length * (u * t) :=
    mul_le_mul_of_nonneg_left (le_mul_of_one_le_right hu ht) (zero_le_one.trans hn)
  have hnη : 0 ≤ l.length * (η * t) := mul_nonneg (zero_le_one.trans hn) (mul_nonneg hη ht')
  have hsmall : 8 * (l.length * (u * t)) + 8 * (l.length * (η * t)) ≤ 1 := by
    calc 8 * (l.length * (u * t)) + 8 * (l.length * (η * t)) = 8 * (u + η) * (l.length * t) := by
          ring
      _ ≤ 1 := hfew
  have hu8 : 8 * u ≤ 1 := by linarith [le_mul_of_one_le_right hu ht]
  have hu1 : u ≤ 1 := by linarith
  -- What the exact quotas make, as a part of `t`.
  set r := (l.map x).sum / s with hr
  have hlow : 1 - l.length * u ≤ r := (le_div_iff₀ hs).mpr hsum.high
  have hhigh : (1 - l.length * u) * r ≤ 1 := by
    rw [hr, ← mul_div_assoc]
    exact (div_le_one hs).mpr hsum.low
  have hr0 : 0 ≤ r := by linarith
  have hr2 : r ≤ 8 / 7 := by nlinarith
  have hquotas : (l.map fun i => x i / s * t).sum = r * t := by
    rw [List.sum_map_mul_right]
    simp only [div_eq_mul_inv]
    rw [List.sum_map_mul_right, hr, div_eq_mul_inv]
  have hupper : (l.map f).sum ≤ (1 + 3 * u) * (r * t) + l.length * (3 * t * η) := by
    rw [← hquotas]
    refine List.sum_map_le_of_linear fun i hi => ?_
    obtain ⟨q, hq, hf⟩ := hquota i hi
    exact hq.quota_le hf (hx i hi) hs ht hu hu1 hη
  have hlower : (1 - 2 * u) * (r * t) - l.length * (2 * t * η) ≤ (l.map f).sum := by
    have hneg := List.sum_map_le_of_linear (l := l) (f := fun i => (-1) * f i)
      (g := fun i => x i / s * t) (c := -(1 - 2 * u)) (e := 2 * t * η) fun i hi => by
        obtain ⟨q, hq, hf⟩ := hquota i hi
        linarith [hq.le_quota hf (hx i hi) hs ht hu hu1 hη]
    rw [hquotas, List.sum_map_mul_left] at hneg
    linarith
  have hnut0 : 0 ≤ l.length * (u * t) := hut.trans hnut
  rw [abs_lt]
  constructor
  · have hrt : (1 - l.length * u) * t ≤ r * t := mul_le_mul_of_nonneg_right hlow ht'
    have hfactor : (1 - 2 * u) * ((1 - l.length * u) * t) ≤ (1 - 2 * u) * (r * t) :=
      mul_le_mul_of_nonneg_left hrt (by linarith)
    have hsquare : 0 ≤ u * (l.length * (u * t)) := mul_nonneg hu hnut0
    linarith
  · have hrt : r * t ≤ t + 8 / 7 * (l.length * (u * t)) := by
      have hsplit : r ≤ 1 + l.length * u * (8 / 7) := by
        have hnu0 : 0 ≤ l.length * u := mul_nonneg (zero_le_one.trans hn) hu
        linarith [mul_le_mul_of_nonneg_left hr2 hnu0]
      calc r * t ≤ (1 + l.length * u * (8 / 7)) * t := mul_le_mul_of_nonneg_right hsplit ht'
        _ = t + 8 / 7 * (l.length * (u * t)) := by ring
    have hurt : u * (r * t) ≤ 8 / 7 * (u * t) := by
      calc u * (r * t) = r * (u * t) := by ring
        _ ≤ 8 / 7 * (u * t) := mul_le_mul_of_nonneg_right hr2 hut
    linarith

/-- **Whole parts** of what makes `t`, up to less than one, make `t`, less one for each at most. -/
theorem sum_floor_bounds [FloorRing K] {l : List ι} {f : ι → K} {t : ℤ}
    (h : |(l.map f).sum - t| < 1) :
    t - l.length ≤ (l.map fun i => ⌊f i⌋).sum ∧ (l.map fun i => ⌊f i⌋).sum ≤ t := by
  obtain ⟨hlow, hhigh⟩ := abs_lt.mp h
  have hcast : (((l.map fun i => ⌊f i⌋).sum : ℤ) : K) = (l.map fun i => (⌊f i⌋ : K)).sum := by
    rw [Int.cast_list_sum, List.map_map]
    rfl
  generalize (l.map fun i => ⌊f i⌋).sum = floors at hcast
  have hle : (floors : K) ≤ (l.map f).sum := by
    rw [hcast]
    exact List.sum_le_sum fun i _ => Int.floor_le (f i)
  have hge : (l.map f).sum ≤ floors + l.length := by
    have hsum := List.sum_map_le_of_linear (l := l) (f := f) (g := fun i => (⌊f i⌋ : K)) (c := 1)
      (e := 1) fun i _ => by linarith [Int.lt_floor_add_one (f i)]
    rw [hcast]
    simpa using hsum
  constructor
  · have hlt : ((t - l.length : ℤ) : K) < ((floors + 1 : ℤ) : K) := by
      push_cast
      linarith
    exact Int.lt_add_one_iff.mp (by exact_mod_cast hlt)
  · have hlt : (floors : K) < ((t + 1 : ℤ) : K) := by
      push_cast
      linarith
    exact Int.lt_add_one_iff.mp (by exact_mod_cast hlt)

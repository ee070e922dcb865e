import Beemesh.Lib.Binary64
import Beemesh.Workplane.Assignment

/-!
# Scores in `float64`

The arithmetic of scores as IEEE 754 has it: finite numbers have values, operations on them are
rounded correctly as long as the exact result is in the range, and the conversions to and from
integers are exact where they are specified. Of numbers that are infinite or none, and of
conversions out of the range, nothing is said.

Scores are tame when their sum does not overflow and there are few proposals for the errors. Then
the whole replicas of the positive scores make the total, less one for each at most, and no other
score has a part in the assignment.

## Main definitions

* `Float64`: `float64` and its conversions
* `Tame`: scores that neither overflow nor lose a replica by rounding

## Main results

* `Tame.share_pos`, `Tame.share_nonpos`: the shares of scores
* `Tame.floorTotal_bounds`: what the first pass leaves
* `assignReplicas_append`: proposals without a positive score do not count, beside one that has one
-/

namespace Beemesh.Workplane

/-! ## Arithmetic -/

/-- `float64`, with its documented behaviour. -/
structure Float64 (F : Type) extends ScoreArithmetic F where
  /-- It is neither infinite nor `NaN`. -/
  Finite : F → Prop
  value : F → ℚ
  finite_zero : Finite zero
  value_zero : value zero = 0
  lt_iff : ∀ {x y}, Finite x → Finite y → (lt x y = true ↔ value x < value y)
  eq_iff : ∀ {x y}, Finite x → Finite y → (eq x y = true ↔ value x = value y)
  add_rounds : ∀ {x y}, Finite x → Finite y → |value x + value y| ≤ maxBinary64 →
    Finite (add x y) ∧ Rounded roundoff 0 (value x + value y) (value (add x y))
  sub_rounds : ∀ {x y}, Finite x → Finite y → |value x - value y| ≤ maxBinary64 →
    Finite (sub x y) ∧ Rounded roundoff 0 (value x - value y) (value (sub x y))
  mul_rounds : ∀ {x y}, Finite x → Finite y → |value x * value y| ≤ maxBinary64 →
    Finite (mul x y) ∧ Rounded roundoff underflow (value x * value y) (value (mul x y))
  div_rounds : ∀ {x y}, Finite x → Finite y → value y ≠ 0 → |value x / value y| ≤ maxBinary64 →
    Finite (div x y) ∧ Rounded roundoff underflow (value x / value y) (value (div x y))
  ofInt_exact : ∀ {n : ℤ}, |n| ≤ 2 ^ 53 → Finite (ofInt n) ∧ value (ofInt n) = n
  /-- `int(x)` cuts off the fraction. -/
  toInt_nonneg : ∀ {x}, Finite x → 0 ≤ value x → value x < 2 ^ 63 → toInt x = ⌊value x⌋
  toInt_nonpos : ∀ {x}, Finite x → value x ≤ 0 → -2 ^ 63 < value x → toInt x = ⌈value x⌉
  /-- What is cut off so is a number again. -/
  ofInt_toInt : ∀ {x}, Finite x → |value x| < 2 ^ 63 →
    Finite (ofInt (toInt x)) ∧ value (ofInt (toInt x)) = toInt x

theorem underflow_le : underflow ≤ 1 / 2 ^ 200 :=
  one_div_le_one_div_of_le (by positivity) (pow_le_pow_right₀ (by norm_num) (by norm_num))

theorem le_maxBinary64 : (2 : ℚ) ^ 100 ≤ maxBinary64 := by
  have hpow : (2 : ℚ) ^ (100 : ℤ) ≤ 2 ^ (971 : ℤ) :=
    zpow_le_zpow_right₀ one_le_two (by norm_num)
  exact (hpow.trans (le_mul_of_one_le_left (two_zpow_pos 971).le (by norm_num)))

theorem maxBinary64_pos : 0 < maxBinary64 := lt_of_lt_of_le (by positivity) le_maxBinary64

/-- `float64` of the format, where `int` gives the least integer for what is out of its range. -/
def float64 : Float64 Binary64 where
  zero := Binary64.finite 0 isBinary64_zero
  add := Binary64.add
  sub := Binary64.sub
  mul := Binary64.mul
  div := Binary64.div
  ofInt := Binary64.ofInt
  toInt := Binary64.toInt
  lt := Binary64.lt
  le := Binary64.le
  eq := Binary64.eq
  zero_le := by decide +kernel
  not_le_zero _ := Binary64.le_eq_false
  add_pos _ _ := Binary64.lt_add
  Finite := Binary64.Finite
  value := Binary64.value
  finite_zero := trivial
  value_zero := rfl
  lt_iff {x y} hx hy := by
    obtain ⟨q, hq, rfl⟩ := hx.exists_eq
    obtain ⟨r, hr, rfl⟩ := hy.exists_eq
    exact decide_eq_true_iff
  eq_iff {x y} hx hy := by
    obtain ⟨q, hq, rfl⟩ := hx.exists_eq
    obtain ⟨r, hr, rfl⟩ := hy.exists_eq
    exact decide_eq_true_iff
  add_rounds {x y} hx hy hrange := by
    obtain ⟨q, hq, rfl⟩ := hx.exists_eq
    obtain ⟨r, hr, rfl⟩ := hy.exists_eq
    exact Binary64.rounded_round hrange (Binary64.rounded_add hq hr)
  sub_rounds {x y} hx hy hrange := by
    obtain ⟨q, hq, rfl⟩ := hx.exists_eq
    obtain ⟨r, hr, rfl⟩ := hy.exists_eq
    exact Binary64.rounded_round hrange (Binary64.rounded_sub hq hr)
  mul_rounds {x y} hx hy hrange := by
    obtain ⟨q, hq, rfl⟩ := hx.exists_eq
    obtain ⟨r, hr, rfl⟩ := hy.exists_eq
    exact Binary64.rounded_round hrange (rounded_roundTo _)
  div_rounds {x y} hx hy hzero hrange := by
    obtain ⟨q, hq, rfl⟩ := hx.exists_eq
    obtain ⟨r, hr, rfl⟩ := hy.exists_eq
    have hdiv : Binary64.div (.finite q hq) (.finite r hr) = Binary64.round (q / r) := if_pos hzero
    rw [hdiv]
    exact Binary64.rounded_round hrange (rounded_roundTo _)
  ofInt_exact := Binary64.value_ofInt
  toInt_nonneg {x} hx hpos hlt := by
    obtain ⟨q, hq, rfl⟩ := hx.exists_eq
    exact Binary64.toInt_of_nonneg hpos hlt
  toInt_nonpos {x} hx hneg hlt := by
    obtain ⟨q, hq, rfl⟩ := hx.exists_eq
    exact Binary64.toInt_of_nonpos hneg hlt
  ofInt_toInt {x} hx hlt := by
    obtain ⟨q, hq, rfl⟩ := hx.exists_eq
    exact Binary64.value_ofInt_toInt hlt

variable {F : Type} {A : Float64 F} {total : ℤ} {props : List (Proposal F)}

/-- The proposal has a positive score. -/
def Float64.scores (A : Float64 F) (p : Proposal F) : Bool := A.lt A.zero p.score

theorem Float64.scores_iff {p : Proposal F} (hp : A.Finite p.score) :
    A.scores p = true ↔ 0 < A.value p.score := by
  rw [scores, A.lt_iff A.finite_zero hp, A.value_zero]

/-- The exact sum of the positive scores. -/
def Float64.positiveSum (A : Float64 F) (props : List (Proposal F)) : ℚ :=
  (props.map fun p => max (A.value p.score) 0).sum

/-- **Tame scores** are finite, and so is their sum with all its errors; the errors of all shares
make less than a replica; and no negative score is too great for `int`. -/
structure Tame (A : Float64 F) (total : ℤ) (props : List (Proposal F)) : Prop where
  finite : ∀ p ∈ props, A.Finite p.score
  few : (props.length : ℤ) * total < 2 ^ 50
  sum_le : A.positiveSum props ≤ (1 - props.length * roundoff) * maxBinary64
  least : ∀ p ∈ props, ∃ q ∈ props, -A.value p.score * total ≤ 2 ^ 62 * A.value q.score

/-! ## The sum of the scores -/

theorem Float64.positiveSum_cons (p : Proposal F) (props : List (Proposal F)) :
    A.positiveSum (p :: props) = max (A.value p.score) 0 + A.positiveSum props :=
  List.sum_cons

theorem Float64.positiveSum_nonneg (A : Float64 F) (props : List (Proposal F)) :
    0 ≤ A.positiveSum props := by
  refine List.sum_nonneg fun v hv => ?_
  obtain ⟨p, -, rfl⟩ := List.mem_map.mp hv
  exact le_max_right _ _

theorem Float64.value_le_positiveSum {p : Proposal F} (hp : p ∈ props) :
    A.value p.score ≤ A.positiveSum props := by
  refine (le_max_left _ 0).trans (List.single_le_sum ?_ _ (List.mem_map_of_mem hp))
  intro v hv
  obtain ⟨q, -, rfl⟩ := List.mem_map.mp hv
  exact le_max_right _ _

/-- Scores from zero to `2 ^ 40` are tame. -/
theorem Tame.of_nonneg (htotal : 0 < total) (hfinite : ∀ p ∈ props, A.Finite p.score)
    (hscores : ∀ p ∈ props, 0 ≤ A.value p.score ∧ A.value p.score ≤ 2 ^ 40)
    (hfew : (props.length : ℤ) * total < 2 ^ 50) : Tame A total props where
  finite := hfinite
  few := hfew
  sum_le := by
    have hlength : (props.length : ℚ) ≤ 2 ^ 50 := by
      have hle : (props.length : ℤ) ≤ 2 ^ 50 :=
        (le_mul_of_one_le_right (Int.natCast_nonneg _) htotal).trans hfew.le
      exact_mod_cast hle
    have hsum : A.positiveSum props ≤ props.length • (2 : ℚ) ^ 40 := by
      refine (List.sum_le_card_nsmul _ _ fun v hv => ?_).trans_eq (by rw [List.length_map])
      obtain ⟨p, hp, rfl⟩ := List.mem_map.mp hv
      exact max_le (hscores p hp).2 (by norm_num)
    calc A.positiveSum props ≤ 2 ^ 50 * 2 ^ 40 := by
          rw [nsmul_eq_mul] at hsum
          exact hsum.trans (mul_le_mul_of_nonneg_right hlength (by norm_num))
      _ ≤ 7 / 8 * 2 ^ 100 := by norm_num
      _ ≤ (1 - props.length * roundoff) * maxBinary64 := by
          refine mul_le_mul ?_ le_maxBinary64 (by norm_num) ?_ <;> norm_num [roundoff] <;> linarith
  least p hp := by
    refine ⟨p, hp, ?_⟩
    have htotal' : (0 : ℚ) ≤ total := by exact_mod_cast htotal.le
    have hproduct := mul_nonneg (hscores p hp).1 htotal'
    linarith [(hscores p hp).1]

/-- The sum from `s`, which is near `z`: each proposal may cost a factor. -/
theorem foldl_scores_within {s : F} {a z : ℚ} (hfinite : ∀ p ∈ props, A.Finite p.score)
    (hs : A.Finite s) (hwithin : Within a z (A.value s)) (hz : 0 ≤ z) (ha : a ≤ 1)
    (hleft : 0 < a - props.length * roundoff)
    (hmax : z + A.positiveSum props ≤ (a - props.length * roundoff) * maxBinary64) :
    let s' := props.foldl (fun sum p => if A.lt A.zero p.score then A.add sum p.score else sum) s
    A.Finite s' ∧
      Within (a - props.length * roundoff) (z + A.positiveSum props) (A.value s') := by
  -- By the proposals, from any sum.
  induction props generalizing s a z with
  | nil => simpa [Float64.positiveSum] using ⟨hs, hwithin⟩
  | cons p props ih =>
    have hp := hfinite p List.mem_cons_self
    have hu := roundoff_pos
    have hrest : 0 ≤ props.length * roundoff := mul_nonneg (Nat.cast_nonneg _) hu.le
    have hsum := A.positiveSum_nonneg props
    have hlength : ((p :: props).length : ℚ) * roundoff =
        roundoff + props.length * roundoff := by
      rw [List.length_cons]
      push_cast
      ring
    rw [hlength, ← sub_sub] at hleft hmax ⊢
    rw [Float64.positiveSum_cons] at hmax ⊢
    have hs0 : 0 ≤ A.value s := (mul_nonneg (by linarith) hz).trans hwithin.low
    rw [List.foldl_cons]
    by_cases hscore : A.scores p = true
    · have hx := (A.scores_iff hp).mp hscore
      rw [max_eq_left hx.le, ← add_assoc] at hmax ⊢
      -- The exact sum of the two is in the range.
      have hrange : |A.value s + A.value p.score| ≤ maxBinary64 := by
        have ha0 : 0 < a := by linarith
        have hax : a * A.value p.score ≤ A.value p.score := mul_le_of_le_one_left hx.le ha
        have hfactor : (a - roundoff - props.length * roundoff) * maxBinary64 ≤ a * maxBinary64 :=
          mul_le_mul_of_nonneg_right (by linarith) maxBinary64_pos.le
        rw [abs_of_nonneg (by linarith)]
        refine le_of_mul_le_mul_left ?_ ha0
        linarith [hwithin.high]
      obtain ⟨hfin, hround⟩ := A.add_rounds hs hp hrange
      rw [if_pos (show A.lt A.zero p.score = true from hscore)]
      exact ih (fun q hq => hfinite q (List.mem_cons_of_mem p hq)) hfin
        (hwithin.add hround hu.le (by linarith) ha hz hx.le) (by linarith) (by linarith) hleft hmax
    · have hx := not_lt.mp (mt (A.scores_iff hp).mpr hscore)
      rw [max_eq_right hx, zero_add] at hmax ⊢
      rw [if_neg (show ¬ A.lt A.zero p.score = true from hscore)]
      exact ih (fun q hq => hfinite q (List.mem_cons_of_mem p hq)) hs
        (hwithin.mono (by linarith) hz hs0) hz (by linarith) hleft hmax

namespace Tame

/-! ## Shares -/

section Shares

variable (h : Tame A total props) (htotal : 0 < total)

include h htotal

/-- The errors of all shares make less than a replica. -/
theorem errors_le : 8 * (roundoff + underflow) * (props.length * (total : ℚ)) ≤ 1 := by
  have hfew : (props.length * total : ℚ) ≤ 2 ^ 50 - 1 := by
    have hlt := h.few
    have hle : (props.length : ℤ) * total ≤ 2 ^ 50 - 1 := by omega
    exact_mod_cast hle
  have herror : roundoff + underflow ≤ 1 / 2 ^ 53 + 1 / 2 ^ 200 :=
    add_le_add le_rfl underflow_le
  have hnonneg : (0 : ℚ) ≤ props.length * total :=
    mul_nonneg (Nat.cast_nonneg _) (by exact_mod_cast htotal.le)
  calc 8 * (roundoff + underflow) * (props.length * (total : ℚ))
      ≤ 8 * (1 / 2 ^ 53 + 1 / 2 ^ 200) * (2 ^ 50 - 1) :=
        mul_le_mul (by linarith) hfew hnonneg (by norm_num)
    _ ≤ 1 := by norm_num

/-- What the sum of the scores may lose. -/
theorem length_roundoff_le : (props.length : ℚ) * roundoff ≤ 1 / 8 := by
  have hone : (1 : ℚ) ≤ total := by exact_mod_cast htotal
  have hn : (0 : ℚ) ≤ props.length := Nat.cast_nonneg _
  have hmul : (props.length : ℚ) * roundoff ≤ (roundoff + underflow) * (props.length * total) := by
    calc (props.length : ℚ) * roundoff ≤ (roundoff + underflow) * props.length := by
          rw [mul_comm]
          exact mul_le_mul_of_nonneg_right (by linarith [underflow_pos]) hn
      _ ≤ (roundoff + underflow) * (props.length * total) := by
          refine mul_le_mul_of_nonneg_left (le_mul_of_one_le_right hn hone) ?_
          linarith [underflow_pos, roundoff_pos]
  linarith [h.errors_le htotal]

/-- **The sum of the scores** is near the exact one. -/
theorem scoreSum_within : A.Finite (scoreSum A.toScoreArithmetic props) ∧
    Within (1 - props.length * roundoff) (A.positiveSum props)
      (A.value (scoreSum A.toScoreArithmetic props)) := by
  have hsmall := h.length_roundoff_le htotal
  have hstart : Within 1 0 (A.value A.zero) := by
    rw [A.value_zero]
    exact ⟨by simp, by simp⟩
  have hfold := foldl_scores_within h.finite A.finite_zero hstart le_rfl le_rfl (by linarith)
    (by rw [zero_add]; exact h.sum_le)
  rwa [zero_add] at hfold

theorem total_lt {p : Proposal F} (hp : p ∈ props) : total < 2 ^ 50 := by
  have hn : (1 : ℤ) ≤ props.length := by exact_mod_cast List.length_pos_of_mem hp
  exact (le_mul_of_one_le_left htotal.le hn).trans_lt h.few

/-- No score is too great, beside the sum of the positive ones. -/
theorem abs_score_le {p : Proposal F} (hp : p ∈ props) :
    |A.value p.score| * total ≤ 2 ^ 62 * A.positiveSum props := by
  have htotal' : (0 : ℚ) ≤ total := by exact_mod_cast htotal.le
  have hsum := A.positiveSum_nonneg props
  rcases le_total 0 (A.value p.score) with hx | hx
  · have hle : (total : ℚ) ≤ 2 ^ 62 := by
      have hlt := h.total_lt htotal hp
      have hle : total ≤ 2 ^ 62 := by omega
      exact_mod_cast hle
    rw [abs_of_nonneg hx, mul_comm]
    exact mul_le_mul hle (Float64.value_le_positiveSum hp) hx (by norm_num)
  · obtain ⟨q, hq, hle⟩ := h.least p hp
    rw [abs_of_nonpos hx]
    exact hle.trans (mul_le_mul_of_nonneg_left (Float64.value_le_positiveSum hq) (by norm_num))

/-- The share of a proposal, without the errors of its operations: at most 8/7 of the bound on
scores, since the sum is 7/8 of the exact one at least. -/
theorem exact_share_le {p : Proposal F} (hp : p ∈ props) (hpos : ∃ q ∈ props, A.scores q = true) :
    let sum := A.value (scoreSum A.toScoreArithmetic props)
    0 < sum ∧ |A.value p.score / sum| * total ≤ 2 ^ 62 * (8 / 7) := by
  intro sum
  obtain ⟨-, hwithin⟩ := h.scoreSum_within htotal
  have hsmall := h.length_roundoff_le htotal
  have hsum : 0 < A.positiveSum props := by
    obtain ⟨q, hq, hscore⟩ := hpos
    exact ((A.scores_iff (h.finite q hq)).mp hscore).trans_le (Float64.value_le_positiveSum hq)
  have hsum' : 7 / 8 * A.positiveSum props ≤ sum :=
    (mul_le_mul_of_nonneg_right (by linarith) hsum.le).trans hwithin.low
  have hpositive : 0 < sum := lt_of_lt_of_le (by linarith) hsum'
  refine ⟨hpositive, ?_⟩
  rw [abs_div, abs_of_pos hpositive, div_mul_eq_mul_div, div_le_iff₀ hpositive]
  linarith [h.abs_score_le htotal hp]

/-- **The share of a proposal** is near the exact one, and in the range of `int`. -/
theorem share {p : Proposal F} (hp : p ∈ props) (hpos : ∃ q ∈ props, A.scores q = true) :
    let sum := scoreSum A.toScoreArithmetic props
    let share := proportion A.toScoreArithmetic total sum p.score
    A.Finite share ∧ |A.value share| < 2 ^ 63 ∧ 0 < A.value sum ∧
      ∃ q, Rounded roundoff underflow (A.value p.score / A.value sum) q ∧
        Rounded roundoff underflow (q * total) (A.value share) := by
  intro sum share
  obtain ⟨hfinite, -⟩ := h.scoreSum_within htotal
  obtain ⟨hpositive, hexact⟩ := h.exact_share_le htotal hp hpos
  have htotal' : (1 : ℚ) ≤ total := by exact_mod_cast htotal
  have hquotient : |A.value p.score / A.value sum| ≤ 2 ^ 62 * (8 / 7) :=
    (le_mul_of_one_le_right (abs_nonneg _) htotal').trans hexact
  have hmax := le_maxBinary64
  obtain ⟨hq, hqround⟩ := A.div_rounds (h.finite p hp) hfinite hpositive.ne'
    (hquotient.trans (by linarith))
  have htotal50 := h.total_lt htotal hp
  obtain ⟨ht, htvalue⟩ := A.ofInt_exact (n := total) (by rw [abs_of_pos htotal]; omega)
  have hutotal : underflow * total ≤ 1 := by
    have htotal50' : (total : ℚ) ≤ 2 ^ 50 := by exact_mod_cast htotal50.le
    calc underflow * total ≤ 1 / 2 ^ 200 * 2 ^ 50 :=
          mul_le_mul underflow_le htotal50' (by linarith) (by norm_num)
      _ ≤ 1 := by norm_num
  have hproduct : |A.value (A.div p.score sum) * total| ≤ 2 ^ 62 * (9 / 7) := by
    rw [abs_mul, abs_of_pos (by linarith : (0 : ℚ) < total)]
    calc |A.value (A.div p.score sum)| * total
        ≤ ((1 + roundoff) * |A.value p.score / A.value sum| + underflow) * total :=
          mul_le_mul_of_nonneg_right hqround.abs_le (by linarith)
      _ = (1 + roundoff) * (|A.value p.score / A.value sum| * total) + underflow * total := by ring
      _ ≤ (1 + 1 / 2 ^ 53) * (2 ^ 62 * (8 / 7)) + 1 :=
          add_le_add (mul_le_mul_of_nonneg_left hexact (by norm_num [roundoff])) hutotal
      _ ≤ 2 ^ 62 * (9 / 7) := by norm_num
  rw [← htvalue] at hproduct
  obtain ⟨hshare, hround⟩ := A.mul_rounds hq ht (hproduct.trans (by linarith))
  refine ⟨hshare, ?_, hpositive, A.value (A.div p.score sum), hqround, htvalue ▸ hround⟩
  calc |A.value share| ≤ (1 + roundoff) * |A.value (A.div p.score sum) * A.value (A.ofInt total)| +
        underflow := hround.abs_le
    _ ≤ (1 + 1 / 2 ^ 53) * (2 ^ 62 * (9 / 7)) + 1 / 2 ^ 200 :=
        add_le_add (mul_le_mul_of_nonneg_left hproduct (by norm_num [roundoff])) underflow_le
    _ < 2 ^ 63 := by norm_num

/-- A positive score has no negative share, and none other has a positive one. -/
theorem share_sign {p : Proposal F} (hp : p ∈ props) (hpos : ∃ q ∈ props, A.scores q = true) :
    let share := proportion A.toScoreArithmetic total (scoreSum A.toScoreArithmetic props) p.score
    (A.scores p = true → 0 ≤ A.value share) ∧ (¬ A.scores p = true → A.value share ≤ 0) := by
  obtain ⟨-, -, hsum, q, hq, hshare⟩ := h.share htotal hp hpos
  have htotal' : (0 : ℚ) ≤ total := by exact_mod_cast htotal.le
  rw [A.scores_iff (h.finite p hp), not_lt]
  constructor
  · intro hx
    exact hshare.nonneg (mul_nonneg (hq.nonneg (div_nonneg hx.le hsum.le)) htotal')
  · intro hx
    have hquotient := hq.nonpos (div_nonpos_of_nonpos_of_nonneg hx hsum.le)
    exact hshare.nonpos (mul_nonpos_of_nonpos_of_nonneg hquotient htotal')

/-- **What a share loses by rounding** is a number, and on the side of the share. -/
theorem frac {p : Proposal F} (hp : p ∈ props) (hpos : ∃ q ∈ props, A.scores q = true) :
    let r := remainderOf A.toScoreArithmetic total (scoreSum A.toScoreArithmetic props) p
    A.Finite r.frac ∧ (A.scores p = true → 0 ≤ A.value r.frac) ∧
      (¬ A.scores p = true → A.value r.frac ≤ 0) := by
  intro r
  obtain ⟨hshare, hlt, -⟩ := h.share htotal hp hpos
  obtain ⟨hsign, hsign'⟩ := h.share_sign htotal hp hpos
  set share := proportion A.toScoreArithmetic total (scoreSum A.toScoreArithmetic props) p.score
  obtain ⟨hlow, hhigh⟩ := abs_lt.mp hlt
  obtain ⟨hbase, hvalue⟩ := A.ofInt_toInt hshare hlt
  have hone : (1 : ℚ) ≤ maxBinary64 := le_trans (by norm_num) le_maxBinary64
  by_cases hscore : A.scores p = true
  · have htoInt := A.toInt_nonneg hshare (hsign hscore) hhigh
    have hfract :
        A.value share - A.value (A.ofInt (A.toInt share)) = Int.fract (A.value share) := by
      rw [hvalue, htoInt, Int.fract]
    have hrange := (Int.fract_lt_one (A.value share)).le.trans hone
    obtain ⟨hfinite, hround⟩ := A.sub_rounds hshare hbase (by
      rwa [hfract, abs_of_nonneg (Int.fract_nonneg _)])
    exact ⟨hfinite, fun _ => hround.nonneg (hfract ▸ Int.fract_nonneg _),
      fun hnot => absurd hscore hnot⟩
  · have htoInt := A.toInt_nonpos hshare (hsign' hscore) hlow
    have hloss : A.value share - A.value (A.ofInt (A.toInt share)) ≤ 0 := by
      rw [hvalue, htoInt, sub_nonpos]
      exact Int.le_ceil _
    have hrange : |A.value share - A.value (A.ofInt (A.toInt share))| ≤ maxBinary64 := by
      rw [abs_of_nonpos hloss, hvalue, htoInt]
      linarith [Int.ceil_lt_add_one (A.value share)]
    obtain ⟨hfinite, hround⟩ := A.sub_rounds hshare hbase hrange
    exact ⟨hfinite, fun hyes => absurd hyes hscore, fun _ => hround.nonpos hloss⟩

/-- The whole replicas of a share. -/
theorem toInt_share {p : Proposal F} (hp : p ∈ props) (hpos : ∃ q ∈ props, A.scores q = true) :
    let share := proportion A.toScoreArithmetic total (scoreSum A.toScoreArithmetic props) p.score
    (A.scores p = true → A.toInt share = ⌊A.value share⌋ ∧ 0 ≤ A.toInt share) ∧
      (¬ A.scores p = true → A.toInt share ≤ 0) := by
  obtain ⟨hshare, hlt, -⟩ := h.share htotal hp hpos
  obtain ⟨hsign, hsign'⟩ := h.share_sign htotal hp hpos
  obtain ⟨hlow, hhigh⟩ := abs_lt.mp hlt
  constructor
  · intro hscore
    rw [A.toInt_nonneg hshare (hsign hscore) hhigh]
    exact ⟨rfl, Int.floor_nonneg.mpr (hsign hscore)⟩
  · intro hscore
    rw [A.toInt_nonpos hshare (hsign' hscore) hlow]
    exact Int.ceil_le.mpr (by exact_mod_cast hsign' hscore)

/-- **What the first pass leaves**: no more than one for each share, and it takes no more than there
are. -/
theorem floorTotal_bounds (hne : props ≠ []) (hall : ∀ p ∈ props, A.scores p = true) :
    let floors := floorTotal A.toScoreArithmetic total (scoreSum A.toScoreArithmetic props) props
    total - props.length ≤ floors ∧ floors ≤ total := by
  intro floors
  obtain ⟨p₀, hp₀⟩ := List.exists_mem_of_ne_nil props hne
  have hpos : ∃ q ∈ props, A.scores q = true := ⟨p₀, hp₀, hall p₀ hp₀⟩
  have hvalue {p : Proposal F} (hp : p ∈ props) := (A.scores_iff (h.finite p hp)).mp (hall p hp)
  have hwithin := (h.scoreSum_within htotal).2
  have hsum : A.positiveSum props = (props.map fun p => A.value p.score).sum :=
    congrArg List.sum (List.map_congr_left fun p hp => max_eq_left (hvalue hp).le)
  rw [hsum] at hwithin
  let share (p : Proposal F) : ℚ :=
    A.value (proportion A.toScoreArithmetic total (scoreSum A.toScoreArithmetic props) p.score)
  have hnear : |(props.map share).sum - total| < 1 :=
    abs_sum_quotas_sub_lt hne (fun p hp => (hvalue hp).le) (h.share htotal hp₀ hpos).2.2.1
      (by exact_mod_cast htotal) (fun p hp => (h.share htotal hp hpos).2.2.2) hwithin
      roundoff_pos.le underflow_pos.le (h.errors_le htotal)
  have hfloors : (floors : ℤ) = (props.map fun p => ⌊share p⌋).sum := by
    simp only [floors, floorTotal]
    rw [Nat.cast_list_sum, List.map_map]
    refine congrArg List.sum (List.map_congr_left fun p hp => ?_)
    obtain ⟨htoInt, hnonneg⟩ := (h.toInt_share htotal hp hpos).1 (hall p hp)
    exact (Int.toNat_of_nonneg hnonneg).trans htoInt
  rw [hfloors]
  exact sum_floor_bounds hnear

end Shares

end Tame

/-! ## The assignment -/

/-- Remainders are compared by value. -/
def lossMoreValue (A : Float64 F) (r r' : Remainder F) : Bool :=
  decide (A.value r'.frac < A.value r.frac)

instance isStrictWeakOrder_lossMoreValue :
    IsStrictWeakOrder (Remainder F) (lossMoreValue A · ·) :=
  List.isStrictWeakOrder_of_key (fun r => OrderDual.toDual (A.value r.frac)) fun _ _ =>
    decide_eq_true_iff

theorem slice_lossMore {sortStable : SliceSort} (hlocal : sortStable.Local)
    {l : List (Remainder F)} (hfinite : ∀ r ∈ l, A.Finite r.frac) :
    sortStable.slice (lossMore A.toScoreArithmetic) l = sortStable.slice (lossMoreValue A) l := by
  refine hlocal fun r hr r' hr' => ?_
  rw [lossMore, Bool.eq_iff_iff, A.lt_iff (hfinite r' hr') (hfinite r hr)]
  exact decide_eq_true_iff.symm

/-- The sum is of the positive scores. -/
theorem scoreSum_append {l l' : List (Proposal F)} (hl' : ∀ p ∈ l', ¬ A.scores p = true) :
    scoreSum A.toScoreArithmetic (l ++ l') = scoreSum A.toScoreArithmetic l := by
  have hrest (s : F) : l'.foldl (fun sum p =>
      if A.lt A.zero p.score then A.add sum p.score else sum) s = s := by
    induction l' generalizing s with
    | nil => rfl
    | cons p l' ih =>
      rw [List.foldl_cons, if_neg (show ¬ A.lt A.zero p.score = true from hl' p List.mem_cons_self)]
      exact ih (fun q hq => hl' q (List.mem_cons_of_mem p hq)) s
  rw [scoreSum, List.foldl_append]
  exact hrest _

/-- A share that has no whole replica hands out none. -/
theorem wholeReplicas_append {total : ℤ} {sum : F} {l l' : List (Proposal F)}
    (hl' : ∀ p ∈ l', A.toInt (proportion A.toScoreArithmetic total sum p.score) ≤ 0)
    (assign : Table String ℕ) :
    wholeReplicas A.toScoreArithmetic total sum (l ++ l') assign =
      wholeReplicas A.toScoreArithmetic total sum l assign := by
  have hrest (assign : Table String ℕ) :
      wholeReplicas A.toScoreArithmetic total sum l' assign = assign := by
    induction l' generalizing assign with
    | nil => rfl
    | cons p l' ih =>
      have hp := not_lt.mpr (hl' p List.mem_cons_self)
      rw [wholeReplicas, List.foldl_cons, if_neg hp]
      exact ih (fun q hq => hl' q (List.mem_cons_of_mem p hq)) assign
  rw [wholeReplicas, List.foldl_append]
  exact hrest _

theorem floorTotal_append {total : ℤ} {sum : F} {l l' : List (Proposal F)}
    (hl' : ∀ p ∈ l', A.toInt (proportion A.toScoreArithmetic total sum p.score) ≤ 0) :
    floorTotal A.toScoreArithmetic total sum (l ++ l') =
      floorTotal A.toScoreArithmetic total sum l := by
  have hrest : (l'.map fun p =>
      (A.toInt (proportion A.toScoreArithmetic total sum p.score)).toNat).sum = 0 := by
    refine List.sum_eq_zero fun n hn => ?_
    obtain ⟨p, hp, rfl⟩ := List.mem_map.mp hn
    exact Int.toNat_of_nonpos (hl' p hp)
  rw [floorTotal, List.map_append, List.sum_append, hrest, Nat.add_zero, floorTotal]

/-- Proposals that are left out leave tame scores tame, while none of them is the greatest. -/
theorem Tame.sublist {props' : List (Proposal F)} (h : Tame A total props) (htotal : 0 < total)
    (hsub : props'.Sublist props)
    (htop : ∀ q ∈ props, ∃ q' ∈ props', A.value q.score ≤ A.value q'.score) :
    Tame A total props' where
  finite p hp := h.finite p (hsub.subset hp)
  few := by
    refine lt_of_le_of_lt (mul_le_mul_of_nonneg_right ?_ htotal.le) h.few
    exact_mod_cast hsub.length_le
  sum_le := by
    have hsum : A.positiveSum props' ≤ A.positiveSum props := by
      refine (hsub.map _).sum_le_sum fun v hv => ?_
      obtain ⟨p, -, rfl⟩ := List.mem_map.mp hv
      exact le_max_right _ _
    have hlength : (props'.length : ℚ) ≤ props.length := by exact_mod_cast hsub.length_le
    refine (hsum.trans h.sum_le).trans (mul_le_mul_of_nonneg_right ?_ maxBinary64_pos.le)
    linarith [mul_le_mul_of_nonneg_right hlength roundoff_pos.le]
  least p hp := by
    obtain ⟨q, hq, hle⟩ := h.least p (hsub.subset hp)
    obtain ⟨q', hq', hvalue⟩ := htop q hq
    exact ⟨q', hq', hle.trans (mul_le_mul_of_nonneg_left hvalue (by norm_num))⟩

section Append

variable {l l' : List (Proposal F)} (h : Tame A total (l ++ l')) (htotal : 0 < total)
  (hne : l ≠ []) (hl : ∀ p ∈ l, A.scores p = true) (hl' : ∀ p ∈ l', ¬ A.scores p = true)

include h htotal hne hl hl'

/-- What is tame is so without the proposals that have no positive score. -/
theorem Tame.of_append : Tame A total l := by
  obtain ⟨p₀, hp₀⟩ := List.exists_mem_of_ne_nil l hne
  refine h.sublist htotal (List.sublist_append_left l l') fun q hq => ?_
  rcases List.mem_append.mp hq with hmem | hmem
  · exact ⟨q, hmem, le_rfl⟩
  · have hpos := (A.scores_iff (h.finite p₀ (List.mem_append_left _ hp₀))).mp (hl p₀ hp₀)
    have hnonpos := not_lt.mp (mt (A.scores_iff (h.finite q hq)).mpr (hl' q hmem))
    exact ⟨p₀, hp₀, hnonpos.trans hpos.le⟩

/-- In front of the sorted remainders stand those of positive scores. -/
theorem slice_remainders_append {sortStable : StableSlice} (hlocal : sortStable.Local) :
    let remainder := remainderOf A.toScoreArithmetic total (scoreSum A.toScoreArithmetic l)
    sortStable.slice (lossMore A.toScoreArithmetic) ((l ++ l').map remainder) =
      sortStable.slice (lossMore A.toScoreArithmetic) (l.map remainder) ++
        sortStable.slice (lossMore A.toScoreArithmetic) (l'.map remainder) := by
  intro remainder
  obtain ⟨p₀, hp₀⟩ := List.exists_mem_of_ne_nil l hne
  have hpos : ∃ q ∈ l ++ l', A.scores q = true := ⟨p₀, List.mem_append_left _ hp₀, hl p₀ hp₀⟩
  have hfrac {p : Proposal F} (hp : p ∈ l ++ l') := h.frac htotal hp hpos
  simp only [scoreSum_append hl'] at hfrac
  have hfinite {k : List (Proposal F)} (hk : ∀ p ∈ k, p ∈ l ++ l') :
      ∀ r ∈ k.map remainder, A.Finite r.frac := by
    intro r hr
    obtain ⟨p, hp, rfl⟩ := List.mem_map.mp hr
    exact (hfrac (hk p hp)).1
  rw [slice_lossMore hlocal (hfinite fun _ hp => hp),
    slice_lossMore hlocal (hfinite fun _ hp => List.mem_append_left _ hp),
    slice_lossMore hlocal (hfinite fun _ hp => List.mem_append_right _ hp), List.map_append]
  refine (sortStable.stablePerm _).unique ?_
  refine (sortStable.stablePerm _).append (sortStable.stablePerm _) fun r hr r' hr' => ?_
  obtain ⟨p, hp, rfl⟩ := List.mem_map.mp hr
  obtain ⟨p', hp', rfl⟩ := List.mem_map.mp hr'
  have hloss := (hfrac (List.mem_append_left _ hp)).2.1 (hl p hp)
  have hloss' := (hfrac (List.mem_append_right _ hp')).2.2 (hl' p' hp')
  exact decide_eq_false (not_lt.mpr (hloss'.trans hloss))

/-- **Proposals without a positive score do not count**, beside one that has one: with tame scores,
what the others get is what they get alone. -/
theorem assignReplicas_append {sortStable : StableSlice} (hlocal : sortStable.Local) :
    assignReplicas A.toScoreArithmetic sortStable.toSliceSort total (l ++ l') =
      some (oneEach ((sortStable.slice (lossMore A.toScoreArithmetic)
          (l.map (remainderOf A.toScoreArithmetic total (scoreSum A.toScoreArithmetic l)))).take
            (total.toNat - floorTotal A.toScoreArithmetic total
              (scoreSum A.toScoreArithmetic l) l))
        (wholeReplicas A.toScoreArithmetic total (scoreSum A.toScoreArithmetic l) l ∅)) := by
  obtain ⟨p₀, hp₀⟩ := List.exists_mem_of_ne_nil l hne
  have hpos : ∃ q ∈ l ++ l', A.scores q = true := ⟨p₀, List.mem_append_left _ hp₀, hl p₀ hp₀⟩
  have hsame := scoreSum_append (A := A) (l := l) hl'
  have hnone : ∀ p ∈ l', A.toInt (proportion A.toScoreArithmetic total
      (scoreSum A.toScoreArithmetic l) p.score) ≤ 0 := by
    intro p hp
    rw [← hsame]
    exact (h.toInt_share htotal (List.mem_append_right l hp) hpos).2 (hl' p hp)
  -- The sum is positive, so that the shares are handed out.
  have hsum : ¬ A.le (scoreSum A.toScoreArithmetic l) A.zero = true := by
    obtain ⟨hfinite, -⟩ := h.scoreSum_within htotal
    have hpositive := (h.share htotal (List.mem_append_left l' hp₀) hpos).2.2.1
    rw [hsame] at hfinite hpositive
    have hlt : A.lt A.zero (scoreSum A.toScoreArithmetic l) = true := by
      rwa [A.lt_iff A.finite_zero hfinite, A.value_zero]
    rw [A.not_le_zero _ hlt]
    decide
  obtain ⟨hlow, hhigh⟩ :=
    (h.of_append htotal hne hl hl').floorTotal_bounds htotal hne hl
  set left := total.toNat - floorTotal A.toScoreArithmetic total
    (scoreSum A.toScoreArithmetic l) l with hleft
  have hremaining : total - floorTotal A.toScoreArithmetic total
      (scoreSum A.toScoreArithmetic l) l = (left : ℤ) := by omega
  -- The remainders of positive scores are enough for what is left.
  have hfront : left ≤ (sortStable.slice (lossMore A.toScoreArithmetic) (l.map (remainderOf
      A.toScoreArithmetic total (scoreSum A.toScoreArithmetic l)))).length := by
    rw [(sortStable.perm _ _).length_eq, List.length_map]
    omega
  have hsorted := slice_remainders_append h htotal hne hl hl' hlocal
  simp only [assignReplicas, if_neg (not_le.mpr htotal), hsame, if_neg hsum, foldl_firstPass,
    wholeReplicas_append hnone, floorTotal_append hnone, hremaining, Int.toNat_natCast,
    List.nil_append]
  change leftovers (sortStable.slice (lossMore A.toScoreArithmetic) _) _ _ = _
  rw [hsorted, leftovers_of_le (by rw [List.length_append]; omega),
    List.take_append_of_le_length hfront]

end Append

end Beemesh.Workplane

import Beemesh.Lib.Rounding
import Mathlib.Algebra.Order.Round
import Mathlib.Data.Int.Log
import Mathlib.Data.Rat.Floor

/-!
# Binary floating point in 64 bits

The numbers of the format `binary64` of IEEE 754, with rounding to the nearest and ties to even: a
number has a significand of 53 bits and an exponent from -1074 to 971, a result that is out of the
range is infinite, and one near zero is rounded to multiples of the least number. The two zeros of
the format are one number here, the positive one.

## Main definitions

* `IsBinary64 q`: the rational `q` is a number of the format
* `Binary64`: the numbers of the format, the infinities and `NaN`
* `Binary64.round`: the nearest number, or an infinity
* `Binary64.add`, `Binary64.sub`, `Binary64.mul`, `Binary64.div`: arithmetic
* `Binary64.lt`, `Binary64.le`, `Binary64.eq`: comparison

## Main results

* `isBinary64_roundTo`: rounding gives a number of the format
* `roundTo_of_isBinary64`: a number of the format is not rounded
* `rounded_roundTo`: rounding has a relative error of `2 ^ -53` and an absolute one of `2 ^ -1075`
* `rounded_roundTo_of_multiple`: sums and differences have the relative error only
-/

/-! ## Rounding -/

/-- Half a unit in the last place, as a part of a number. -/
def roundoff : ℚ := 1 / 2 ^ 53

/-- Half the least positive number. -/
def underflow : ℚ := 1 / 2 ^ 1075

theorem roundoff_pos : 0 < roundoff := by norm_num [roundoff]

theorem underflow_pos : 0 < underflow := one_div_pos.mpr (by positivity)

theorem half_least : (2 : ℚ) ^ (-1074 : ℤ) / 2 = underflow := by
  rw [underflow, pow_succ _ 1074, zpow_neg, ← one_div, div_div]
  rfl

/-- The nearest integer, and of two of them the even one. -/
def nearestEven (x : ℚ) : ℤ := if Int.fract x = 1 / 2 ∧ Even ⌊x⌋ then ⌊x⌋ else round x

theorem abs_nearestEven_sub_le (x : ℚ) : |nearestEven x - x| ≤ 1 / 2 := by
  unfold nearestEven
  split_ifs with hx
  · rw [abs_sub_comm, Int.self_sub_floor, abs_of_nonneg (Int.fract_nonneg x), hx.1]
  · rw [abs_sub_comm]
    exact abs_sub_round x

@[simp] theorem nearestEven_intCast (n : ℤ) : nearestEven n = n := by
  simp [nearestEven]

/-- The exponent of the last bit of a number of this size. -/
def lastExponent (z : ℚ) : ℤ := max (Int.log 2 |z| - 52) (-1074)

/-- The nearest multiple of the last bit. -/
def roundTo (z : ℚ) : ℚ := nearestEven (z / 2 ^ lastExponent z) * 2 ^ lastExponent z

theorem two_zpow_pos (e : ℤ) : (0 : ℚ) < 2 ^ e := zpow_pos two_pos e

theorem abs_lt_two_zpow (z : ℚ) : |z| < 2 ^ (lastExponent z + 53) := by
  refine (Int.lt_zpow_succ_log_self one_lt_two |z|).trans_le ?_
  refine zpow_le_zpow_right₀ one_le_two ?_
  have hle : Int.log 2 |z| - 52 ≤ lastExponent z := le_max_left _ _
  omega

/-- Rounding loses half of the last bit at most. -/
theorem abs_roundTo_sub_le (z : ℚ) : |roundTo z - z| ≤ 2 ^ lastExponent z / 2 := by
  have hpos := two_zpow_pos (lastExponent z)
  have hsplit : roundTo z - z =
      (nearestEven (z / 2 ^ lastExponent z) - z / 2 ^ lastExponent z) * 2 ^ lastExponent z := by
    rw [roundTo, sub_mul, div_mul_cancel₀ _ hpos.ne']
  rw [hsplit, abs_mul, abs_of_pos hpos]
  calc |(nearestEven (z / 2 ^ lastExponent z) : ℚ) - z / 2 ^ lastExponent z| * 2 ^ lastExponent z
      ≤ 1 / 2 * 2 ^ lastExponent z :=
        mul_le_mul_of_nonneg_right (abs_nearestEven_sub_le _) hpos.le
    _ = 2 ^ lastExponent z / 2 := by ring

/-- A multiple of the last bit is not rounded. -/
theorem roundTo_of_multiple {z : ℚ} {m k : ℤ} (hz : z = m * 2 ^ k) (hk : lastExponent z ≤ k) :
    roundTo z = z := by
  have hpos := two_zpow_pos (lastExponent z)
  obtain ⟨j, hj⟩ := Int.eq_ofNat_of_zero_le (sub_nonneg.mpr hk)
  have hint : z / 2 ^ lastExponent z = ((m * 2 ^ j : ℤ) : ℚ) := by
    rw [div_eq_iff hpos.ne']
    push_cast
    rw [mul_assoc, ← zpow_natCast, ← hj, ← zpow_add₀ two_ne_zero, sub_add_cancel]
    exact hz
  rw [roundTo, hint, nearestEven_intCast, ← hint, div_mul_cancel₀ _ hpos.ne']

theorem lastExponent_eq_of_ne {z : ℚ} (h : lastExponent z ≠ -1074) :
    lastExponent z = Int.log 2 |z| - 52 := by
  rcases max_choice (Int.log 2 |z| - 52) (-1074) with hmax | hmax
  · exact hmax
  · exact absurd hmax h

/-- Where the last bit is not the least number, the loss is relative. -/
theorem abs_roundTo_sub_le_mul {z : ℚ} (hz : z ≠ 0) (h : lastExponent z ≠ -1074) :
    |roundTo z - z| ≤ roundoff * |z| := by
  refine (abs_roundTo_sub_le z).trans ?_
  have hlog := Int.zpow_log_le_self (R := ℚ) one_lt_two (abs_pos.mpr hz)
  rw [lastExponent_eq_of_ne h, zpow_sub₀ two_ne_zero, roundoff]
  norm_num at hlog ⊢
  linarith

/-- Rounding keeps the sign of zero and above. -/
theorem nearestEven_nonneg {x : ℚ} (hx : 0 ≤ x) : 0 ≤ nearestEven x := by
  have hlow := (abs_le.mp (abs_nearestEven_sub_le x)).1
  have hgt : (-1 : ℚ) < nearestEven x := by linarith
  have hgt' : (-1 : ℤ) < nearestEven x := by exact_mod_cast hgt
  omega

theorem nearestEven_nonpos {x : ℚ} (hx : x ≤ 0) : nearestEven x ≤ 0 := by
  have hhigh := (abs_le.mp (abs_nearestEven_sub_le x)).2
  have hlt : (nearestEven x : ℚ) < 1 := by linarith
  have hlt' : nearestEven x < 1 := by exact_mod_cast hlt
  omega

theorem roundTo_nonneg {z : ℚ} (hz : 0 ≤ z) : 0 ≤ roundTo z := by
  have hpos := two_zpow_pos (lastExponent z)
  have hround := nearestEven_nonneg (div_nonneg hz hpos.le)
  exact mul_nonneg (by exact_mod_cast hround) hpos.le

theorem roundTo_nonpos {z : ℚ} (hz : z ≤ 0) : roundTo z ≤ 0 := by
  have hpos := two_zpow_pos (lastExponent z)
  have hround := nearestEven_nonpos (div_nonpos_of_nonpos_of_nonneg hz hpos.le)
  exact mul_nonpos_of_nonpos_of_nonneg (by exact_mod_cast hround) hpos.le

/-- **Rounding** has a relative error, and an absolute one near zero. -/
theorem rounded_roundTo (z : ℚ) : Rounded roundoff underflow z (roundTo z) where
  error := by
    have hrelative : 0 ≤ roundoff * |z| := mul_nonneg roundoff_pos.le (abs_nonneg z)
    by_cases hlast : lastExponent z = -1074
    · have herror := abs_roundTo_sub_le z
      rw [hlast, half_least] at herror
      linarith
    · by_cases hz : z = 0
      · have hzero : roundTo z = z := by simp [hz, roundTo, nearestEven]
        rw [hzero, sub_self, abs_zero]
        exact add_nonneg hrelative underflow_pos.le
      · linarith [abs_roundTo_sub_le_mul hz hlast, underflow_pos]
  nonneg := roundTo_nonneg
  nonpos := roundTo_nonpos

/-- **Multiples of the least number** are rounded with the relative error only. -/
theorem rounded_roundTo_of_multiple {z : ℚ} {m : ℤ} (hz : z = m * 2 ^ (-1074 : ℤ)) :
    Rounded roundoff 0 z (roundTo z) where
  error := by
    rw [add_zero]
    by_cases hexact : roundTo z = z
    · rw [hexact, sub_self, abs_zero]
      exact mul_nonneg roundoff_pos.le (abs_nonneg z)
    · have hlast : lastExponent z ≠ -1074 := fun hlast =>
        hexact (roundTo_of_multiple hz hlast.le)
      have hzero : z ≠ 0 := by
        rintro rfl
        exact hexact (by simp [roundTo, nearestEven])
      exact abs_roundTo_sub_le_mul hzero hlast
  nonneg := roundTo_nonneg
  nonpos := roundTo_nonpos

/-! ## Numbers of the format -/

/-- It has a significand of 53 bits and an exponent of the format. -/
def IsBinary64 (q : ℚ) : Prop :=
  ∃ m k : ℤ, |m| < 2 ^ 53 ∧ -1074 ≤ k ∧ k ≤ 971 ∧ q = m * 2 ^ k

/-- The greatest number. -/
def maxBinary64 : ℚ := (2 ^ 53 - 1) * 2 ^ (971 : ℤ)

/-- From here on the nearest number would be `2 ^ 1024`. -/
def overflow : ℚ := 2 ^ 53 * 2 ^ (971 : ℤ) - 2 ^ (971 : ℤ) / 2

theorem maxBinary64_lt_overflow : maxBinary64 < overflow := by
  have hpos := two_zpow_pos 971
  rw [maxBinary64, overflow]
  generalize (2 : ℚ) ^ (971 : ℤ) = unit at hpos ⊢
  linarith

theorem isBinary64_intCast {n : ℤ} (hn : |n| < 2 ^ 53) : IsBinary64 n :=
  ⟨n, 0, hn, by norm_num, by norm_num, by rw [zpow_zero, mul_one]⟩

theorem isBinary64_zero : IsBinary64 0 := isBinary64_intCast (n := 0) (by norm_num)

theorem IsBinary64.multiple {q : ℚ} (h : IsBinary64 q) : ∃ m : ℤ, q = m * 2 ^ (-1074 : ℤ) := by
  obtain ⟨m, k, -, hk, -, rfl⟩ := h
  obtain ⟨j, hj⟩ := Int.eq_ofNat_of_zero_le (sub_nonneg.mpr hk)
  refine ⟨m * 2 ^ j, ?_⟩
  rw [Int.cast_mul, Int.cast_pow, Int.cast_ofNat, mul_assoc, ← zpow_natCast, ← hj,
    ← zpow_add₀ two_ne_zero, sub_add_cancel]

theorem IsBinary64.abs_le {q : ℚ} (h : IsBinary64 q) : |q| ≤ maxBinary64 := by
  obtain ⟨m, k, hm, -, hk, rfl⟩ := h
  have hm' : (|m| : ℤ) ≤ 2 ^ 53 - 1 := by omega
  have hsignificand : |(m : ℚ)| ≤ 2 ^ 53 - 1 := by exact_mod_cast hm'
  have hexponent : (2 : ℚ) ^ k ≤ 2 ^ (971 : ℤ) := zpow_le_zpow_right₀ one_le_two hk
  rw [abs_mul, abs_of_pos (two_zpow_pos k)]
  exact mul_le_mul hsignificand hexponent (two_zpow_pos k).le (by norm_num)

/-- **A number of the format** is not rounded. -/
theorem roundTo_of_isBinary64 {q : ℚ} (h : IsBinary64 q) : roundTo q = q := by
  obtain ⟨m, k, hm, hk, -, hq⟩ := h
  rcases eq_or_ne q 0 with rfl | hzero
  · simp [roundTo, nearestEven]
  · refine roundTo_of_multiple hq (max_le ?_ hk)
    have hlt : |q| < 2 ^ (k + 53) := by
      have hm' : |(m : ℚ)| < 2 ^ 53 := by exact_mod_cast hm
      rw [hq, abs_mul, abs_of_pos (two_zpow_pos k), add_comm, zpow_add₀ two_ne_zero]
      exact mul_lt_mul_of_pos_right (by exact_mod_cast hm') (two_zpow_pos k)
    have hlog := (Int.lt_zpow_iff_log_lt one_lt_two (abs_pos.mpr hzero)).mp hlt
    omega

theorem abs_nearestEven_le {x : ℚ} {n : ℤ} (hx : |x| ≤ n) : |nearestEven x| ≤ n := by
  obtain ⟨hlow, hhigh⟩ := abs_le.mp hx
  obtain ⟨hlow', hhigh'⟩ := abs_le.mp (abs_nearestEven_sub_le x)
  have hgt : ((-n - 1 : ℤ) : ℚ) < nearestEven x := by
    push_cast
    linarith
  have hlt : (nearestEven x : ℚ) < ((n + 1 : ℤ) : ℚ) := by
    push_cast
    linarith
  rw [Int.cast_lt] at hgt hlt
  exact abs_le.mpr ⟨by omega, by omega⟩

/-- The exponent is in the range of the format. -/
theorem lastExponent_le {z : ℚ} (hz : |z| < overflow) : lastExponent z ≤ 971 := by
  rcases eq_or_ne z 0 with rfl | hzero
  · simp [lastExponent]
  · have hlt : |z| < 2 ^ (1024 : ℤ) := by
      refine hz.trans ?_
      rw [overflow, show (1024 : ℤ) = (53 : ℕ) + 971 from rfl, zpow_add₀ two_ne_zero, zpow_natCast]
      exact sub_lt_self _ (half_pos (two_zpow_pos 971))
    have hlog := (Int.lt_zpow_iff_log_lt one_lt_two (abs_pos.mpr hzero)).mp hlt
    exact max_le (by omega) (by norm_num)

/-- **Rounding** gives a number of the format, as long as it does not overflow. -/
theorem isBinary64_roundTo {z : ℚ} (hz : |z| < overflow) : IsBinary64 (roundTo z) := by
  have hpos := two_zpow_pos (lastExponent z)
  have hlow : -1074 ≤ lastExponent z := le_max_right _ _
  have hhigh := lastExponent_le hz
  have hquotient : |z / 2 ^ lastExponent z| ≤ ((2 ^ 53 : ℤ) : ℚ) := by
    rw [abs_div, abs_of_pos hpos, div_le_iff₀ hpos]
    have hlt := abs_lt_two_zpow z
    rw [add_comm, zpow_add₀ two_ne_zero] at hlt
    exact_mod_cast hlt.le
  have hround := abs_nearestEven_le hquotient
  rcases hround.lt_or_eq with hlt | heq
  · exact ⟨_, _, hlt, hlow, hhigh, rfl⟩
  -- The significand has become `2 ^ 53`: the exponent is one more.
  have hnext : lastExponent z + 1 ≤ 971 := by
    refine Int.add_one_le_iff.mpr (hhigh.lt_of_ne fun hlast => ?_)
    have habs : |roundTo z| = 2 ^ 53 * 2 ^ (971 : ℤ) := by
      rw [roundTo, abs_mul, abs_of_pos hpos, ← Int.cast_abs, heq, hlast,
        Int.cast_pow, Int.cast_ofNat]
    have herror := abs_roundTo_sub_le z
    have hsplit : |roundTo z| ≤ |roundTo z - z| + |z| := by
      simpa using abs_add_le (roundTo z - z) z
    rw [hlast] at herror
    rw [habs] at hsplit
    rw [overflow] at hz
    linarith
  have hdouble : (2 : ℚ) ^ (lastExponent z + 1) = 2 ^ lastExponent z * 2 :=
    zpow_add_one₀ two_ne_zero _
  rcases abs_choice (nearestEven (z / 2 ^ lastExponent z)) with habs | habs
  · refine ⟨2 ^ 52, _, by norm_num, by omega, hnext, ?_⟩
    rw [roundTo, ← habs, heq, hdouble]
    push_cast
    ring
  · refine ⟨-2 ^ 52, _, by norm_num, by omega, hnext, ?_⟩
    rw [roundTo, ← neg_neg (nearestEven _), ← habs, heq, hdouble]
    push_cast
    ring

/-! ## Numbers, infinities and `NaN` -/

/-- A number of the format, an infinity, or `NaN`. -/
inductive Binary64 where
  | finite (q : ℚ) (hq : IsBinary64 q)
  | infinite (negative : Bool)
  | nan

namespace Binary64

/-- The nearest number, or an infinity where the result is out of the range. -/
def round (z : ℚ) : Binary64 :=
  if hz : |z| < overflow then finite (roundTo z) (isBinary64_roundTo hz)
  else infinite (decide (z < 0))

def add : Binary64 → Binary64 → Binary64
  | finite q _, finite r _ => round (q + r)
  | finite _ _, infinite negative => infinite negative
  | infinite negative, finite _ _ => infinite negative
  | infinite negative, infinite negative' =>
      if negative = negative' then infinite negative else nan
  | nan, _ => nan
  | _, nan => nan

def sub : Binary64 → Binary64 → Binary64
  | finite q _, finite r _ => round (q - r)
  | finite _ _, infinite negative => infinite (!negative)
  | infinite negative, finite _ _ => infinite negative
  | infinite negative, infinite negative' =>
      if negative = negative' then nan else infinite negative
  | nan, _ => nan
  | _, nan => nan

def mul : Binary64 → Binary64 → Binary64
  | finite q _, finite r _ => round (q * r)
  | finite q _, infinite negative => if q = 0 then nan else infinite (negative ^^ decide (q < 0))
  | infinite negative, finite q _ => if q = 0 then nan else infinite (negative ^^ decide (q < 0))
  | infinite negative, infinite negative' => infinite (negative ^^ negative')
  | nan, _ => nan
  | _, nan => nan

def div : Binary64 → Binary64 → Binary64
  | finite q _, finite r _ =>
      if r ≠ 0 then round (q / r) else if q = 0 then nan else infinite (decide (q < 0))
  | finite _ _, infinite _ => round 0
  | infinite negative, finite q _ => infinite (negative ^^ decide (q < 0))
  | infinite _, infinite _ => nan
  | nan, _ => nan
  | _, nan => nan

def lt : Binary64 → Binary64 → Bool
  | finite q _, finite r _ => decide (q < r)
  | finite _ _, infinite negative => !negative
  | infinite negative, finite _ _ => negative
  | infinite negative, infinite negative' => negative && !negative'
  | nan, _ => false
  | _, nan => false

def eq : Binary64 → Binary64 → Bool
  | finite q _, finite r _ => decide (q = r)
  | infinite negative, infinite negative' => negative == negative'
  | _, _ => false

def le (x y : Binary64) : Bool := lt x y || eq x y

/-- The nearest number to an integer. -/
def ofInt (n : ℤ) : Binary64 := round n

/-- A number without its fraction, as an integer of 64 bits; out of their range the least one. -/
def toInt : Binary64 → ℤ
  | finite q _ => if |q| < 2 ^ 63 then (if 0 ≤ q then ⌊q⌋ else ⌈q⌉) else -2 ^ 63
  | _ => -2 ^ 63

/-- It is neither infinite nor `NaN`. -/
def Finite : Binary64 → Prop
  | finite _ _ => True
  | _ => False

/-- The number that it is; of an infinity and of `NaN` it does not matter. -/
def value : Binary64 → ℚ
  | finite q _ => q
  | _ => 0

theorem Finite.exists_eq {x : Binary64} (h : x.Finite) : ∃ q hq, x = finite q hq :=
  match x, h with
  | finite q hq, _ => ⟨q, hq, rfl⟩

theorem round_of_lt {z : ℚ} (hz : |z| < overflow) :
    round z = finite (roundTo z) (isBinary64_roundTo hz) := dif_pos hz

/-- A result in the range is a number, and it is the exact one, rounded. -/
theorem rounded_round {u η z : ℚ} (hz : |z| ≤ maxBinary64) (h : Rounded u η z (roundTo z)) :
    (round z).Finite ∧ Rounded u η z (round z).value := by
  rw [round_of_lt (hz.trans_lt maxBinary64_lt_overflow)]
  exact ⟨trivial, h⟩

/-- A number of the format is rounded to itself. -/
theorem value_round {q : ℚ} (hq : IsBinary64 q) : (round q).Finite ∧ (round q).value = q := by
  rw [round_of_lt (hq.abs_le.trans_lt maxBinary64_lt_overflow)]
  exact ⟨trivial, roundTo_of_isBinary64 hq⟩

/-- **Sums** are exact, but for the relative error. -/
theorem rounded_add {q r : ℚ} (hq : IsBinary64 q) (hr : IsBinary64 r) :
    Rounded roundoff 0 (q + r) (roundTo (q + r)) := by
  obtain ⟨m, hm⟩ := hq.multiple
  obtain ⟨n, hn⟩ := hr.multiple
  refine rounded_roundTo_of_multiple (m := m + n) ?_
  rw [Int.cast_add, add_mul, ← hm, ← hn]

/-- **Differences** are exact, but for the relative error. -/
theorem rounded_sub {q r : ℚ} (hq : IsBinary64 q) (hr : IsBinary64 r) :
    Rounded roundoff 0 (q - r) (roundTo (q - r)) := by
  obtain ⟨m, hm⟩ := hq.multiple
  obtain ⟨n, hn⟩ := hr.multiple
  refine rounded_roundTo_of_multiple (m := m - n) ?_
  rw [Int.cast_sub, sub_mul, ← hm, ← hn]

/-- **Integers** of 53 bits are numbers. -/
theorem value_ofInt {n : ℤ} (hn : |n| ≤ 2 ^ 53) : (ofInt n).Finite ∧ (ofInt n).value = n := by
  refine value_round ?_
  rcases hn.lt_or_eq with hlt | heq
  · exact isBinary64_intCast hlt
  · rcases (abs_eq (by norm_num)).mp heq with rfl | rfl
    · exact ⟨2 ^ 52, 1, by norm_num, by norm_num, by norm_num, by norm_num⟩
    · exact ⟨-2 ^ 52, 1, by norm_num, by norm_num, by norm_num, by norm_num⟩

/-- An integer that is not above a number is one, if it is the number where that is an integer. -/
theorem isBinary64_of_abs_le {q : ℚ} (hq : IsBinary64 q) {n : ℤ}
    (hn : |(n : ℚ)| ≤ |q|) (hint : ∀ m : ℤ, q = m → n = m) : IsBinary64 n := by
  have hself := hq
  obtain ⟨m, k, hm, hk, -, hval⟩ := hq
  rcases le_or_gt 0 k with hpos | hneg
  · -- A number with a last bit of one or more is an integer.
    obtain ⟨j, rfl⟩ := Int.eq_ofNat_of_zero_le hpos
    have hcast : q = (m * 2 ^ j : ℤ) := by
      rw [hval, zpow_natCast, Int.cast_mul, Int.cast_pow, Int.cast_ofNat]
    rw [hint _ hcast, ← hcast]
    exact hself
  · refine isBinary64_intCast ?_
    have hone : (2 : ℚ) ^ k ≤ 1 := zpow_le_one_of_nonpos₀ one_le_two hneg.le
    have hle : |(n : ℚ)| ≤ |(m : ℚ)| := by
      refine hn.trans ?_
      rw [hval, abs_mul, abs_of_pos (two_zpow_pos k)]
      exact mul_le_of_le_one_right (abs_nonneg _) hone
    have hle' : |n| ≤ |m| := by exact_mod_cast hle
    exact hle'.trans_lt hm

theorem toInt_of_nonneg {q : ℚ} {hq : IsBinary64 q} (hpos : 0 ≤ q) (hlt : q < 2 ^ 63) :
    (finite q hq).toInt = ⌊q⌋ := by
  rw [toInt, if_pos (by rwa [abs_of_nonneg hpos]), if_pos hpos]

theorem toInt_of_nonpos {q : ℚ} {hq : IsBinary64 q} (hneg : q ≤ 0) (hlt : -2 ^ 63 < q) :
    (finite q hq).toInt = ⌈q⌉ := by
  rw [toInt, if_pos (by rw [abs_of_nonpos hneg]; linarith)]
  split_ifs with hpos
  · have hzero : q = 0 := le_antisymm hneg hpos
    rw [hzero, Int.floor_zero, Int.ceil_zero]
  · rfl

/-- **A number without its fraction** is a number. -/
theorem value_ofInt_toInt {q : ℚ} {hq : IsBinary64 q} (hlt : |q| < 2 ^ 63) :
    (ofInt (finite q hq).toInt).Finite ∧
      (ofInt (finite q hq).toInt).value = (finite q hq).toInt := by
  refine value_round (isBinary64_of_abs_le hq ?_ ?_) <;> rw [abs_lt] at hlt
  · rcases le_total 0 q with hpos | hneg
    · have hfloor : (0 : ℚ) ≤ ⌊q⌋ := by exact_mod_cast Int.floor_nonneg.mpr hpos
      rw [toInt_of_nonneg hpos hlt.2, abs_of_nonneg hfloor, abs_of_nonneg hpos]
      exact Int.floor_le q
    · have hceil : (⌈q⌉ : ℚ) ≤ 0 := by exact_mod_cast Int.ceil_le.mpr (by exact_mod_cast hneg)
      rw [toInt_of_nonpos hneg hlt.1, abs_of_nonpos hceil, abs_of_nonpos hneg]
      exact neg_le_neg (Int.le_ceil q)
  · rintro m rfl
    rcases le_total 0 (m : ℚ) with hpos | hneg
    · rw [toInt_of_nonneg hpos hlt.2, Int.floor_intCast]
    · rw [toInt_of_nonpos hneg hlt.1, Int.ceil_intCast]

/-! ### Order -/

/-- What is less is not at least as great. -/
theorem le_eq_false {x y : Binary64} (h : lt x y = true) : le y x = false := by
  cases x <;> cases y <;> simp_all [le, lt, eq]
  next q _ r _ => exact ⟨h.le, h.ne'⟩

/-- A positive sum is not rounded to zero. -/
theorem round_add_pos {q r : ℚ} (hq : IsBinary64 q) (hr : IsBinary64 r) (hpos : 0 < q + r) :
    lt (finite 0 isBinary64_zero) (round (q + r)) = true := by
  rw [round]
  split_ifs
  · have hlow := (rounded_add hq hr).sub_le hpos.le
    refine decide_eq_true (lt_of_lt_of_le ?_ hlow)
    rw [sub_zero]
    exact mul_pos (by norm_num [roundoff]) hpos
  · simp [lt, hpos.le]

/-- A sum of positive numbers is positive. -/
theorem lt_add {s x : Binary64} (hs : s = finite 0 isBinary64_zero ∨
    lt (finite 0 isBinary64_zero) s = true) (hx : lt (finite 0 isBinary64_zero) x = true) :
    lt (finite 0 isBinary64_zero) (add s x) = true := by
  cases x with
  | finite r hr =>
    have hr0 : 0 < r := of_decide_eq_true hx
    rcases hs with rfl | hs
    · exact round_add_pos isBinary64_zero hr (by rwa [zero_add])
    · cases s with
      | finite q hq => exact round_add_pos hq hr (add_pos (of_decide_eq_true hs) hr0)
      | infinite negative => exact hs
      | nan => cases hs
  | infinite negative =>
    rcases hs with rfl | hs
    · exact hx
    · cases s with
      | finite q hq => exact hx
      | infinite negative' =>
        obtain rfl : negative = negative' := by simp_all [lt]
        rw [add, if_pos rfl]
        exact hx
      | nan => cases hs
  | nan => cases hx

end Binary64

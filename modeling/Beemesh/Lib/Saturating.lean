import Mathlib.Data.BitVec
import Mathlib.Algebra.BigOperators.Group.List.Basic

/-!
# Saturating arithmetic on fixed-width words

Unsigned words of any width with the saturating operations of a systems language: an operation
whose exact result leaves the range stops at the nearest bound. Each operation is described by
its exact value in `ℕ`, so that a proof about words is a proof about naturals and a `min`.

## Main definitions

* `BitVec.saturatingAdd`, `BitVec.saturatingSub`, `BitVec.saturatingMul`

## Main results

* `BitVec.toNat_saturatingAdd`, `BitVec.toNat_saturatingSub`, `BitVec.toNat_saturatingMul`: the
  exact value, cut at the largest word
* `BitVec.toNat_foldl_saturatingAdd`: a saturating sum is the exact sum, cut once
-/

namespace BitVec

variable {w : ℕ}

/-- The word of `n`, or the largest word when `n` does not fit. -/
def saturate (w n : ℕ) : BitVec w := BitVec.ofNat w (min n (2 ^ w - 1))

@[simp] theorem toNat_saturate (w n : ℕ) : (saturate w n).toNat = min n (2 ^ w - 1) := by
  have hpos : 0 < 2 ^ w := Nat.two_pow_pos w
  rw [saturate, BitVec.toNat_ofNat]
  exact Nat.mod_eq_of_lt (by omega)

def saturatingAdd (a b : BitVec w) : BitVec w := saturate w (a.toNat + b.toNat)

def saturatingSub (a b : BitVec w) : BitVec w := saturate w (a.toNat - b.toNat)

def saturatingMul (a b : BitVec w) : BitVec w := saturate w (a.toNat * b.toNat)

@[simp] theorem toNat_saturatingAdd (a b : BitVec w) :
    (a.saturatingAdd b).toNat = min (a.toNat + b.toNat) (2 ^ w - 1) :=
  toNat_saturate w _

@[simp] theorem toNat_saturatingSub (a b : BitVec w) :
    (a.saturatingSub b).toNat = a.toNat - b.toNat := by
  have ha := a.isLt
  rw [saturatingSub, toNat_saturate]
  omega

@[simp] theorem toNat_saturatingMul (a b : BitVec w) :
    (a.saturatingMul b).toNat = min (a.toNat * b.toNat) (2 ^ w - 1) :=
  toNat_saturate w _

/-- A saturating sum from `acc` is the exact sum, cut at the largest word. -/
theorem toNat_foldl_saturatingAdd {α : Type*} (f : α → BitVec w) (l : List α) (acc : BitVec w) :
    (l.foldl (fun a x => a.saturatingAdd (f x)) acc).toNat =
      min (acc.toNat + (l.map fun x => (f x).toNat).sum) (2 ^ w - 1) := by
  induction l generalizing acc with
  | nil =>
    have hacc := acc.isLt
    simp only [List.foldl_nil, List.map_nil, List.sum_nil]
    omega
  | cons x l ih =>
    rw [List.foldl_cons, ih, toNat_saturatingAdd, List.map_cons, List.sum_cons]
    omega

end BitVec

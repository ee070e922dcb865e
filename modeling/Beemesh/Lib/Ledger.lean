import Mathlib.Algebra.Order.BigOperators.Group.Finset
import Mathlib.Algebra.Order.Sub.Basic
import Beemesh.Lib.Table

/-!
# Pledges against a table

A table holds entries with a label and an amount, and some labels carry a pledge besides. A pledge
covers the entries of its label and they cover it: what is committed is, for each label with a
pledge, the larger of the two, and the entries of the other labels. Dropping entries, dropping
pledges and turning the entries of a label into its pledge never commit more.

## Main definitions

* `Ledger.commitment`: what the entries and the pledges commit together

## Main results

* `Ledger.commitment_eq`: by labels
* `Ledger.commitment_retain_le`, `Ledger.commitment_subset_le`: dropping entries and pledges
* `Ledger.commitment_pledge_le`: the entries of a label become its pledge
* `Ledger.commitment_of_covered`: while the entries cover the pledges they are all there is
-/

universe u v

namespace Ledger

open AList

variable {κ : Type u} {α : Type v} {L : Type*} [DecidableEq L]
variable (amount : α → ℕ) (label : α → Option L)

/-- The entries of one label. -/
def held (s : Table κ α) (m : L) : ℕ := (s.labelled label m).total amount

/-- All entries, and of the pledges of `F` what the entries do not cover. -/
def commitment (F : Finset L) (pledge : L → ℕ) (s : Table κ α) : ℕ :=
  s.total amount + ∑ m ∈ F, (pledge m - held amount label s m)

variable {amount label} {F G : Finset L} {pledge : L → ℕ} {s : Table κ α}

/-- By labels: the larger of pledge and entries, and the entries of the other labels. -/
theorem commitment_eq (F : Finset L) (pledge : L → ℕ) (s : Table κ α) :
    commitment amount label F pledge s =
      ∑ m ∈ F, max (pledge m) (held amount label s m) + (s.unlabelled label F).total amount := by
  have hmax : ∑ m ∈ F, max (pledge m) (held amount label s m) =
      ∑ m ∈ F, (pledge m - held amount label s m) + ∑ m ∈ F, held amount label s m := by
    rw [← Finset.sum_add_distrib]
    exact Finset.sum_congr rfl fun m _ => (Nat.sub_add_eq_max _ _).symm
  rw [commitment, total_labels amount label F s, hmax]
  simp only [held]
  omega

theorem held_retain_le (p : κ → α → Bool) (s : Table κ α) (m : L) :
    held amount label (s.retain p) m ≤ held amount label s m := by
  rw [held, labelled, retain_comm]
  exact total_retain_le amount p _

/-- Dropping entries commits no more. -/
theorem commitment_retain_le (p : κ → α → Bool) :
    commitment amount label F pledge (s.retain p) ≤ commitment amount label F pledge s := by
  rw [commitment_eq, commitment_eq]
  -- By labels each part shrinks by itself; in the sums a pledge would stand uncovered.
  refine Nat.add_le_add (Finset.sum_le_sum fun m _ => ?_) ?_
  · exact max_le_max le_rfl (held_retain_le p s m)
  · rw [unlabelled, retain_comm]
    exact total_retain_le amount p _

/-- Dropping pledges commits no more. -/
theorem commitment_subset_le (h : F ⊆ G) :
    commitment amount label F pledge s ≤ commitment amount label G pledge s :=
  Nat.add_le_add_left (Finset.sum_le_sum_of_subset h) _

/-- Turning the entries of a label into its pledge, beside the one it has, commits no more. -/
theorem commitment_pledge_le {pledge' : L → ℕ} {m : L}
    (hm : pledge' m ≤ max (if m ∈ F then pledge m else 0) (held amount label s m))
    (hother : ∀ m' ≠ m, pledge' m' = pledge m') :
    commitment amount label (insert m F) pledge' s ≤ commitment amount label F pledge s := by
  refine Nat.add_le_add_left ?_ _
  -- A label with a pledge keeps the larger one; a new one is covered by its entries.
  by_cases hF : m ∈ F
  · rw [if_pos hF] at hm
    rw [Finset.insert_eq_of_mem hF]
    refine Finset.sum_le_sum fun m' _ => ?_
    rcases eq_or_ne m' m with rfl | hne
    · omega
    · rw [hother m' hne]
  · rw [if_neg hF] at hm
    rw [Finset.sum_insert hF]
    have hnone : pledge' m - held amount label s m = 0 := by omega
    rw [hnone, zero_add]
    refine Finset.sum_le_sum fun m' hm' => ?_
    rw [hother m' fun heq => hF (heq ▸ hm')]

/-- While the entries cover the pledges, they are all that is committed. -/
theorem commitment_of_covered (h : ∀ m ∈ F, pledge m ≤ held amount label s m) :
    commitment amount label F pledge s = s.total amount := by
  rw [commitment, Finset.sum_eq_zero fun m hm => Nat.sub_eq_zero_of_le (h m hm), add_zero]

/-- The pledges, and the entries of the other labels, are within the commitment. -/
theorem pledges_le_commitment :
    ∑ m ∈ F, pledge m + (s.unlabelled label F).total amount ≤
      commitment amount label F pledge s := by
  rw [commitment_eq]
  exact Nat.add_le_add_right (Finset.sum_le_sum fun m _ => le_max_left _ _) _

/-! ## Writing entries -/

/-- The entries of a label, as a total over the whole table. -/
theorem held_eq_total (s : Table κ α) (m : L) :
    held amount label s m = s.total fun a => if label a = some m then amount a else 0 := by
  simp only [held, labelled, total, entries_retain]
  induction s.entries with
  | nil => rfl
  | cons e entries ih => by_cases he : label e.2 = some m <;> simp [he, ih]

section Write

variable [DecidableEq κ]

/-- A new entry commits at most its amount more. -/
theorem commitment_insert_le {k : κ} (h : s.lookup k = none) (a : α) :
    commitment amount label F pledge (s.insert k a) ≤
      amount a + commitment amount label F pledge s := by
  have hnew := AList.lookup_eq_none.mp h
  rw [commitment, total_insert_of_notMem amount a hnew, commitment, add_assoc]
  refine Nat.add_le_add_left (Nat.add_le_add_left (Finset.sum_le_sum fun m _ => ?_) _) _
  -- The entries of each label only grow, so less of its pledge is uncovered.
  rw [held_eq_total, held_eq_total, total_insert_of_notMem _ a hnew]
  omega

/-- Replacing an entry by one of the same label and amount commits the same. -/
theorem commitment_insert_of_lookup {k : κ} {a a' : α} (h : s.lookup k = some a)
    (hamount : amount a' = amount a) (hlabel : label a' = label a) :
    commitment amount label F pledge (s.insert k a') = commitment amount label F pledge s := by
  have hheld (m : L) : held amount label (s.insert k a') m = held amount label s m := by
    rw [held_eq_total, held_eq_total]
    exact total_insert_of_lookup _ h (by rw [hamount, hlabel])
  rw [commitment, commitment, total_insert_of_lookup amount h hamount]
  simp only [hheld]

end Write

end Ledger

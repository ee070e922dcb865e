import Mathlib.Data.List.Induction

/-!
# Sliding windows

Items are presented one after the other, each with a key and a time, and an item is admitted when
its key is valid and none of the same key was admitted within a window before it. Here is what is
admitted, as a list that only grows: what becomes of an item is told by the items that were admitted
before it, and of these only the ones with its key matter.

## Main definitions

* `Recent`: an item of the same key was admitted within the window
* `Admits`, `admitted`: what is admitted after what was, and what is admitted in all

## Main results

* `mem_admitted_iff`: an item is admitted as what comes before it says
* `admitted_of_not_admits`: an item that is not admitted leaves nothing behind
* `admitted_filter`, `recent_filter`: keys do not interfere
-/

namespace Window

variable {α κ : Type*} (key : α → κ) (time : α → ℕ) (valid : κ → Prop) (window : ℕ)

/-- An item with the key of `a` was admitted no longer than the window before `a`. -/
def Recent (log : List α) (a : α) : Prop :=
  ∃ b ∈ log, key b = key a ∧ time a - time b ≤ window

/-- The item is admitted after those of the log. -/
def Admits (log : List α) (a : α) : Prop := valid (key a) ∧ ¬ Recent key time window log a

open scoped Classical in
/-- What is admitted of the items, in their order. -/
noncomputable def admitted (items : List α) : List α :=
  items.foldl (fun log a => if Admits key time valid window log a then log ++ [a] else log) []

variable {key time valid window}

open scoped Classical in
theorem admitted_snoc (items : List α) (a : α) :
    admitted key time valid window (items ++ [a]) =
      if Admits key time valid window (admitted key time valid window items) a then
        admitted key time valid window items ++ [a]
      else admitted key time valid window items := by
  rw [admitted, List.foldl_append]
  rfl

/-- One more item of the log counts for the items with its key. -/
theorem recent_snoc {log : List α} {a b : α} :
    Recent key time window (log ++ [b]) a ↔ Recent key time window log a ∨
      key b = key a ∧ time a - time b ≤ window := by
  simp only [Recent, List.mem_append, List.mem_singleton, or_and_right, exists_or, exists_eq_left]

/-- Where an item can stand in a list with one more item at its end. -/
theorem exists_split_snoc {items : List α} {a b : α} {p : List α → Prop} :
    (∃ before after, items ++ [b] = before ++ a :: after ∧ p before) ↔
      (∃ before after, items = before ++ a :: after ∧ p before) ∨ a = b ∧ p items := by
  constructor
  · rintro ⟨before, after, hsplit, hp⟩
    rcases List.eq_nil_or_concat after with rfl | ⟨after, c, rfl⟩
    · obtain ⟨rfl, rfl⟩ := List.append_singleton_inj.mp hsplit
      exact .inr ⟨rfl, hp⟩
    · rw [List.concat_eq_append, ← List.cons_append, ← List.append_assoc] at hsplit
      obtain ⟨rfl, -⟩ := List.append_singleton_inj.mp hsplit
      exact .inl ⟨before, after, rfl, hp⟩
  · rintro (⟨before, after, rfl, hp⟩ | ⟨rfl, hp⟩)
    · exact ⟨before, after ++ [b], by rw [List.append_assoc, List.cons_append], hp⟩
    · exact ⟨items, [], rfl, hp⟩

/-- **An item is admitted as what comes before it says.** -/
theorem mem_admitted_iff {items : List α} {a : α} :
    a ∈ admitted key time valid window items ↔ ∃ before after, items = before ++ a :: after ∧
      Admits key time valid window (admitted key time valid window before) a := by
  induction items using List.reverseRecOn with
  | nil => simp [admitted]
  | append_singleton items b ih =>
    rw [exists_split_snoc, ← ih, admitted_snoc]
    split_ifs with hadmits
    · rw [List.mem_append, List.mem_singleton]
      exact or_congr_right ⟨fun h => ⟨h, h ▸ hadmits⟩, And.left⟩
    · exact (or_iff_left fun ⟨h, ha⟩ => hadmits (h ▸ ha)).symm

/-- **An item that is not admitted leaves nothing behind.** -/
theorem admitted_of_not_admits {before : List α} {a : α}
    (h : ¬ Admits key time valid window (admitted key time valid window before) a)
    (after : List α) :
    admitted key time valid window (before ++ a :: after) =
      admitted key time valid window (before ++ after) := by
  have hsame : admitted key time valid window (before ++ [a]) =
      admitted key time valid window before := by
    rw [admitted_snoc, if_neg h]
  rw [← List.singleton_append, ← List.append_assoc, admitted, List.foldl_append, ← admitted, hsame,
    admitted, ← List.foldl_append, ← admitted]

/-! ## Keys -/

section Keys

variable {p : κ → Bool}

/-- Only what has the key of an item can stand in its way. -/
theorem recent_filter {log : List α} {a : α} (ha : p (key a) = true) :
    Recent key time window (log.filter fun b => p (key b)) a ↔ Recent key time window log a := by
  constructor
  · rintro ⟨b, hb, hkey, hwindow⟩
    exact ⟨b, (List.mem_filter.mp hb).1, hkey, hwindow⟩
  · rintro ⟨b, hb, hkey, hwindow⟩
    exact ⟨b, List.mem_filter.mpr ⟨hb, hkey.symm ▸ ha⟩, hkey, hwindow⟩

/-- **Keys do not interfere**: what is admitted of the items with some keys is what of them is
admitted among all. -/
theorem admitted_filter (items : List α) :
    admitted key time valid window (items.filter fun a => p (key a)) =
      (admitted key time valid window items).filter fun a => p (key a) := by
  induction items using List.reverseRecOn with
  | nil => rfl
  | append_singleton items a ih =>
    rw [List.filter_append, admitted_snoc]
    cases ha : p (key a) with
    | false =>
      rw [List.filter_cons_of_neg (by simp [ha]), List.filter_nil, List.append_nil, ih]
      split_ifs
      · rw [List.filter_append, List.filter_cons_of_neg (by simp [ha]), List.filter_nil,
          List.append_nil]
      · rfl
    | true =>
      have hadmits : Admits key time valid window
          ((admitted key time valid window items).filter fun b => p (key b)) a ↔
          Admits key time valid window (admitted key time valid window items) a :=
        and_congr_right fun _ => not_congr (recent_filter ha)
      rw [List.filter_cons_of_pos (by simpa using ha), List.filter_nil, admitted_snoc, ih]
      by_cases h : Admits key time valid window (admitted key time valid window items) a
      · rw [if_pos (hadmits.mpr h), if_pos h, List.filter_append,
          List.filter_cons_of_pos (by simpa using ha), List.filter_nil]
      · rw [if_neg (mt hadmits.mp h), if_neg h]

end Keys

end Window

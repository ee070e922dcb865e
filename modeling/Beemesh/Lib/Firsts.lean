import Mathlib.Data.List.Nodup

/-!
# First occurrences

A list is gone through once, and of each key the first member is kept.

## Main definitions

* `List.retainNew`: the members whose key is new

## Main results

* `List.mem_retainNew`: what is kept are the first members of their keys
* `List.nodup_map_retainNew`: the keys of what is kept are distinct
* `List.mem_map_retainNew`: and they are all keys of the list
* `List.retainNew_append`: members with distinct keys in front of a list are kept
* `List.filter_key_eq_singleton`: where keys are distinct, a member is the only one with its key
-/

namespace List

variable {α κ : Type*} [DecidableEq κ] {key : α → κ}

/-- The members with a key that is not in `seen`, and that none before them has. -/
def retainNew (key : α → κ) : List κ → List α → List α
  | _, [] => []
  | seen, a :: l =>
    if key a ∈ seen then retainNew key seen l else a :: retainNew key (key a :: seen) l

theorem retainNew_sublist (seen : List κ) (l : List α) : retainNew key seen l <+ l := by
  induction l generalizing seen with
  | nil => exact .slnil
  | cons a l ih =>
    rw [retainNew]
    split_ifs
    · exact (ih seen).cons a
    · exact (ih _).cons_cons a

/-- **What is kept** are the first members of their keys. -/
theorem mem_retainNew {seen : List κ} {l : List α} {a : α} :
    a ∈ retainNew key seen l ↔ key a ∉ seen ∧ l.find? (fun b => key b = key a) = some a := by
  -- By the recursion of `retainNew`: the head is the first of its key.
  induction l generalizing seen with
  | nil => simp [retainNew]
  | cons b l ih =>
    rw [retainNew]
    by_cases hkey : key b = key a
    · rw [find?_cons_of_pos (by simpa using hkey), Option.some.injEq]
      split_ifs with hseen
      · rw [ih]
        exact iff_of_false (fun h => h.1 (hkey ▸ hseen)) fun h => h.1 (hkey ▸ hseen)
      · rw [mem_cons, ih, ← hkey, and_iff_right hseen, eq_comm]
        exact or_iff_left fun h => h.1 mem_cons_self
    · rw [find?_cons_of_neg (by simpa using hkey)]
      have hne : a ≠ b := fun h => hkey (congrArg key h.symm)
      split_ifs with hseen
      · exact ih
      · rw [mem_cons, or_iff_right hne, ih, mem_cons, or_iff_right (Ne.symm hkey)]

/-- The keys of what is kept are distinct. -/
theorem nodup_map_retainNew (seen : List κ) (l : List α) :
    ((retainNew key seen l).map key).Nodup := by
  induction l generalizing seen with
  | nil => exact nodup_nil
  | cons a l ih =>
    rw [retainNew]
    split_ifs
    · exact ih seen
    · rw [map_cons, nodup_cons]
      refine ⟨?_, ih _⟩
      -- What is kept after the head has another key.
      intro hmem
      obtain ⟨b, hb, hkey⟩ := mem_map.mp hmem
      exact (mem_retainNew.mp hb).1 (hkey ▸ mem_cons_self)

/-- They are the keys of the list that are not seen before. -/
theorem mem_map_retainNew {seen : List κ} {l : List α} {k : κ} :
    k ∈ (retainNew key seen l).map key ↔ k ∉ seen ∧ k ∈ l.map key := by
  constructor
  · intro hk
    obtain ⟨a, ha, rfl⟩ := mem_map.mp hk
    exact ⟨(mem_retainNew.mp ha).1, mem_map_of_mem ((retainNew_sublist seen l).subset ha)⟩
  · rintro ⟨hseen, hk⟩
    obtain ⟨a, ha, rfl⟩ := mem_map.mp hk
    obtain ⟨b, hb⟩ : ∃ b, l.find? (fun b => key b = key a) = some b :=
      Option.isSome_iff_exists.mp (find?_isSome.mpr ⟨a, ha, by simp⟩)
    have hkey : key b = key a := by simpa using find?_some hb
    refine mem_map.mpr ⟨b, mem_retainNew.mpr ⟨hkey ▸ hseen, ?_⟩, hkey⟩
    rw [hkey]
    exact hb

/-- **Members with distinct keys** in front of a list are kept. -/
theorem retainNew_append {seen : List κ} {l : List α} (l' : List α) (hl : (l.map key).Nodup)
    (hseen : ∀ a ∈ l, key a ∉ seen) :
    ∃ rest, retainNew key seen (l ++ l') = l ++ rest ∧ rest <+ l' := by
  induction l generalizing seen with
  | nil => exact ⟨_, rfl, retainNew_sublist seen l'⟩
  | cons a l ih =>
    obtain ⟨ha, hl⟩ := nodup_cons.mp hl
    have hseen' : ∀ b ∈ l, key b ∉ key a :: seen := by
      intro b hb hmem
      rcases mem_cons.mp hmem with heq | hmem
      · exact ha (heq ▸ mem_map_of_mem hb)
      · exact hseen b (mem_cons_of_mem a hb) hmem
    obtain ⟨rest, hrest, hsub⟩ := ih hl hseen'
    refine ⟨rest, ?_, hsub⟩
    rw [cons_append, retainNew, if_neg (hseen a mem_cons_self), hrest, cons_append]

/-- Where the keys are distinct, a member is the only one with its key. -/
theorem filter_key_eq_singleton {l : List α} (hl : (l.map key).Nodup) {a : α} (ha : a ∈ l) :
    (l.filter fun b => key b = key a) = [a] := by
  induction l with
  | nil => cases ha
  | cons b l ih =>
    rw [map_cons, nodup_cons] at hl
    by_cases hkey : key b = key a
    · have hrest : l.filter (fun c => key c = key a) = [] := by
        rw [filter_eq_nil_iff]
        intro c hc hca
        exact hl.1 (hkey ▸ of_decide_eq_true hca ▸ mem_map_of_mem hc)
      have hab : a = b := (mem_cons.mp ha).resolve_right fun h => hl.1 (hkey ▸ mem_map_of_mem h)
      rw [filter_cons_of_pos (by simpa using hkey), hrest, hab]
    · have hne : a ≠ b := fun h => hkey (congrArg key h.symm)
      rw [filter_cons_of_neg (by simpa using hkey)]
      exact ih hl.2 ((mem_cons.mp ha).resolve_left hne)

end List

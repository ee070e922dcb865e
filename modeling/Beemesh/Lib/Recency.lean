import Mathlib.Data.List.Induction
import Mathlib.Data.List.Nodup
import Mathlib.Data.List.Perm.Basic
import Mathlib.Order.Basic

/-!
# What was seen last

A history of keys with times leaves the keys that it has, the one that came last in front, each with
the last time that it came. A cache of the least recently used kind holds a front of this list: what
comes again moves to the front, and what is new pushes the last one out.

## Main definitions

* `Recency.touch`: a key comes
* `Recency.recents`: what a history leaves
* `Recency.lastTime`: when a key came last

## Main results

* `Recency.map_fst_recents`: the keys of a history, from the end, each once
* `Recency.lastTime_of_mem_recents`: the times are those at which the keys came last
* `Recency.take_touch_of_mem`, `Recency.take_touch_of_notMem`: what a key does to the front
* `Recency.perm_dropLast_of_oldest`: what is left when the oldest goes
-/

namespace Recency

variable {κ : Type*} [DecidableEq κ]

/-- A key comes, at a time: it is in front. -/
def touch (recents : List (κ × ℕ)) (e : κ × ℕ) : List (κ × ℕ) :=
  e :: recents.filter fun e' => e'.1 ≠ e.1

/-- What a history leaves. -/
def recents (history : List (κ × ℕ)) : List (κ × ℕ) := history.foldl touch []

/-- When a key came last. -/
def lastTime (history : List (κ × ℕ)) (k : κ) : Option ℕ :=
  (history.filter fun e => e.1 = k).getLast?.map Prod.snd

variable {history : List (κ × ℕ)} {e : κ × ℕ}

theorem recents_concat (history : List (κ × ℕ)) (e : κ × ℕ) :
    recents (history ++ [e]) = touch (recents history) e := by
  rw [recents, List.foldl_append]
  rfl

/-! ## Keys -/

theorem filter_eraseDups (p : κ → Bool) (l : List κ) :
    (l.filter p).eraseDups = l.eraseDups.filter p := by
  induction hn : l.length using Nat.strongRecOn generalizing l with
  | ind n ih =>
    cases l with
    | nil => rfl
    | cons a l =>
      have hless : (l.filter fun b => !b == a).length < n := by
        have hle := List.length_filter_le (fun b => !b == a) l
        rw [List.length_cons] at hn
        omega
      rw [List.eraseDups_cons, List.filter_cons, List.filter_cons, ← ih _ hless _ rfl,
        List.filter_filter]
      split_ifs with ha
      · rw [List.eraseDups_cons, List.filter_filter]
        simp only [Bool.and_comm]
      · -- `a` is none of what passes the test.
        congr 1
        refine List.filter_congr fun b _ => ?_
        by_cases hb : b = a
        · subst hb
          simp [ha]
        · simp [hb]

/-- **The keys** of a history, from the end, each once. -/
theorem map_fst_recents (history : List (κ × ℕ)) :
    (recents history).map Prod.fst = (history.map Prod.fst).reverse.eraseDups := by
  induction history using List.reverseRecOn with
  | nil => rfl
  | append_singleton history e ih =>
    have hfilter : ((recents history).filter fun e' => e'.1 ≠ e.1).map Prod.fst =
        ((recents history).map Prod.fst).filter fun k => !k == e.1 := by
      rw [List.filter_map]
      refine congrArg _ (List.filter_congr fun e' _ => ?_)
      exact decide_not.trans rfl
    rw [recents_concat, touch, List.map_cons, hfilter, ih, List.map_append, List.reverse_append,
      ← filter_eraseDups]
    exact List.eraseDups_cons.symm

theorem nodup_recents (history : List (κ × ℕ)) : ((recents history).map Prod.fst).Nodup := by
  induction history using List.reverseRecOn with
  | nil => exact List.nodup_nil
  | append_singleton history e ih =>
    rw [recents_concat, touch, List.map_cons, List.nodup_cons]
    refine ⟨?_, ih.sublist (List.filter_sublist.map _)⟩
    intro hmem
    obtain ⟨e', he', heq⟩ := List.mem_map.mp hmem
    exact absurd heq (of_decide_eq_true (List.mem_filter.mp he').2)

/-! ## Times -/

/-- **The times** are those at which the keys came last. -/
theorem lastTime_of_mem_recents {k : κ} {t : ℕ} (h : (k, t) ∈ recents history) :
    lastTime history k = some t := by
  induction history using List.reverseRecOn with
  | nil => exact nomatch h
  | append_singleton history e ih =>
    rw [recents_concat, touch] at h
    rw [lastTime, List.filter_append]
    rcases List.mem_cons.mp h with rfl | h
    · simp
    · -- Another key came last.
      obtain ⟨hmem, hne⟩ := List.mem_filter.mp h
      have hne : ¬ e.1 = k := fun heq => of_decide_eq_true hne heq.symm
      rw [List.filter_singleton, decide_eq_false hne]
      simpa [lastTime] using ih hmem

theorem mem_of_mem_recents (h : e ∈ recents history) : e ∈ history := by
  induction history using List.reverseRecOn with
  | nil => exact nomatch h
  | append_singleton history e' ih =>
    rw [recents_concat, touch] at h
    rcases List.mem_cons.mp h with rfl | h
    · simp
    · exact List.mem_append_left _ (ih (List.mem_of_mem_filter h))

/-- Where time goes on, what is in front came later. -/
theorem pairwise_recents (h : history.Pairwise fun a b => a.2 < b.2) :
    (recents history).Pairwise fun a b => b.2 < a.2 := by
  induction history using List.reverseRecOn with
  | nil => exact List.Pairwise.nil
  | append_singleton history e ih =>
    obtain ⟨hbefore, -, hlast⟩ := List.pairwise_append.mp h
    rw [recents_concat, touch, List.pairwise_cons]
    refine ⟨?_, (ih hbefore).filter _⟩
    intro e' he'
    exact hlast e' (mem_of_mem_recents (List.mem_of_mem_filter he')) e List.mem_cons_self

/-! ## The front -/

variable {l : List (κ × ℕ)} {c : ℕ}

/-- Of distinct keys, one that is there is taken out. -/
theorem length_filter_ne (hl : (l.map Prod.fst).Nodup) {k : κ} (hk : k ∈ l.map Prod.fst) :
    (l.filter fun e => e.1 ≠ k).length + 1 = l.length := by
  induction l with
  | nil => exact nomatch hk
  | cons e l ih =>
    obtain ⟨hnot, hl⟩ := List.nodup_cons.mp hl
    rcases List.mem_cons.mp hk with rfl | hk
    · have hall : l.filter (fun e' => e'.1 ≠ e.1) = l := by
        refine List.filter_eq_self.mpr fun e' he' => decide_eq_true ?_
        exact fun heq => hnot (heq ▸ List.mem_map_of_mem he')
      rw [List.filter_cons_of_neg (by simp), hall, List.length_cons]
    · have hne : e.1 ≠ k := fun heq => hnot (heq ▸ hk)
      rw [List.filter_cons_of_pos (by simpa using hne), List.length_cons, List.length_cons,
        ih hl hk]

/-- **A key of the front comes**: the front has it in front. -/
theorem take_touch_of_mem (hl : (l.map Prod.fst).Nodup) (he : e.1 ∈ (l.take c).map Prod.fst) :
    (touch l e).take c = e :: (l.take c).filter fun e' => e'.1 ≠ e.1 := by
  have hnodup : ((l.take c).map Prod.fst).Nodup :=
    hl.sublist ((List.take_sublist c l).map _)
  have hlength := length_filter_ne hnodup he
  cases c with
  | zero => exact nomatch he
  | succ c =>
    rw [touch, List.take_succ_cons]
    congr 1
    nth_rewrite 1 [← List.take_append_drop (c + 1) l]
    rw [List.filter_append]
    rw [List.length_take] at hlength
    rcases Nat.lt_or_ge l.length (c + 1) with hshort | hlong
    · -- The front is all there is.
      rw [List.drop_eq_nil_of_le (Nat.le_of_lt hshort), List.filter_nil, List.append_nil]
      exact List.take_of_length_le (by omega)
    · rw [List.take_append_of_le_length (by omega)]
      exact List.take_of_length_le (by omega)

/-- **A key that is not in the front comes**: the front has it in front, and loses its last one if
it was full. -/
theorem take_touch_of_notMem (he : e.1 ∉ (l.take (c + 1)).map Prod.fst) :
    (touch l e).take (c + 1) = e :: l.take c := by
  have hfront : (l.take (c + 1)).filter (fun e' => e'.1 ≠ e.1) = l.take (c + 1) := by
    refine List.filter_eq_self.mpr fun e' he' => decide_eq_true ?_
    exact fun heq => he (heq ▸ List.mem_map_of_mem he')
  rw [touch, List.take_succ_cons]
  congr 1
  nth_rewrite 1 [← List.take_append_drop (c + 1) l]
  rw [List.filter_append, hfront]
  -- Where the front is all there is, it had room for one more.
  rcases Nat.lt_or_ge l.length (c + 1) with hshort | hlong
  · rw [List.drop_eq_nil_of_le (Nat.le_of_lt hshort), List.filter_nil, List.append_nil,
      List.take_take]
    congr 1
    omega
  · rw [List.take_append_of_le_length (by rw [List.length_take]; omega), List.take_take]
    congr 1
    omega

omit [DecidableEq κ] in
/-- **What is left when the oldest goes** from a list that has the later ones in front: all but the
last one. -/
theorem perm_dropLast_of_oldest (hl : l.Pairwise fun a b => b.2 < a.2) {rest : List (κ × ℕ)}
    (hperm : (e :: rest).Perm l) (hold : ∀ e' ∈ rest, e.2 ≤ e'.2) : rest.Perm l.dropLast := by
  have hne : l ≠ [] := by
    rintro rfl
    exact absurd hperm.length_eq (by simp)
  have hlast : l.getLast hne = e := by
    have he : e ∈ l := hperm.mem_iff.mp List.mem_cons_self
    have hmem : l.getLast hne ∈ e :: rest := hperm.mem_iff.mpr (List.getLast_mem hne)
    rw [← List.dropLast_append_getLast hne] at hl he
    rcases List.mem_append.mp he with he | he
    · -- Something came before `e`.
      have hless := (List.pairwise_append.mp hl).2.2 e he _ List.mem_cons_self
      rcases List.mem_cons.mp hmem with heq | hrest
      · rw [heq] at hless
        exact absurd hless (Nat.lt_irrefl _)
      · exact absurd hless (Nat.not_lt.mpr (hold _ hrest))
    · exact (List.mem_singleton.mp he).symm
  have hsplit : (e :: rest).Perm (e :: l.dropLast) := by
    refine hperm.trans ?_
    nth_rewrite 1 [← List.dropLast_append_getLast hne]
    rw [hlast]
    exact List.perm_append_singleton e l.dropLast
  exact hsplit.cons_inv

end Recency

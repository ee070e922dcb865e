import Mathlib.Data.List.AList
import Mathlib.Algebra.Order.BigOperators.Group.List
import Mathlib.Algebra.Order.BigOperators.Group.Finset
import Mathlib.Tactic.Abel

/-!
# Finite tables and their totals

A table is a finite map with a fixed value type: Mathlib's `AList`, used where a program has a
hash map. To what Mathlib has for lookup, insertion and erasure this adds `retain`, which keeps
the entries that pass a test, `mapValues`, which changes every value, and the total of a measure
over the entries. Totals are taken in a
canonically ordered additive monoid, so that keeping fewer entries never raises a total.

## Main definitions

* `Table κ α`: finite maps from `κ` to `α`
* `AList.retain p s`: the entries of `s` that pass `p`
* `AList.mapValues f s`: the entries of `s`, with `f` of their values
* `AList.under history k`, `AList.Collects`: what came under a key, and a table of this
* `AList.total f s`: the sum of `f` over the entries of `s`
* `AList.bump s k a`: adds `a` to the entry of `k`, which is zero where there is none

## Main results

* `AList.lookup_retain`, `AList.lookup_mapValues`: lookup after `retain` and `mapValues`
* `AList.Collects.insert`: a value that comes under a key is added to its list
* `AList.total_insert_of_notMem`, `AList.total_insert_of_lookup`: a new entry adds its measure,
  and replacing an entry by one of the same measure keeps the total
* `AList.total_of_single`: the total of a table with one entry at most
* `AList.sum_entries_of_key`: of all entries, that of a key counts for it
* `AList.total_bump`, `AList.getD_lookup_bump`: what is added to an entry is added to the sum of the
  entries, and to no other entry
* `AList.total_retain_le`: keeping fewer entries never raises the total
* `AList.total_retain_split`, `AList.total_labels`: totals split along a test, and along the
  labels of a finite set
-/

universe u v

/-- Finite maps from `κ` to `α`. -/
abbrev Table (κ : Type u) (α : Type v) := AList (fun _ : κ => α)

namespace AList

variable {κ : Type u} {α : Type v}

/-- The entries of `s` that pass `p`. -/
def retain (p : κ → α → Bool) (s : Table κ α) : Table κ α :=
  ⟨s.entries.filter fun e => p e.1 e.2, s.nodupKeys.sublist List.filter_sublist⟩

@[simp] theorem entries_retain (p : κ → α → Bool) (s : Table κ α) :
    (s.retain p).entries = s.entries.filter fun e => p e.1 e.2 := rfl

theorem retain_retain (p q : κ → α → Bool) (s : Table κ α) :
    (s.retain p).retain q = s.retain fun k a => p k a && q k a :=
  AList.ext (by simp [Bool.and_comm])

theorem retain_comm (p q : κ → α → Bool) (s : Table κ α) :
    (s.retain p).retain q = (s.retain q).retain p := by
  rw [retain_retain, retain_retain]
  simp only [Bool.and_comm]

theorem retain_congr {p q : κ → α → Bool} {s : Table κ α}
    (h : ∀ e ∈ s.entries, p e.1 e.2 = q e.1 e.2) : s.retain p = s.retain q :=
  AList.ext (List.filter_congr h)

/-- The entries of `s`, with `f` of their values. -/
def mapValues {β : Type*} (f : α → β) (s : Table κ α) : Table κ β :=
  ⟨s.entries.map fun e => ⟨e.1, f e.2⟩, by
    have hkeys : (s.entries.map fun e => (⟨e.1, f e.2⟩ : Sigma fun _ : κ => β)).keys =
        s.entries.keys := by
      simp [List.keys, Function.comp_def]
    rw [List.NodupKeys, hkeys]
    exact s.nodupKeys⟩

section Lookup

variable [DecidableEq κ]

theorem mem_entries_iff {s : Table κ α} {k : κ} {a : α} :
    (⟨k, a⟩ : Sigma fun _ : κ => α) ∈ s.entries ↔ s.lookup k = some a :=
  AList.mem_lookup_iff.symm

/-- Lookup in a table of one entry. -/
theorem lookup_insert_empty {k k' : κ} {a a' : α} :
    ((∅ : Table κ α).insert k a).lookup k' = some a' ↔ k' = k ∧ a' = a := by
  rcases eq_or_ne k' k with rfl | hne
  · rw [lookup_insert, Option.some.injEq]
    exact ⟨fun h => ⟨rfl, h.symm⟩, fun h => h.2.symm⟩
  · rw [lookup_insert_ne hne, lookup_empty]
    exact ⟨nofun, fun h => absurd h.1 hne⟩

/-- Lookup after `retain`: the entry, when it passes the test. -/
theorem lookup_retain (p : κ → α → Bool) (s : Table κ α) (k : κ) :
    (s.retain p).lookup k = (s.lookup k).filter (p k) := by
  ext a
  rw [← mem_entries_iff, entries_retain, List.mem_filter, mem_entries_iff,
    Option.filter_eq_some_iff]

/-- Lookup after `mapValues`: what became of the entry. -/
theorem lookup_mapValues {β : Type*} (f : α → β) (s : Table κ α) (k : κ) :
    (s.mapValues f).lookup k = (s.lookup k).map f := by
  ext b
  rw [← mem_entries_iff, Option.map_eq_some_iff]
  simp only [mapValues, List.mem_map, Sigma.mk.injEq, heq_eq_eq]
  constructor
  · rintro ⟨⟨k', a⟩, he, rfl, rfl⟩
    exact ⟨a, mem_entries_iff.mp he, rfl⟩
  · rintro ⟨a, ha, rfl⟩
    exact ⟨⟨k, a⟩, mem_entries_iff.mpr ha, rfl, rfl⟩

/-- What is left after an erasure was there before. -/
theorem lookup_of_lookup_erase {s : Table κ α} {k k' : κ} {a : α}
    (h : (s.erase k').lookup k = some a) : s.lookup k = some a := by
  rcases eq_or_ne k k' with rfl | hne
  · rw [lookup_erase] at h
    exact nomatch h
  · rwa [lookup_erase_ne hne] at h

theorem mem_entries_insert {s : Table κ α} {k : κ} {a : α} {e : Sigma fun _ : κ => α}
    (h : e ∈ (s.insert k a).entries) : e = ⟨k, a⟩ ∨ e ∈ s.entries := by
  rw [AList.entries_insert, List.mem_cons] at h
  exact h.imp_right fun h => (List.kerase_sublist _ _).subset h

/-! ## Tables of lists -/

/-- The values that came under `k`, in order. -/
def under (history : List (κ × α)) (k : κ) : List α :=
  (history.filter fun e => e.1 = k).map Prod.snd

theorem mem_under {history : List (κ × α)} {k : κ} {a : α} :
    a ∈ under history k ↔ (k, a) ∈ history := by
  simp [under]

/-- A value that comes under a key follows those that came there before. -/
theorem under_concat (history : List (κ × α)) (k k' : κ) (a : α) :
    under (history ++ [(k, a)]) k' = under history k' ++ if k = k' then [a] else [] := by
  by_cases hk : k = k' <;> simp [under, List.filter_append, hk]

/-- The table has under each key the values that came under it, and no key under which none did. -/
def Collects (s : Table κ (List α)) (history : List (κ × α)) : Prop :=
  ∀ k, s.lookup k = if under history k = [] then none else some (under history k)

theorem collects_empty : Collects (∅ : Table κ (List α)) [] := fun k => by
  rw [lookup_empty, if_pos (by simp [under])]

theorem Collects.getD {s : Table κ (List α)} {history : List (κ × α)} (h : s.Collects history)
    (k : κ) : (s.lookup k).getD [] = under history k := by
  rw [h k]
  split_ifs with hnone
  · exact hnone.symm
  · rfl

/-- A key under which a value came is there. -/
theorem Collects.lookup_ne_none {s : Table κ (List α)} {history : List (κ × α)}
    (h : s.Collects history) {k : κ} {a : α} (ha : (k, a) ∈ history) : s.lookup k ≠ none := by
  rw [h k, if_neg (List.ne_nil_of_mem (mem_under.mpr ha))]
  exact Option.some_ne_none _

/-- A value is added under its key. -/
theorem Collects.insert {s : Table κ (List α)} {history : List (κ × α)} (h : s.Collects history)
    (k : κ) (a : α) :
    (s.insert k ((s.lookup k).getD [] ++ [a])).Collects (history ++ [(k, a)]) := by
  intro k'
  rw [under_concat, h.getD]
  rcases eq_or_ne k' k with rfl | hne
  · rw [lookup_insert, if_pos rfl, if_neg (by simp)]
  · rw [lookup_insert_ne hne, if_neg hne.symm, List.append_nil, h k']

end Lookup

/-! ## Totals -/

section Total

variable {M : Type*} [AddCommMonoid M]

/-- The sum of `f` over the entries of `s`. -/
def total (f : α → M) (s : Table κ α) : M := (s.entries.map fun e => f e.2).sum

/-- A total splits along a test of the entries. -/
theorem total_retain_split (f : α → M) (p : κ → α → Bool) (s : Table κ α) :
    s.total f = (s.retain p).total f + (s.retain fun k a => !p k a).total f := by
  have hperm := (List.filter_append_perm (fun e => p e.1 e.2) s.entries).map fun e => f e.2
  rw [List.map_append] at hperm
  rw [total, ← hperm.sum_eq, List.sum_append]
  rfl

/-- The total of a table without entries. -/
theorem total_of_forall_notMem (f : α → M) {s : Table κ α} (h : ∀ k, k ∉ s) : total f s = 0 := by
  have hnil : s.entries = [] := by
    refine List.eq_nil_iff_forall_not_mem.mpr fun e he => h e.1 ?_
    exact mem_keys.mpr (List.mem_map_of_mem he)
  rw [total, hnil]
  rfl

section Insert

variable [DecidableEq κ]

theorem total_insert (f : α → M) (s : Table κ α) (k : κ) (a : α) :
    total f (s.insert k a) = f a + total f (s.erase k) := rfl

/-- A new entry adds its measure to the total. -/
theorem total_insert_of_notMem (f : α → M) {s : Table κ α} {k : κ} (a : α) (h : k ∉ s) :
    total f (s.insert k a) = f a + total f s := by
  rw [total, AList.entries_insert_of_notMem h]
  rfl

/-- An entry, taken out of the total. -/
theorem total_eq_of_lookup (f : α → M) {s : Table κ α} {k : κ} {a : α}
    (h : s.lookup k = some a) : total f s = f a + total f (s.erase k) := by
  -- `s` and `s.insert k a` have the same lookups, so the same entries up to order.
  have hperm : s.entries.Perm (s.insert k a).entries := by
    refine List.lookup_ext s.nodupKeys (s.insert k a).nodupKeys fun k' a' => ?_
    change a' ∈ s.lookup k' ↔ a' ∈ (s.insert k a).lookup k'
    rcases eq_or_ne k' k with rfl | hne
    · rw [h, AList.lookup_insert]
    · rw [AList.lookup_insert_ne hne]
  rw [← total_insert, total, (hperm.map _).sum_eq]
  rfl

/-- The total of a table with one entry at most is this entry. -/
theorem total_of_single {s : Table κ M} {k : κ} (h : ∀ k' ∈ s, k' = k) :
    total id s = (s.lookup k).getD 0 := by
  cases hlookup : s.lookup k with
  | none =>
    refine total_of_forall_notMem id fun k' hk' => ?_
    exact lookup_eq_none.mp hlookup (h k' hk' ▸ hk')
  | some a =>
    have hrest : total id (s.erase k) = 0 := by
      refine total_of_forall_notMem id fun k' hk' => ?_
      obtain ⟨hne, hmem⟩ := mem_erase.mp hk'
      exact hne (h k' hmem)
    rw [total_eq_of_lookup id hlookup, hrest, add_zero]
    rfl

/-- Of all entries, that of a key is the only one that counts for it. -/
theorem sum_entries_of_key (s : Table κ M) (k : κ) :
    (s.entries.map fun e => if e.1 = k then e.2 else 0).sum = (s.lookup k).getD 0 := by
  suffices hsum : ∀ entries : List (Sigma fun _ : κ => M), entries.NodupKeys →
      (entries.map fun e => if e.1 = k then e.2 else 0).sum = (entries.dlookup k).getD 0 from
    hsum s.entries s.nodupKeys
  intro entries hkeys
  induction entries with
  | nil => rfl
  | cons e entries ih =>
    obtain ⟨k', a⟩ := e
    rw [List.nodupKeys_cons] at hkeys
    rw [List.map_cons, List.sum_cons, ih hkeys.2]
    by_cases hk : k' = k
    · -- No entry behind it has the key.
      subst hk
      rw [if_pos rfl, List.dlookup_cons_eq, List.dlookup_eq_none.mpr hkeys.1, Option.getD_none,
        add_zero, Option.getD_some]
    · rw [if_neg hk, List.dlookup_cons_ne _ _ (Ne.symm hk), zero_add]

/-- `a` more in the entry of `k`, which is zero where there is none. -/
def bump (s : Table κ M) (k : κ) (a : M) : Table κ M := s.insert k ((s.lookup k).getD 0 + a)

/-- What is added to an entry is added to the sum of the entries. -/
theorem total_bump (s : Table κ M) (k : κ) (a : M) :
    total id (s.bump k a) = total id s + a := by
  cases h : s.lookup k with
  | none =>
    rw [bump, h, Option.getD_none, total_insert_of_notMem id _ (lookup_eq_none.mp h), id_eq,
      zero_add, add_comm]
  | some b =>
    rw [bump, h, total_insert, total_eq_of_lookup id h, Option.getD_some, id_eq, id_eq,
      add_right_comm]

/-- Of the other entries nothing changes. -/
theorem getD_lookup_bump (s : Table κ M) (k k' : κ) (a : M) :
    ((s.bump k a).lookup k').getD 0 = (s.lookup k').getD 0 + if k' = k then a else 0 := by
  rw [bump]
  split_ifs with hk
  · rw [hk, lookup_insert, Option.getD_some]
  · rw [lookup_insert_ne hk, add_zero]

/-- Replacing an entry by one of the same measure keeps the total. -/
theorem total_insert_of_lookup (f : α → M) {s : Table κ α} {k : κ} {a a' : α}
    (h : s.lookup k = some a) (hf : f a' = f a) : total f (s.insert k a') = total f s := by
  rw [total_insert, hf, ← total_eq_of_lookup f h]

end Insert

section Ordered

variable [PartialOrder M] [CanonicallyOrderedAdd M]

/-- Keeping fewer entries never raises the total. -/
theorem total_retain_le (f : α → M) (p : κ → α → Bool) (s : Table κ α) :
    (s.retain p).total f ≤ s.total f := by
  rw [total_retain_split f p s]
  exact le_self_add

end Ordered

section Labels

variable {L : Type*} [DecidableEq L]

/-- The entries whose label is `m`. -/
def labelled (label : α → Option L) (m : L) (s : Table κ α) : Table κ α :=
  s.retain fun _ a => label a = some m

/-- The entries whose label is not in `F`. -/
def unlabelled (label : α → Option L) (F : Finset L) (s : Table κ α) : Table κ α :=
  s.retain fun _ a => ∀ m ∈ F, label a ≠ some m

/-- A total splits into the totals of each label of a finite set and the rest. -/
theorem total_labels (f : α → M) (label : α → Option L) (F : Finset L) (s : Table κ α) :
    s.total f = ∑ m ∈ F, (s.labelled label m).total f + (s.unlabelled label F).total f := by
  induction F using Finset.induction_on with
  | empty => simp [unlabelled, retain]
  | insert m F hm ih =>
    have hlabel : (s.unlabelled label F).retain (fun _ a => label a = some m) =
        s.labelled label m := by
      rw [unlabelled, retain_retain]
      refine retain_congr fun e _ => ?_
      by_cases he : label e.2 = some m
      · have hF : ∀ m' ∈ F, m ≠ m' := fun m' hm' heq => hm (heq ▸ hm')
        simpa [he] using hF
      · simp [he]
    have hrest : (s.unlabelled label F).retain (fun _ a => !decide (label a = some m)) =
        s.unlabelled label (Insert.insert m F) := by
      rw [unlabelled, retain_retain]
      refine retain_congr fun e _ => ?_
      simp [Bool.and_comm]
    -- Take the entries labelled `m` out of the rest.
    rw [ih, total_retain_split f (fun _ a => label a = some m) (s.unlabelled label F), hlabel,
      hrest, Finset.sum_insert hm]
    abel

end Labels

end Total

end AList

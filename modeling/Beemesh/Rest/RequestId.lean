import Beemesh.Rest.Backing
import Beemesh.Lib.Text

/-!
# The grammar of request ids

A capacity request carries its task in its id: between colons, as `get_candidates` writes it, or, in
the old form, between dashes. The reader of these ids cuts at the first colons, and for the old form
at the dashes. But the prefix has dashes of its own, so in the old form it always reads the second
word of the prefix.

## Main definitions

* `Encodes s m`: the id `s` is one of the task `m`, by either form
* `Plain s`: the ids with the prefix that are read as they are written

## Main results

* `exists_extract_of_starts`: what is read of an id that starts with the prefix
* `extract_iff_encodes`: which ids are read as they are written
-/

namespace Beemesh

/-- The ids of a task: the suffix of the first form is without a colon, and the task of the second
without a dash. -/
inductive Encodes : String → String → Prop
  | current (taskId uuid : String) (hne : taskId ≠ "") (hcolon : ':' ∉ uuid.toList) :
    Encodes (candidatesRequestId taskId uuid) taskId
  | legacy (manifestId uuid : String) (hne : manifestId ≠ "") (hdash : '-' ∉ manifestId.toList) :
    Encodes (freeCapacityPrefix ++ "-" ++ manifestId ++ "-" ++ uuid) manifestId

/-- An id of a task without colons, or one in the old form of a manifest called `free`. -/
inductive Plain : String → Prop
  | current (taskId uuid : String) (hne : taskId ≠ "") (hcolon : ':' ∉ taskId.toList)
    (hcolon' : ':' ∉ uuid.toList) : Plain (candidatesRequestId taskId uuid)
  | free (uuid : String) : Plain (freeCapacityPrefix ++ "-" ++ "free" ++ "-" ++ uuid)

/-! ## Cuts -/

theorem splitAt_of_notMem {c : Char} {s : String} (h : c ∉ s.toList) : splitAt c s = [s] := by
  rw [splitAt, List.splitOn_eq_singleton h, List.map_singleton, String.ofList_toList]

theorem splitAt_of_append {c : Char} {s x : String} {rest : List Char} (h : c ∉ x.toList)
    (hs : s.toList = x.toList ++ c :: rest) : splitAt c s = x :: splitAt c (.ofList rest) := by
  rw [splitAt, hs, List.splitOn_append_cons_self_of_not_mem h, List.map_cons,
    String.ofList_toList, splitAt, String.toList_ofList]

/-- The first piece is what comes before the first occurrence, and the others are those of the
rest. -/
theorem splitAt_eq_cons {c : Char} {s head : String} {pieces : List String}
    (h : splitAt c s = head :: pieces) :
    c ∉ head.toList ∧ (pieces = [] ∧ s = head ∨
      ∃ rest, s.toList = head.toList ++ c :: rest ∧ splitAt c (.ofList rest) = pieces) := by
  by_cases hmem : c ∈ s.toList
  · obtain ⟨front, rest, hs, hfront⟩ := List.eq_append_cons_of_mem hmem
    have hchars : (String.ofList front).toList = front := String.toList_ofList
    rw [splitAt_of_append (x := .ofList front) (by rwa [hchars]) (by rwa [hchars])] at h
    obtain ⟨rfl, rfl⟩ := List.cons.inj h
    exact ⟨by rwa [hchars], .inr ⟨rest, by rw [hchars, hs], rfl⟩⟩
  · rw [splitAt_of_notMem hmem] at h
    obtain ⟨rfl, rfl⟩ := List.cons.inj h
    exact ⟨hmem, .inl ⟨rfl, rfl⟩⟩

theorem splitAt_head_starts {c : Char} {s head : String} {pieces : List String}
    (h : splitAt c s = head :: pieces) : head.toList <+: s.toList := by
  obtain ⟨-, ⟨-, rfl⟩ | ⟨rest, hs, -⟩⟩ := splitAt_eq_cons h
  · exact List.prefix_refl _
  · exact ⟨_, hs.symm⟩

/-- Two cuts of one text at the first occurrence of a character. -/
theorem cut_first_unique {c : Char} {x y x' y' : List Char} (h : c ∉ x) (h' : c ∉ x')
    (heq : x ++ c :: y = x' ++ c :: y') : x = x' ∧ y = y' := by
  have hsplit := congrArg (List.splitOn c) heq
  rw [List.splitOn_append_cons_self_of_not_mem h, List.splitOn_append_cons_self_of_not_mem h']
    at hsplit
  obtain rfl := (List.cons.inj hsplit).1
  exact ⟨rfl, (List.cons.inj (List.append_cancel_left heq)).2⟩

/-- Two cuts of one text at the last one. -/
theorem cut_last_unique {c : Char} {x y x' y' : List Char} (h : c ∉ y) (h' : c ∉ y')
    (heq : x ++ c :: y = x' ++ c :: y') : x = x' ∧ y = y' := by
  have hreverse := congrArg List.reverse heq
  simp only [List.reverse_append, List.reverse_cons, List.append_assoc, List.singleton_append]
    at hreverse
  have hcut := cut_first_unique (mt List.mem_reverse.mp h) (mt List.mem_reverse.mp h') hreverse
  exact ⟨List.reverse_injective hcut.2, List.reverse_injective hcut.1⟩

/-! ## What is read -/

variable {s m : String}

theorem toList_candidatesRequestId (taskId uuid : String) :
    (candidatesRequestId taskId uuid).toList =
      freeCapacityPrefix.toList ++ ':' :: (taskId.toList ++ ':' :: uuid.toList) := by
  simp [candidatesRequestId, String.toList_append]

theorem toList_legacyId (manifestId uuid : String) :
    (freeCapacityPrefix ++ "-" ++ manifestId ++ "-" ++ uuid).toList =
      freeCapacityPrefix.toList ++ '-' :: (manifestId.toList ++ '-' :: uuid.toList) := by
  simp [String.toList_append]

/-- No id has both forms: a colon follows the prefix, or a dash. -/
theorem candidatesRequestId_ne_legacyId (taskId uuid manifestId uuid' : String) :
    candidatesRequestId taskId uuid ≠
      freeCapacityPrefix ++ "-" ++ manifestId ++ "-" ++ uuid' := by
  intro heq
  rw [← String.toList_inj, toList_candidatesRequestId, toList_legacyId] at heq
  exact absurd (List.cons.inj (List.append_cancel_left heq)).1 (by decide)

theorem Encodes.starts (h : Encodes s m) : freeCapacityPrefix.toList <+: s.toList := by
  cases h with
  | current taskId uuid =>
    rw [toList_candidatesRequestId]
    exact List.prefix_append _ _
  | legacy manifestId uuid =>
    rw [toList_legacyId]
    exact List.prefix_append _ _

/-- Nothing is read of an id without the prefix. -/
theorem extract_of_not_starts (h : ¬ freeCapacityPrefix.toList <+: s.toList) :
    extractManifestIdFromRequestId s = none := by
  have hlegacy : freeCapacityPrefix.toList.isPrefixOf s.toList = false :=
    Bool.eq_false_iff.mpr (mt List.isPrefixOf_iff_prefix.mp h)
  simp only [extractManifestIdFromRequestId, hlegacy]
  split
  · next head manifest pieces hsplit =>
    rw [if_neg]
    · rfl
    · rintro ⟨rfl, -⟩
      exact h (splitAt_head_starts hsplit)
  · rfl

/-- In the old form, the second word of the prefix is read. -/
theorem legacy_eq_free (h : freeCapacityPrefix.toList <+: s.toList) :
    ∃ pieces, splitAt '-' s = "beemesh" :: "free" :: pieces := by
  have hwords : freeCapacityPrefix.toList =
      "beemesh".toList ++ '-' :: ("free".toList ++ '-' :: "capacity".toList) := by decide
  obtain ⟨tail, htail⟩ := h
  rw [hwords, List.append_assoc, List.cons_append, List.append_assoc, List.cons_append] at htail
  refine ⟨splitAt '-' (.ofList ("capacity".toList ++ tail)), ?_⟩
  rw [splitAt_of_append (x := "beemesh") (by decide) htail.symm,
    splitAt_of_append (x := "free") (by decide) String.toList_ofList]

/-- What is read of an id that starts with the prefix: the text between the first two colons, and
else the second word of the prefix. -/
theorem exists_extract_of_starts (h : freeCapacityPrefix.toList <+: s.toList) :
    ∃ m, extractManifestIdFromRequestId s = some m ∧ (m = "free" ∨
      m ≠ "" ∧ ':' ∉ m.toList ∧
        (freeCapacityPrefix.toList ++ ':' :: m.toList) <+: s.toList) := by
  have hlegacy : freeCapacityPrefix.toList.isPrefixOf s.toList = true :=
    List.isPrefixOf_iff_prefix.mpr h
  obtain ⟨pieces, hfree⟩ := legacy_eq_free h
  simp only [extractManifestIdFromRequestId, hlegacy, if_true, hfree]
  split
  · next head manifest pieces' hsplit =>
    by_cases hnamed : head = freeCapacityPrefix ∧ manifest ≠ ""
    · rw [if_pos hnamed]
      obtain ⟨rfl, hne⟩ := hnamed
      obtain ⟨-, ⟨hnil, -⟩ | ⟨rest, hs, hrest⟩⟩ := splitAt_eq_cons hsplit
      · cases hnil
      · obtain ⟨tail, htail⟩ := splitAt_head_starts hrest
        rw [String.toList_ofList] at htail
        exact ⟨manifest, rfl, .inr ⟨hne, (splitAt_eq_cons hrest).1, tail, by
          rw [hs, ← htail, List.append_assoc, List.cons_append]⟩⟩
    · rw [if_neg hnamed]
      exact ⟨"free", rfl, .inl rfl⟩
  · exact ⟨"free", rfl, .inl rfl⟩

/-- An id in the old form is read as one of `free`. -/
theorem extract_legacy {uuid : String} :
    extractManifestIdFromRequestId (freeCapacityPrefix ++ "-" ++ m ++ "-" ++ uuid) =
      some "free" := by
  have hchars := toList_legacyId m uuid
  obtain ⟨m', hread, rfl | ⟨-, -, tail, htail⟩⟩ :=
    exists_extract_of_starts (hchars ▸ List.prefix_append _ _ :
      freeCapacityPrefix.toList <+: (freeCapacityPrefix ++ "-" ++ m ++ "-" ++ uuid).toList)
  · exact hread
  · -- What follows the prefix is a dash.
    rw [hchars, List.append_assoc, List.cons_append] at htail
    exact absurd (List.cons.inj (List.append_cancel_left htail)).1 (by decide)

/-- An id is one of one task at most. -/
theorem Encodes.unique {m' : String} (h : Encodes s m) (h' : Encodes s m') : m = m' := by
  generalize hs : s = s' at h'
  cases h with
  | current taskId uuid _ hcolon =>
    cases h' with
    | current taskId' uuid' _ hcolon' =>
      rw [← String.toList_inj, toList_candidatesRequestId, toList_candidatesRequestId] at hs
      have hcut := (List.cons.inj (List.append_cancel_left hs)).2
      exact String.toList_inj.mp (cut_last_unique hcolon hcolon' hcut).1
    | legacy manifestId uuid' => exact absurd hs (candidatesRequestId_ne_legacyId _ _ _ _)
  | legacy manifestId uuid _ hdash =>
    cases h' with
    | current taskId' uuid' => exact absurd hs.symm (candidatesRequestId_ne_legacyId _ _ _ _)
    | legacy manifestId' uuid' _ hdash' =>
      rw [← String.toList_inj, toList_legacyId, toList_legacyId] at hs
      have hcut := (List.cons.inj (List.append_cancel_left hs)).2
      exact String.toList_inj.mp (cut_first_unique hdash hdash' hcut).1

/-- What is read of an id is its task where the id is plain. -/
theorem Plain.extract (h : Plain s) :
    ∃ m, extractManifestIdFromRequestId s = some m ∧ Encodes s m := by
  cases h with
  | current taskId uuid hne hcolon hcolon' =>
    exact ⟨taskId, extractManifestIdFromRequestId_candidates uuid hne hcolon,
      .current taskId uuid hne hcolon'⟩
  | free uuid => exact ⟨"free", extract_legacy, .legacy "free" uuid (by decide) (by decide)⟩

/-- An id that is read as one of its task is plain. -/
theorem Encodes.plain (h : Encodes s m) (hread : extractManifestIdFromRequestId s = some m) :
    Plain s := by
  obtain ⟨m', hread', hfree⟩ := exists_extract_of_starts h.starts
  obtain rfl := Option.some.inj (hread'.symm.trans hread)
  cases h with
  | current _ uuid hne hcolon =>
    refine .current _ uuid hne ?_ hcolon
    rcases hfree with rfl | ⟨-, hnone, -⟩
    · decide
    · exact hnone
  | legacy _ uuid hne hdash =>
    rw [extract_legacy] at hread
    obtain rfl := Option.some.inj hread
    exact .free uuid

/-- **Which ids are read as they are written**: those without the prefix, of which nothing is read,
and the plain ones. -/
theorem extract_iff_encodes (s : String) :
    (∀ m, extractManifestIdFromRequestId s = some m ↔ Encodes s m) ↔
      (freeCapacityPrefix.toList <+: s.toList → Plain s) := by
  constructor
  · intro h hprefix
    obtain ⟨m, hread, -⟩ := exists_extract_of_starts hprefix
    exact ((h m).mp hread).plain hread
  · intro h m
    constructor
    · intro hread
      have hprefix : freeCapacityPrefix.toList <+: s.toList := by
        by_contra hnot
        rw [extract_of_not_starts hnot] at hread
        exact nomatch hread
      obtain ⟨m', hread', hencodes⟩ := (h hprefix).extract
      exact Option.some.inj (hread'.symm.trans hread) ▸ hencodes
    · intro hencodes
      obtain ⟨m', hread', hencodes'⟩ := (h hencodes.starts).extract
      exact hencodes'.unique hencodes ▸ hread'

/-- An id in the old form, of the manifest `m`. -/
theorem extract_legacy_web :
    ¬ ∀ m, extractManifestIdFromRequestId "beemesh-free-capacity-web-1" = some m ↔
      Encodes "beemesh-free-capacity-web-1" m := by
  intro h
  have hencodes : Encodes "beemesh-free-capacity-web-1" "web" :=
    .legacy "web" "1" (by decide) (by decide)
  have hread := (h "web").mpr hencodes
  exact absurd hread (by decide)

end Beemesh

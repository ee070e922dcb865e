import Beemesh.Lib.Text

/-!
# The pieces of a text

A text cut at every occurrence of a separator, and white space around a piece. A character that the
separator does not have keeps what is before it and what comes after it apart: no occurrence lies
across it.

## Main results

* `splitFrom_eq_singleton`: a text without the separator is one piece
* `exists_splitFrom_cons`: a text goes on from the last piece of what is before it
* `splitFrom_append_sep_append`: two texts with a separator between them are cut each on its own
* `splitFrom_append_cons`: the first piece of a text cut at a character
* `trim_concat`, `trim_cons`: white space at an end of a text is cut off
-/

namespace Text

section

variable {sep : List Char}

/-- An occurrence at the front does not reach over a character that the separator does not have. -/
theorem prefix_append_cons_iff {x : Char} (hx : x ∉ sep) {s t : List Char} :
    sep <+: s ++ x :: t ↔ sep <+: s := by
  constructor
  · intro h
    rcases List.prefix_or_prefix_of_prefix h (List.prefix_append s (x :: t)) with hle | hle
    · exact hle
    · obtain ⟨r, rfl⟩ := hle
      rw [List.prefix_append_right_inj] at h
      cases r with
      | nil => simp
      | cons y r =>
        have hy : y = x := (List.cons_prefix_cons.mp h).1
        exact absurd (List.mem_append_right s (hy ▸ List.mem_cons_self)) hx
  · intro h
    exact h.trans (List.prefix_append s (x :: t))

theorem splitFrom_eq_singleton {s : List Char} (h : ¬ sep <:+: s) (piece : List Char) :
    splitFrom sep 0 piece s = [piece ++ s] := by
  induction s generalizing piece with
  | nil => rw [splitFrom, List.append_nil]
  | cons c s ih =>
    rw [List.infix_cons_iff, not_or] at h
    rw [splitFrom, if_neg fun hprefix => h.1 (List.isPrefixOf_iff_prefix.mp hprefix), ih h.2,
      List.append_assoc]
    rfl

/-- What is read before stands in front of the first piece. -/
theorem exists_splitFrom_piece (sep s : List Char) (skip : ℕ) :
    ∃ head tail, ∀ piece, splitFrom sep skip piece s = (piece ++ head) :: tail := by
  induction s generalizing skip with
  | nil =>
    refine ⟨[], [], fun piece => ?_⟩
    cases skip with
    | zero => rw [splitFrom, List.append_nil]
    | succ skip => rw [splitFrom, List.append_nil]
  | cons c s ih =>
    cases skip with
    | succ skip => exact ih skip
    | zero =>
      by_cases hprefix : sep.isPrefixOf (c :: s) = true
      · -- The separator closes what was read before.
        refine ⟨[], splitFrom sep (sep.length - 1) [] s, fun piece => ?_⟩
        rw [splitFrom, if_pos hprefix, List.append_nil]
      · obtain ⟨head, tail, hsplit⟩ := ih 0
        refine ⟨c :: head, tail, fun piece => ?_⟩
        rw [splitFrom, if_neg hprefix, hsplit, List.append_assoc]
        rfl

/-- **A text goes on from the last piece of what is before it**: behind a character that the
separator does not have, nothing else of what was read counts. -/
theorem exists_splitFrom_cons {x : Char} (hx : x ∉ sep) (hne : sep ≠ []) {s : List Char}
    {skip : ℕ} (hskip : skip ≤ s.length) (piece : List Char) :
    ∃ front last, splitFrom sep skip piece s = front ++ [last] ∧
      ∀ t, splitFrom sep skip piece (s ++ x :: t) = front ++ splitFrom sep 0 (last ++ [x]) t := by
  induction s generalizing skip piece with
  | nil =>
    cases skip with
    | succ skip => exact absurd hskip (Nat.not_succ_le_zero skip)
    | zero =>
      refine ⟨[], piece, by rw [splitFrom, List.nil_append], fun t => ?_⟩
      have hprefix : ¬ sep <+: x :: t := by
        rw [← List.nil_append (x :: t), prefix_append_cons_iff hx, List.prefix_nil]
        exact hne
      rw [List.nil_append, splitFrom,
        if_neg fun h => hprefix (List.isPrefixOf_iff_prefix.mp h), List.nil_append]
  | cons c s ih =>
    cases skip with
    | succ skip => exact ih (Nat.le_of_succ_le_succ hskip) piece
    | zero =>
      -- Whether the separator starts here does not depend on what comes behind `x`.
      have hcut (t : List Char) : sep.isPrefixOf (c :: (s ++ x :: t)) = sep.isPrefixOf (c :: s) :=
        Bool.eq_iff_iff.mpr (by
          rw [List.isPrefixOf_iff_prefix, List.isPrefixOf_iff_prefix, ← List.cons_append,
            prefix_append_cons_iff hx])
      by_cases hprefix : sep.isPrefixOf (c :: s) = true
      · -- The rest of the separator is skipped within the text before.
        have hrest : sep.length - 1 ≤ s.length := by
          have hlength := (List.isPrefixOf_iff_prefix.mp hprefix).length_le
          rw [List.length_cons] at hlength
          omega
        obtain ⟨front, last, hsplit, happend⟩ := ih hrest []
        refine ⟨piece :: front, last, ?_, fun t => ?_⟩
        · rw [splitFrom, if_pos hprefix, hsplit, List.cons_append]
        · rw [List.cons_append, splitFrom, hcut, if_pos hprefix, happend, List.cons_append]
      · obtain ⟨front, last, hsplit, happend⟩ := ih (Nat.zero_le s.length) (piece ++ [c])
        refine ⟨front, last, ?_, fun t => ?_⟩
        · rw [splitFrom, if_neg hprefix, hsplit]
        · rw [List.cons_append, splitFrom, hcut, if_neg hprefix, happend]

theorem splitFrom_skip (sep piece s t : List Char) :
    splitFrom sep s.length piece (s ++ t) = splitFrom sep 0 piece t := by
  induction s with
  | nil => rfl
  | cons c s ih => exact ih

/-- A separator closes the piece that is read. -/
theorem splitFrom_sep_append (hne : sep ≠ []) (piece t : List Char) :
    splitFrom sep 0 piece (sep ++ t) = piece :: splitFrom sep 0 [] t := by
  cases sep with
  | nil => exact absurd rfl hne
  | cons c sep =>
    have hprefix : (c :: sep).isPrefixOf (c :: (sep ++ t)) = true :=
      List.isPrefixOf_iff_prefix.mpr (List.prefix_append (c :: sep) t)
    rw [List.cons_append, splitFrom, if_pos hprefix]
    exact congrArg _ (splitFrom_skip (c :: sep) [] sep t)

/-- **Two texts with a separator between them** are cut each on its own, if the first one is empty
or ends with a character that the separator does not have. -/
theorem splitFrom_append_sep_append (hne : sep ≠ []) {s : List Char}
    (hs : s = [] ∨ ∃ r x, s = r ++ [x] ∧ x ∉ sep) (t : List Char) :
    splitFrom sep 0 [] (s ++ sep ++ t) = splitFrom sep 0 [] s ++ splitFrom sep 0 [] t := by
  rcases hs with rfl | ⟨r, x, rfl, hx⟩
  · exact splitFrom_sep_append hne [] t
  · obtain ⟨front, last, -, happend⟩ := exists_splitFrom_cons hx hne (Nat.zero_le r.length) []
    calc splitFrom sep 0 [] (r ++ [x] ++ sep ++ t)
        = splitFrom sep 0 [] (r ++ x :: (sep ++ t)) := by
          rw [List.append_assoc, List.append_assoc]
          rfl
      _ = front ++ (last ++ [x]) :: splitFrom sep 0 [] t := by
          rw [happend, splitFrom_sep_append hne]
      _ = (front ++ splitFrom sep 0 (last ++ [x]) []) ++ splitFrom sep 0 [] t := by
          rw [splitFrom, List.append_assoc]
          rfl
      _ = splitFrom sep 0 [] (r ++ [x]) ++ splitFrom sep 0 [] t := by rw [happend]

/-- A text in front of the first occurrence of a character is a piece. -/
theorem splitFrom_append_cons {c : Char} {s : List Char} (h : c ∉ s) (t : List Char) :
    splitFrom [c] 0 [] (s ++ c :: t) = s :: splitFrom [c] 0 [] t := by
  have hs : s = [] ∨ ∃ r x, s = r ++ [x] ∧ x ∉ [c] := by
    rcases List.eq_nil_or_concat s with rfl | ⟨r, x, rfl⟩
    · exact .inl rfl
    · refine .inr ⟨r, x, List.concat_eq_append, fun hx => h ?_⟩
      rw [List.concat_eq_append, List.mem_singleton.mp hx]
      exact List.mem_append_right r (List.mem_singleton_self c)
  have hpiece : splitFrom [c] 0 [] s = [s] :=
    splitFrom_eq_singleton (fun hc => h (hc.subset (List.mem_singleton_self c))) []
  have hsplit := splitFrom_append_sep_append (List.cons_ne_nil c []) hs t
  rwa [hpiece, List.append_assoc] at hsplit

end

/-! ## White space around a text -/

section

variable {x : Char} (hx : isWhitespace x = true)
include hx

theorem trim_cons (s : List Char) : trim (String.ofList (x :: s)) = trim (String.ofList s) := by
  rw [trim, trim, String.toList_ofList, String.toList_ofList, List.dropWhile_cons_of_pos hx]

theorem trim_concat (s : List Char) :
    trim (String.ofList (s ++ [x])) = trim (String.ofList s) := by
  have hlast : [x].dropWhile isWhitespace = [] := List.dropWhile_cons_of_pos hx
  rw [trim, trim, String.toList_ofList, String.toList_ofList, List.dropWhile_append]
  split_ifs with hs
  · -- Nothing but white space.
    rw [hlast, List.isEmpty_iff.mp hs]
  · rw [List.reverse_append, List.reverse_singleton, List.singleton_append,
      List.dropWhile_cons_of_pos hx]

end

end Text

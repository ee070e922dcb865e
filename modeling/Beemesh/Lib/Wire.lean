import Beemesh.Lib.Outcome

/-!
# Length-prefixed fields

Byte strings in which a field follows its length, the length being a big-endian number of a fixed
width. A reader with a cursor checks both against what is left, and reads nothing that it did not
check.

## Main definitions

* `ofBe`, `toBe`: big-endian numbers
* `Prefixed k bytes field rest`: `bytes` is a field behind a length of `k` bytes, and `rest`
* `Numbered k bytes n rest`: `bytes` is the number `n` in `k` bytes, and `rest`
* `prefixedField`, `beField`: the readers of fields and of numbers, at a cursor
* `takePrefixed`, `takeBe`: the same on the bytes that are left, without a cursor
* `firstMissing`, `Misses`: the first part that bytes which are cut do not hold

## Main results

* `prefixedField_eq_ok_iff`: the reader finds the field that is there, and all of it
* `prefixedField_ne_panic`: it never panics
* `prefixedField_bind`, `beField_bind`: what is read at a cursor is read without one
* `takeBe_bind_of_cut`, `takePrefixed_bind_of_cut`: of bytes that are cut, the first part that is
  not there whole is missed
-/

namespace Wire

/-! ## Big-endian numbers -/

/-- `from_be_bytes`. -/
def ofBe : List UInt8 → ℕ
  | [] => 0
  | b :: bs => b.toNat * 256 ^ bs.length + ofBe bs

/-- `to_be_bytes`, of the low `k` bytes of `n`. -/
def toBe : ℕ → ℕ → List UInt8
  | 0, _ => []
  | k + 1, n => UInt8.ofNat (n / 256 ^ k) :: toBe k n

@[simp] theorem length_toBe (k n : ℕ) : (toBe k n).length = k := by
  induction k with
  | zero => rfl
  | succ k ih => simp [toBe, ih]

theorem ofBe_lt (bs : List UInt8) : ofBe bs < 256 ^ bs.length := by
  induction bs with
  | nil => decide
  | cons b bs ih =>
    have hb : b.toNat + 1 ≤ 256 := b.toNat_lt
    calc ofBe (b :: bs) < b.toNat * 256 ^ bs.length + 256 ^ bs.length :=
          Nat.add_lt_add_left ih _
      _ = (b.toNat + 1) * 256 ^ bs.length := (Nat.succ_mul _ _).symm
      _ ≤ 256 * 256 ^ bs.length := Nat.mul_le_mul_right _ hb
      _ = 256 ^ (b :: bs).length := (Nat.pow_succ').symm

theorem ofBe_toBe (k n : ℕ) : ofBe (toBe k n) = n % 256 ^ k := by
  induction k with
  | zero => simp [toBe, ofBe, Nat.mod_one]
  | succ k ih =>
    have hbyte : (UInt8.ofNat (n / 256 ^ k)).toNat = n / 256 ^ k % 256 := rfl
    rw [toBe, ofBe, ih, hbyte, length_toBe, Nat.pow_succ, Nat.mod_mul, Nat.mul_comm, Nat.add_comm]

/-! ## Fields -/

/-- The bytes start with a length of `k` bytes and the field of that length. -/
def Prefixed (k : ℕ) (bytes field rest : List UInt8) : Prop :=
  ∃ len, len.length = k ∧ ofBe len = field.length ∧ bytes = len ++ (field ++ rest)

theorem prefixed_toBe {k : ℕ} {field : List UInt8} (h : field.length < 256 ^ k)
    (rest : List UInt8) :
    Prefixed k (toBe k field.length ++ (field ++ rest)) field rest :=
  ⟨toBe k field.length, length_toBe _ _, by rw [ofBe_toBe, Nat.mod_eq_of_lt h], rfl⟩

/-- A field is as short as its length can tell. -/
theorem Prefixed.length_lt {k : ℕ} {bytes field rest : List UInt8}
    (h : Prefixed k bytes field rest) : field.length < 256 ^ k := by
  obtain ⟨len, rfl, hfield, -⟩ := h
  exact hfield ▸ ofBe_lt len

/-- A field stays there when more bytes follow. -/
theorem Prefixed.append {k : ℕ} {bytes field rest : List UInt8} (h : Prefixed k bytes field rest)
    (more : List UInt8) : Prefixed k (bytes ++ more) field (rest ++ more) := by
  obtain ⟨len, hlen, hfield, rfl⟩ := h
  exact ⟨len, hlen, hfield, by simp only [List.append_assoc]⟩

theorem Prefixed.length_eq {k : ℕ} {bytes field rest : List UInt8}
    (h : Prefixed k bytes field rest) : bytes.length = k + field.length + rest.length := by
  obtain ⟨len, rfl, -, rfl⟩ := h
  simp only [List.length_append, Nat.add_assoc]

/-- The bytes start with a number of `k` bytes. -/
def Numbered (k : ℕ) (bytes : List UInt8) (n : ℕ) (rest : List UInt8) : Prop :=
  ∃ be, be.length = k ∧ ofBe be = n ∧ bytes = be ++ rest

theorem numbered_toBe {k n : ℕ} (h : n < 256 ^ k) (rest : List UInt8) :
    Numbered k (toBe k n ++ rest) n rest :=
  ⟨toBe k n, length_toBe k n, by rw [ofBe_toBe, Nat.mod_eq_of_lt h], rfl⟩

/-- A number stays there when more bytes follow. -/
theorem Numbered.append {k n : ℕ} {bytes rest : List UInt8} (h : Numbered k bytes n rest)
    (more : List UInt8) : Numbered k (bytes ++ more) n (rest ++ more) := by
  obtain ⟨be, hbe, hn, rfl⟩ := h
  exact ⟨be, hbe, hn, List.append_assoc be rest more⟩

theorem Numbered.lt {k n : ℕ} {bytes rest : List UInt8} (h : Numbered k bytes n rest) :
    n < 256 ^ k := by
  obtain ⟨be, rfl, rfl, -⟩ := h
  exact ofBe_lt be

section Reader

open Outcome

variable {ε : Type}

/-- `[bytes[idx + i], …]` for the offsets `i`. -/
def bytesAt (bytes : List UInt8) (idx : ℕ) : List ℕ → Outcome ε (List UInt8)
  | [] => ok []
  | i :: offsets => do
    let position ← usizeAdd idx i
    let b ← index bytes position
    let bs ← bytesAt bytes idx offsets
    return b :: bs

/-- A field behind a length of `k` bytes at `idx`: the field, and where it ends. -/
def prefixedField (k : ℕ) (shortLen shortField : ε) (bytes : List UInt8) (idx : ℕ) :
    Outcome ε (List UInt8 × ℕ) := do
  let start ← usizeAdd idx k
  require (¬ bytes.length < start) shortLen
  let len ← bytesAt bytes idx (List.range k)
  let stop ← usizeAdd start (ofBe len)
  require (¬ bytes.length < stop) shortField
  let field ← slice bytes start stop
  return (field, stop)

/-- Bytes that are there are read. -/
theorem bytesAt_range' (bytes : List UInt8) (idx k j : ℕ)
    (hlength : idx + (j + k) ≤ bytes.length) (hsize : idx + (j + k) < 2 ^ 64) :
    (bytesAt bytes idx (List.range' j k) : Outcome ε (List UInt8)) =
      ok ((bytes.drop (idx + j)).take k) := by
  induction k generalizing j with
  | zero => simp [bytesAt]
  | succ k ih =>
    have hget : bytes[idx + j]? = some bytes[idx + j] := List.getElem?_eq_getElem (by omega)
    have hdrop : bytes.drop (idx + j) = bytes[idx + j] :: bytes.drop (idx + (j + 1)) :=
      List.drop_eq_getElem_cons (by omega)
    rw [List.range'_succ, bytesAt, usizeAdd_eq_ok (by omega), ok_bind, index_eq_ok_iff.mpr hget,
      ok_bind, ih (j + 1) (by omega) (by omega), ok_bind, hdrop, List.take_succ_cons]
    rfl

variable {k idx : ℕ} {shortLen shortField : ε} {bytes : List UInt8}

/-- The bytes of a field of `k` bytes. -/
theorem bytesAt_range (hlength : idx + k ≤ bytes.length) (hsize : idx + k < 2 ^ 64) :
    (bytesAt bytes idx (List.range k) : Outcome ε (List UInt8)) =
      ok ((bytes.drop idx).take k) := by
  rw [List.range_eq_range']
  exact bytesAt_range' bytes idx k 0 (by omega) (by omega)

theorem length_take_drop (hlength : idx + k ≤ bytes.length) :
    ((bytes.drop idx).take k).length = k := by
  rw [List.length_take, List.length_drop]
  omega

/-- The number in a field of `k` bytes. -/
theorem ofBe_take_drop_lt (hlength : idx + k ≤ bytes.length) :
    ofBe ((bytes.drop idx).take k) < 256 ^ k := by
  calc ofBe ((bytes.drop idx).take k) < 256 ^ ((bytes.drop idx).take k).length := ofBe_lt _
    _ = 256 ^ k := by rw [length_take_drop hlength]

/-- The reader, once no sum of its own can overflow: it stops at the first check that fails. -/
theorem prefixedField_eq (hsize : idx + k + 256 ^ k ≤ 2 ^ 64) :
    prefixedField k shortLen shortField bytes idx =
      if bytes.length < idx + k then err shortLen
      else
        let len := ofBe ((bytes.drop idx).take k)
        if bytes.length < idx + k + len then err shortField
        else ok ((bytes.drop (idx + k)).take len, idx + k + len) := by
  have hpos : 0 < 256 ^ k := Nat.pow_pos (by decide)
  rw [prefixedField, usizeAdd_eq_ok (by omega), ok_bind]
  by_cases hshort : bytes.length < idx + k
  · simp [require, hshort]
  · have hlen : ofBe ((bytes.drop idx).take k) < 256 ^ k := ofBe_take_drop_lt (by omega)
    simp only [require, hshort, not_false_eq_true, if_true, ok_bind, if_false]
    rw [bytesAt_range (by omega) (by omega), ok_bind]
    rw [usizeAdd_eq_ok (by omega), ok_bind]
    by_cases hfield : bytes.length < idx + k + ofBe ((bytes.drop idx).take k)
    · simp [hfield]
    · simp only [hfield, not_false_eq_true, if_true, ok_bind, if_false]
      rw [slice_eq_ok_iff.mpr ⟨by omega, by omega, rfl⟩, ok_bind, Nat.add_sub_cancel_left]
      rfl

theorem prefixedField_ne_panic (hsize : idx + k + 256 ^ k ≤ 2 ^ 64) :
    prefixedField k shortLen shortField bytes idx ≠ panic := by
  rw [prefixedField_eq hsize]
  dsimp only
  split_ifs <;> simp

/-- **The reader finds the field that is there, and all of it.** -/
theorem prefixedField_eq_ok_iff (hsize : idx + k + 256 ^ k ≤ 2 ^ 64) {field : List UInt8}
    {stop : ℕ} :
    prefixedField k shortLen shortField bytes idx = ok (field, stop) ↔
      Prefixed k (bytes.drop idx) field (bytes.drop stop) ∧ stop = idx + k + field.length ∧
        stop ≤ bytes.length := by
  rw [prefixedField_eq hsize]
  dsimp only
  constructor
  · intro h
    split_ifs at h with hshort hfield
    obtain ⟨rfl, rfl⟩ := Prod.mk.inj (ok.inj h)
    have hlength : ((bytes.drop (idx + k)).take (ofBe ((bytes.drop idx).take k))).length =
        ofBe ((bytes.drop idx).take k) := length_take_drop (by omega)
    refine ⟨⟨(bytes.drop idx).take k, ?_, hlength.symm, ?_⟩, by rw [hlength], by omega⟩
    · exact length_take_drop (by omega)
    · have hrest : bytes.drop (idx + k + ofBe ((bytes.drop idx).take k)) =
          (bytes.drop (idx + k)).drop (ofBe ((bytes.drop idx).take k)) := List.drop_drop.symm
      rw [hrest, List.take_append_drop, ← List.drop_drop, List.take_append_drop]
  · rintro ⟨⟨len, hlen, hfield, hbytes⟩, rfl, hstop⟩
    have htake : (bytes.drop idx).take k = len := by
      rw [hbytes, ← hlen, List.take_left]
    have hdrop : bytes.drop (idx + k) = field ++ bytes.drop (idx + k + field.length) := by
      rw [← List.drop_drop, hbytes, ← hlen, List.drop_left]
    rw [if_neg (by omega), htake, hfield, if_neg (by omega), hdrop, List.take_left]

variable (bytes idx) in
/-- A field that is there is read, and the cursor left in front of what follows it. -/
theorem prefixedField_of_prefixed (hsize : idx + k + 256 ^ k ≤ 2 ^ 64) (hidx : idx ≤ bytes.length)
    {field rest : List UInt8} (h : Prefixed k (bytes.drop idx) field rest) :
    ∃ stop, prefixedField k shortLen shortField bytes idx = ok (field, stop) ∧
      stop = idx + k + field.length ∧ stop ≤ bytes.length ∧ bytes.drop stop = rest := by
  obtain ⟨len, hlen, hfield, hbytes⟩ := h
  have hrest : bytes.drop (idx + k + field.length) = rest := by
    rw [Nat.add_assoc, ← List.drop_drop, hbytes, ← List.append_assoc, ← hlen,
      ← List.length_append, List.drop_left]
  have hstop : idx + k + field.length ≤ bytes.length := by
    have hlength := congrArg List.length hbytes
    simp only [List.length_drop, List.length_append] at hlength
    omega
  refine ⟨_, (prefixedField_eq_ok_iff hsize).mpr ⟨⟨len, hlen, hfield, ?_⟩, rfl, hstop⟩, rfl,
    hstop, hrest⟩
  rw [hbytes, hrest]

/-! ## Without a cursor -/

/-- A number of `k` bytes at `idx`, and where it ends. -/
def beField (k : ℕ) (short : ε) (bytes : List UInt8) (idx : ℕ) : Outcome ε (ℕ × ℕ) := do
  let stop ← usizeAdd idx k
  require (¬ bytes.length < stop) short
  let be ← bytesAt bytes idx (List.range k)
  return (ofBe be, stop)

/-- The number in the first `k` bytes, and what follows it. -/
def takeBe (k : ℕ) (short : ε) (rest : List UInt8) : Outcome ε (ℕ × List UInt8) :=
  if rest.length < k then err short else ok (ofBe (rest.take k), rest.drop k)

/-- The field behind a length of `k` bytes, and what follows it. -/
def takePrefixed (k : ℕ) (shortLen shortField : ε) (rest : List UInt8) :
    Outcome ε (List UInt8 × List UInt8) := do
  let (len, rest) ← takeBe k shortLen rest
  if rest.length < len then err shortField else ok (rest.take len, rest.drop len)

theorem takeBe_eq_ok_iff {short : ε} {rest rest' : List UInt8} {n : ℕ} :
    takeBe k short rest = ok (n, rest') ↔ Numbered k rest n rest' := by
  unfold takeBe
  constructor
  · intro h
    split_ifs at h with hshort
    obtain ⟨rfl, rfl⟩ := Prod.mk.inj (ok.inj h)
    exact ⟨rest.take k, List.length_take_of_le (not_lt.mp hshort), rfl,
      (List.take_append_drop k rest).symm⟩
  · rintro ⟨be, rfl, rfl, rfl⟩
    simp

theorem takePrefixed_eq_ok_iff {rest field rest' : List UInt8} :
    takePrefixed k shortLen shortField rest = ok (field, rest') ↔ Prefixed k rest field rest' := by
  simp only [takePrefixed, bind_eq_ok_iff, takeBe_eq_ok_iff, Prod.exists]
  constructor
  · rintro ⟨len, tail, ⟨be, hbe, rfl, rfl⟩, h⟩
    split_ifs at h with hshort
    obtain ⟨rfl, rfl⟩ := Prod.mk.inj (ok.inj h)
    exact ⟨be, hbe, (List.length_take_of_le (not_lt.mp hshort)).symm,
      by rw [List.take_append_drop]⟩
  · rintro ⟨len, hlen, hfield, rfl⟩
    exact ⟨_, _, ⟨len, hlen, hfield, rfl⟩, by simp⟩

theorem takeBe_ne_panic {short : ε} {rest : List UInt8} : takeBe k short rest ≠ panic := by
  unfold takeBe
  split_ifs <;> simp

theorem takePrefixed_ne_panic {rest : List UInt8} :
    takePrefixed k shortLen shortField rest ≠ panic := by
  simp only [takePrefixed, ne_eq, bind_eq_panic_iff, takeBe_ne_panic, false_or, not_exists, not_and,
    Prod.forall]
  intro len tail _
  split_ifs <;> simp

variable {β : Type}

/-- What follows a number, on the cursor and on the rest alike. -/
theorem beField_bind {short : ε} (hsize : idx + k < 2 ^ 64) (hidx : idx ≤ bytes.length)
    {f : ℕ × ℕ → Outcome ε β} {g : ℕ × List UInt8 → Outcome ε β}
    (h : ∀ n stop, stop = idx + k → stop ≤ bytes.length → f (n, stop) = g (n, bytes.drop stop)) :
    (beField k short bytes idx >>= f) = (takeBe k short (bytes.drop idx) >>= g) := by
  rw [beField, usizeAdd_eq_ok hsize, ok_bind, takeBe, List.length_drop]
  by_cases hshort : bytes.length < idx + k
  · simp [require, hshort, show bytes.length - idx < k by omega]
  · rw [if_neg (show ¬ bytes.length - idx < k by omega), ok_bind, List.drop_drop]
    simp only [require, hshort, not_false_eq_true, if_true, ok_bind]
    rw [bytesAt_range (by omega) hsize, ok_bind]
    exact h _ _ rfl (by omega)

/-- What follows a field, on the cursor and on the rest alike. -/
theorem prefixedField_bind (hsize : idx + k + 256 ^ k ≤ 2 ^ 64) (hidx : idx ≤ bytes.length)
    {f : List UInt8 × ℕ → Outcome ε β} {g : List UInt8 × List UInt8 → Outcome ε β}
    (h : ∀ field stop, stop < idx + k + 256 ^ k → stop ≤ bytes.length →
      f (field, stop) = g (field, bytes.drop stop)) :
    (prefixedField k shortLen shortField bytes idx >>= f) =
      (takePrefixed k shortLen shortField (bytes.drop idx) >>= g) := by
  rw [prefixedField_eq hsize, takePrefixed, takeBe, List.length_drop]
  dsimp only
  by_cases hshort : bytes.length < idx + k
  · rw [if_pos hshort, if_pos (show bytes.length - idx < k by omega)]
    rfl
  · have hlen : ofBe ((bytes.drop idx).take k) < 256 ^ k := ofBe_take_drop_lt (by omega)
    rw [if_neg hshort, if_neg (show ¬ bytes.length - idx < k by omega), ok_bind, List.drop_drop,
      List.length_drop]
    by_cases hfield : bytes.length < idx + k + ofBe ((bytes.drop idx).take k)
    · rw [if_pos hfield, if_pos (by omega)]
      rfl
    · rw [if_neg hfield, if_neg (by omega), ok_bind, ok_bind, List.drop_drop]
      exact h _ _ (by omega) (by omega)

/-! ## Bytes that are cut -/

/-- Of parts that follow one another, the text of the first that `n` bytes do not hold whole. -/
def firstMissing {τ : Type} : List (ℕ × τ) → ℕ → Option τ
  | [], _ => none
  | (size, text) :: parts, n => if n < size then some text else firstMissing parts (n - size)

/-- The outcome is the error of the first part that `n` bytes do not hold whole. -/
def Misses {τ : Type} (message : τ → ε) (parts : List (ℕ × τ)) (n : ℕ) (x : Outcome ε β) : Prop :=
  ∃ text, firstMissing parts n = some text ∧ x = err (message text)

section Cut

variable {τ : Type} {message : τ → ε} {parts : List (ℕ × τ)} {cut rest : List UInt8} {n : ℕ}

theorem Misses.head {x : Outcome ε β} {size : ℕ} {text : τ} (hshort : n < size)
    (hx : x = err (message text)) : Misses message ((size, text) :: parts) n x :=
  ⟨text, if_pos hshort, hx⟩

theorem Misses.tail {x : Outcome ε β} (h : Misses message parts n x) (size : ℕ) (text : τ) :
    Misses message ((size, text) :: parts) (size + n) x := by
  obtain ⟨missing, hfirst, hx⟩ := h
  refine ⟨missing, ?_, hx⟩
  rw [firstMissing, if_neg (Nat.not_lt.mpr (Nat.le_add_right size n)), Nat.add_sub_cancel_left,
    hfirst]

/-- A number that bytes which are cut do not hold is missed, or the cut is in what follows it. -/
theorem takeBe_bind_of_cut {short : τ} {f : ℕ × List UInt8 → Outcome ε β}
    (h : Numbered k bytes n rest) (hcut : cut <+: bytes)
    (hf : ∀ rest', rest' <+: rest → Misses message parts rest'.length (f (n, rest')) ∨
      rest' = rest) :
    Misses message ((k, short) :: parts) cut.length (takeBe k (message short) cut >>= f) ∨
      cut = bytes := by
  obtain ⟨be, rfl, rfl, rfl⟩ := h
  by_cases hshort : cut.length < be.length
  · exact .inl (.head hshort (by rw [takeBe, if_pos hshort, err_bind]))
  · obtain ⟨rest', rfl⟩ :=
      List.prefix_of_prefix_length_le (List.prefix_append be rest) hcut (not_lt.mp hshort)
    have hread : (takeBe be.length (message short) (be ++ rest')) = ok (ofBe be, rest') :=
      takeBe_eq_ok_iff.mpr ⟨be, rfl, rfl, rfl⟩
    rw [hread, ok_bind, List.length_append]
    exact (hf rest' ((List.prefix_append_right_inj be).mp hcut)).imp (fun h => h.tail _ _)
      (fun h => by rw [h])

/-- A field that bytes which are cut do not hold is missed, or its length, or the cut is in what
follows it. -/
theorem takePrefixed_bind_of_cut {shortLen shortField : τ} {field : List UInt8}
    {f : List UInt8 × List UInt8 → Outcome ε β} (h : Prefixed k bytes field rest)
    (hcut : cut <+: bytes)
    (hf : ∀ rest', rest' <+: rest → Misses message parts rest'.length (f (field, rest')) ∨
      rest' = rest) :
    Misses message ((k, shortLen) :: (field.length, shortField) :: parts) cut.length
        (takePrefixed k (message shortLen) (message shortField) cut >>= f) ∨ cut = bytes := by
  obtain ⟨len, hlen, hfield, rfl⟩ := h
  rw [takePrefixed, bind_assoc]
  refine takeBe_bind_of_cut ⟨len, hlen, hfield, rfl⟩ hcut fun tail htail => ?_
  dsimp only
  by_cases hshort : tail.length < field.length
  · exact .inl (.head hshort (by rw [if_pos hshort, err_bind]))
  · obtain ⟨rest', rfl⟩ :=
      List.prefix_of_prefix_length_le (List.prefix_append field rest) htail (not_lt.mp hshort)
    rw [if_neg hshort, ok_bind, List.take_left, List.drop_left, List.length_append]
    exact (hf rest' ((List.prefix_append_right_inj field).mp htail)).imp (fun h => h.tail _ _)
      (fun h => by rw [h])

end Cut

end Reader

end Wire

import Mathlib.Data.Nat.Digits.Defs

/-!
# Text

Strings as programs cut them: prefixes and suffixes taken off, occurrences of a separator, lines and
white space, and text read from bytes that need not be UTF-8. All of it is over the characters of a
string.

## Main definitions

* `stripPrefix`, `stripSuffix`, `startsWith`, `endsWith`
* `breakOn`, `contains`, `splitOnce`, `secondPiece`: the occurrences of a separator
* `trim`, `lines`, `toAsciiLowercase`
* `lowerHex`, `lowerHexPadded`: hexadecimal digits
* `fromUtf8Lossy`: text from bytes, ill-formed parts replaced

## Main results

* `startsWith_iff`, `endsWith_iff`, `stripPrefix_append`, `stripSuffix_append`: cuts, put back
* `append_eq_append_iff`: two ways to cut one string
* `append_sep_append_eq_iff`: two ways to cut one string at a separator
* `breakOn_append`, `breakOn_eq_none`: the first occurrence of a character
* `length_lowerHex_le_iff`, `ofHex_lowerHex`: the digits of a number, and the number of digits
* `contains_fromUtf8Lossy_iff`: ASCII text is read exactly where its bytes are
* `fromUtf8Lossy_toUTF8`: text that was written is read back
-/

namespace Text

/-! ## Prefixes and suffixes -/

def startsWith (s front : String) : Bool := front.toList.isPrefixOf s.toList

def endsWith (s back : String) : Bool := back.toList.isSuffixOf s.toList

/-- What follows `front`, if `s` starts with it. -/
def stripPrefix (s front : String) : Option String :=
  if startsWith s front then some (String.ofList (s.toList.drop front.toList.length)) else none

/-- What comes before `back`, if `s` ends with it. -/
def stripSuffix (s back : String) : Option String :=
  if endsWith s back then
    some (String.ofList (s.toList.take (s.toList.length - back.toList.length)))
  else none

theorem startsWith_iff {s front : String} : startsWith s front = true ↔ ∃ r, s = front ++ r := by
  rw [startsWith, List.isPrefixOf_iff_prefix]
  constructor
  · rintro ⟨r, hr⟩
    refine ⟨String.ofList r, String.toList_inj.mp ?_⟩
    rw [String.toList_append, String.toList_ofList, hr]
  · rintro ⟨r, rfl⟩
    exact ⟨r.toList, String.toList_append.symm⟩

theorem endsWith_iff {s back : String} : endsWith s back = true ↔ ∃ r, s = r ++ back := by
  rw [endsWith, List.isSuffixOf_iff_suffix]
  constructor
  · rintro ⟨r, hr⟩
    refine ⟨String.ofList r, String.toList_inj.mp ?_⟩
    rw [String.toList_append, String.toList_ofList, hr]
  · rintro ⟨r, rfl⟩
    exact ⟨r.toList, String.toList_append.symm⟩

@[simp] theorem stripPrefix_append (front r : String) :
    stripPrefix (front ++ r) front = some r := by
  have hstarts : startsWith (front ++ r) front = true := startsWith_iff.mpr ⟨r, rfl⟩
  rw [stripPrefix, if_pos hstarts, String.toList_append, List.drop_left, String.ofList_toList]

@[simp] theorem stripSuffix_append (r back : String) :
    stripSuffix (r ++ back) back = some r := by
  have hends : endsWith (r ++ back) back = true := endsWith_iff.mpr ⟨r, rfl⟩
  rw [stripSuffix, if_pos hends, String.toList_append, List.length_append, Nat.add_sub_cancel,
    List.take_left, String.ofList_toList]

/-- Two ways to cut one string in two: one of the cuts comes first. -/
theorem append_eq_append_iff {a b c d : String} :
    a ++ b = c ++ d ↔ (∃ t, c = a ++ t ∧ b = t ++ d) ∨ ∃ t, a = c ++ t ∧ d = t ++ b := by
  constructor
  · intro h
    have hchars := congrArg String.toList h
    rw [String.toList_append, String.toList_append, List.append_eq_append_iff] at hchars
    refine hchars.imp ?_ ?_
    all_goals
      rintro ⟨t, hleft, hright⟩
      refine ⟨String.ofList t, String.toList_inj.mp ?_, String.toList_inj.mp ?_⟩
    all_goals
      rw [String.toList_append, String.toList_ofList]
      assumption
  · rintro (⟨t, rfl, rfl⟩ | ⟨t, rfl, rfl⟩)
    · rw [String.append_assoc]
    · rw [String.append_assoc]

/-- A text behind a separator of one character: another separator opens it, or lies further in. -/
theorem sep_append_eq_iff {sep b d t : String} (hsep : sep.toList.length = 1) :
    sep ++ b = t ++ (sep ++ d) ↔ (t = "" ∧ b = d) ∨ ∃ x, t = sep ++ x ∧ b = x ++ sep ++ d := by
  constructor
  · intro h
    rcases append_eq_append_iff.mp h with ⟨x, rfl, hb⟩ | ⟨x, hcut, hd⟩
    · exact .inr ⟨x, rfl, hb.trans (String.append_assoc).symm⟩
    · -- The separator is cut in two: one of the parts is empty.
      have hlength : t.toList.length + x.toList.length = 1 := by
        rw [← hsep, hcut, String.toList_append, List.length_append]
      by_cases ht : t = ""
      · subst ht
        rw [String.empty_append] at hcut
        subst hcut
        exact .inl ⟨rfl, ((String.append_right_inj _).mp hd).symm⟩
      · have hx : x = "" := by
          have hpos : 0 < t.toList.length :=
            List.length_pos_iff.mpr fun hnil => ht (String.toList_eq_nil_iff.mp hnil)
          exact String.toList_eq_nil_iff.mp (List.length_eq_zero_iff.mp (by omega))
        subst hx
        rw [String.append_empty] at hcut
        rw [String.empty_append] at hd
        exact .inr ⟨"", by rw [hcut, String.append_empty], by rw [String.empty_append, hd]⟩
  · rintro (⟨rfl, rfl⟩ | ⟨x, rfl, rfl⟩)
    · rw [String.empty_append]
    · simp only [String.append_assoc]

/-- **Two ways to cut one string at a separator** of one character: at the same place, or one of
the cuts comes first and what lies between is in both of the strings that are not cut there. -/
theorem append_sep_append_eq_iff {sep a b c d : String} (hsep : sep.toList.length = 1) :
    a ++ sep ++ b = c ++ sep ++ d ↔ (a = c ∧ b = d) ∨
      (∃ x, a = c ++ sep ++ x ∧ d = x ++ sep ++ b) ∨
        ∃ x, c = a ++ sep ++ x ∧ b = x ++ sep ++ d := by
  rw [String.append_assoc, String.append_assoc, append_eq_append_iff]
  simp only [sep_append_eq_iff hsep]
  constructor
  · rintro (⟨t, rfl, ⟨rfl, rfl⟩ | ⟨x, rfl, rfl⟩⟩ | ⟨t, rfl, ⟨rfl, rfl⟩ | ⟨x, rfl, rfl⟩⟩)
    · exact .inl ⟨(String.append_empty).symm, rfl⟩
    · exact .inr (.inr ⟨x, (String.append_assoc).symm, rfl⟩)
    · exact .inl ⟨String.append_empty, rfl⟩
    · exact .inr (.inl ⟨x, (String.append_assoc).symm, rfl⟩)
  · rintro (⟨rfl, rfl⟩ | ⟨x, rfl, rfl⟩ | ⟨x, rfl, rfl⟩)
    · exact .inl ⟨"", (String.append_empty).symm, .inl ⟨rfl, rfl⟩⟩
    · exact .inr ⟨sep ++ x, String.append_assoc, .inr ⟨x, rfl, rfl⟩⟩
    · exact .inl ⟨sep ++ x, String.append_assoc, .inr ⟨x, rfl, rfl⟩⟩

/-! ## Occurrences -/

/-- The text before and after the first occurrence of `sep`. -/
def breakOn (sep : List Char) : List Char → Option (List Char × List Char)
  | [] => if sep = [] then some ([], []) else none
  | c :: s =>
    if sep.isPrefixOf (c :: s) then some ([], (c :: s).drop sep.length)
    else (breakOn sep s).map fun (before, after) => (c :: before, after)

/-- A text without the character has no occurrence of it. -/
theorem breakOn_eq_none {c : Char} {s : List Char} (h : c ∉ s) : breakOn [c] s = none := by
  induction s with
  | nil => rfl
  | cons d s ih =>
    rw [List.mem_cons, not_or] at h
    have hfront : [c].isPrefixOf (d :: s) = false := by simp [List.isPrefixOf, h.1]
    rw [breakOn, hfront, ih h.2]
    rfl

/-- The first occurrence of a character comes after a text without it. -/
theorem breakOn_append {c : Char} {s : List Char} (h : c ∉ s) (after : List Char) :
    breakOn [c] (s ++ c :: after) = some (s, after) := by
  induction s with
  | nil => simp [breakOn]
  | cons d s ih =>
    rw [List.mem_cons, not_or] at h
    have hfront : [c].isPrefixOf (d :: (s ++ c :: after)) = false := by simp [List.isPrefixOf, h.1]
    rw [List.cons_append, breakOn, hfront, ih h.2]
    rfl

theorem isSome_breakOn {sep s : List Char} : (breakOn sep s).isSome = true ↔ sep <:+: s := by
  induction s with
  | nil =>
    rw [breakOn, List.infix_nil]
    split_ifs with h <;> simp [h]
  | cons c s ih =>
    rw [breakOn, List.infix_cons_iff, ← ih]
    split_ifs with h
    · exact iff_of_true rfl (.inl (List.isPrefixOf_iff_prefix.mp h))
    · rw [Option.isSome_map, or_iff_right fun hprefix => h (List.isPrefixOf_iff_prefix.mpr hprefix)]

def contains (s sep : String) : Bool := (breakOn sep.toList s.toList).isSome

theorem contains_iff {s sep : String} : contains s sep = true ↔ sep.toList <:+: s.toList :=
  isSome_breakOn

/-- The pieces of `s` around the first occurrence of `sep`, or `s` alone. -/
def splitOnce (s sep : String) : List String :=
  match breakOn sep.toList s.toList with
  | some (before, after) => [String.ofList before, String.ofList after]
  | none => [s]

/-- The second piece of `s`, cut at every occurrence of `sep`. -/
def secondPiece (s sep : String) : Option String :=
  (breakOn sep.toList s.toList).map fun (_, after) =>
    String.ofList (((breakOn sep.toList after).map Prod.fst).getD after)

/-- Cuts at every occurrence of `sep`: `piece` is read so far, and `skip` characters belong to the
occurrence before. -/
def splitFrom (sep : List Char) : ℕ → List Char → List Char → List (List Char)
  | _, piece, [] => [piece]
  | skip + 1, piece, _ :: s => splitFrom sep skip piece s
  | 0, piece, c :: s =>
    if sep.isPrefixOf (c :: s) then piece :: splitFrom sep (sep.length - 1) [] s
    else splitFrom sep 0 (piece ++ [c]) s

/-- The pieces of `s` between the occurrences of a text that is not empty. -/
def split (s sep : String) : List String :=
  (splitFrom sep.toList 0 [] s.toList).map String.ofList

/-! ## White space, lines and case -/

/-- The Unicode property `White_Space`. -/
def isWhitespace (c : Char) : Bool :=
  let n := c.toNat
  (0x9 ≤ n && n ≤ 0xD) || n == 0x20 || n == 0x85 || n == 0xA0 || n == 0x1680 ||
    (0x2000 ≤ n && n ≤ 0x200A) || n == 0x2028 || n == 0x2029 || n == 0x202F || n == 0x205F ||
    n == 0x3000

def trim (s : String) : String :=
  String.ofList (((s.toList.dropWhile isWhitespace).reverse.dropWhile isWhitespace).reverse)

theorem length_trim_le (s : String) : (trim s).length ≤ s.length := by
  have hfront : (s.toList.dropWhile isWhitespace).length ≤ s.toList.length :=
    (List.dropWhile_suffix _).length_le
  have hback : ((s.toList.dropWhile isWhitespace).reverse.dropWhile isWhitespace).length ≤
      (s.toList.dropWhile isWhitespace).reverse.length := (List.dropWhile_suffix _).length_le
  rw [List.length_reverse] at hback
  rw [trim, String.length_ofList, List.length_reverse, ← String.length_toList]
  exact hback.trans hfront

/-- A line without the carriage return at its end. -/
def stripReturn (line : List Char) : List Char :=
  if line.getLast? = some '\r' then line.dropLast else line

/-- Cuts at line feeds, `line` being read so far. -/
def linesFrom (line : List Char) : List Char → List (List Char)
  -- Nothing follows the last line feed: there is no empty line at the end.
  | [] => if line = [] then [] else [line]
  | c :: s => if c = '\n' then stripReturn line :: linesFrom [] s else linesFrom (line ++ [c]) s

def lines (s : String) : List String := (linesFrom [] s.toList).map String.ofList

def toAsciiLowercase (s : String) : String :=
  String.ofList (s.toList.map fun c => if 'A' ≤ c ∧ c ≤ 'Z' then Char.ofNat (c.toNat + 32) else c)

/-! ## Hexadecimal digits -/

/-- `{:x}`. -/
def lowerHex (n : ℕ) : List Char := Nat.toDigits 16 n

/-- `{:0width$x}`. -/
def lowerHexPadded (width n : ℕ) : List Char :=
  List.replicate (width - (lowerHex n).length) '0' ++ lowerHex n

def isLowerHex (c : Char) : Bool := ('0' ≤ c && c ≤ '9') || ('a' ≤ c && c ≤ 'f')

def ofHexDigit (c : Char) : ℕ :=
  if c ≤ '9' then c.toNat - '0'.toNat else c.toNat - 'a'.toNat + 10

/-- The number that digits read as. -/
def ofHex (digits : List Char) : ℕ := digits.foldl (fun n c => 16 * n + ofHexDigit c) 0

theorem digitChar_lowerHex : ∀ d < 16, isLowerHex d.digitChar = true ∧
    ofHexDigit d.digitChar = d := by decide

/-- The digits of a number: the last one, behind those of a sixteenth of it. -/
theorem lowerHex_eq (n : ℕ) :
    lowerHex n = if n < 16 then [n.digitChar] else lowerHex (n / 16) ++ [(n % 16).digitChar] :=
  Nat.toDigits_eq_if (by decide)

theorem length_lowerHex_le_iff {n k : ℕ} (hk : 0 < k) : (lowerHex n).length ≤ k ↔ n < 16 ^ k :=
  Nat.length_toDigits_le_iff (by decide) hk

theorem isLowerHex_of_mem_lowerHex (n : ℕ) : ∀ c ∈ lowerHex n, isLowerHex c = true := by
  induction n using Nat.strongRecOn with
  | ind n ih =>
    rw [lowerHex_eq]
    split_ifs with hn
    · simpa using (digitChar_lowerHex n hn).1
    · intro c hc
      rcases List.mem_append.mp hc with hc | hc
      · exact ih (n / 16) (by omega) c hc
      · rw [List.mem_singleton.mp hc]
        exact (digitChar_lowerHex (n % 16) (Nat.mod_lt _ (by decide))).1

theorem ofHex_append_singleton (digits : List Char) (c : Char) :
    ofHex (digits ++ [c]) = 16 * ofHex digits + ofHexDigit c := by
  rw [ofHex, List.foldl_append]
  rfl

theorem ofHex_lowerHex (n : ℕ) : ofHex (lowerHex n) = n := by
  induction n using Nat.strongRecOn with
  | ind n ih =>
    rw [lowerHex_eq]
    split_ifs with hn
    · change 16 * 0 + ofHexDigit n.digitChar = n
      rw [(digitChar_lowerHex n hn).2, Nat.mul_zero, Nat.zero_add]
    · rw [ofHex_append_singleton, ih (n / 16) (by omega),
        (digitChar_lowerHex (n % 16) (Nat.mod_lt _ (by decide))).2]
      omega

/-- Zeros in front do not count. -/
theorem ofHex_replicate_append (k : ℕ) (digits : List Char) :
    ofHex (List.replicate k '0' ++ digits) = ofHex digits := by
  induction k with
  | zero => rfl
  | succ k ih => exact ih

theorem ofHex_lowerHexPadded (width n : ℕ) : ofHex (lowerHexPadded width n) = n := by
  rw [lowerHexPadded, ofHex_replicate_append, ofHex_lowerHex]

theorem isLowerHex_of_mem_lowerHexPadded (width n : ℕ) :
    ∀ c ∈ lowerHexPadded width n, isLowerHex c = true := by
  intro c hc
  rcases List.mem_append.mp hc with hc | hc
  · rw [List.eq_of_mem_replicate hc]
    rfl
  · exact isLowerHex_of_mem_lowerHex n c hc

theorem length_lowerHexPadded {width n : ℕ} (hwidth : 0 < width) (hn : n < 16 ^ width) :
    (lowerHexPadded width n).length = width := by
  have hle := (length_lowerHex_le_iff hwidth).mpr hn
  rw [lowerHexPadded, List.length_append, List.length_replicate]
  omega

/-! ## Bytes -/

def isContinuation (b : ℕ) : Bool := 0x80 ≤ b && b ≤ 0xBF

/-- The second bytes that may follow the first byte of three or four. -/
def followsLead (lead b : ℕ) : Bool :=
  if lead = 0xE0 then 0xA0 ≤ b && b ≤ 0xBF
  else if lead = 0xED then 0x80 ≤ b && b ≤ 0x9F
  else if lead = 0xF0 then 0x90 ≤ b && b ≤ 0xBF
  else if lead = 0xF4 then 0x80 ≤ b && b ≤ 0x8F
  else isContinuation b

/-- The character at the head of bytes and the number of bytes it takes. A sequence that breaks off
is the replacement character, for as many bytes as were well-formed. -/
def lossyChar (lead : ℕ) (rest : List ℕ) : Char × ℕ :=
  let bad (n : ℕ) : Char × ℕ := ('\uFFFD', n)
  if lead < 0x80 then (Char.ofNat lead, 1)
  else if 0xC2 ≤ lead ∧ lead ≤ 0xDF then
    match rest with
    | b :: _ =>
      if isContinuation b then (Char.ofNat ((lead - 0xC0) * 0x40 + (b - 0x80)), 2) else bad 1
    | [] => bad 1
  else if 0xE0 ≤ lead ∧ lead ≤ 0xEF then
    match rest with
    | b :: rest =>
      if followsLead lead b then
        match rest with
        | c :: _ =>
          if isContinuation c then
            (Char.ofNat ((lead - 0xE0) * 0x1000 + (b - 0x80) * 0x40 + (c - 0x80)), 3)
          else bad 2
        | [] => bad 2
      else bad 1
    | [] => bad 1
  else if 0xF0 ≤ lead ∧ lead ≤ 0xF4 then
    match rest with
    | b :: rest =>
      if followsLead lead b then
        match rest with
        | c :: rest =>
          if isContinuation c then
            match rest with
            | d :: _ =>
              if isContinuation d then
                (Char.ofNat ((lead - 0xF0) * 0x40000 + (b - 0x80) * 0x1000 + (c - 0x80) * 0x40 +
                  (d - 0x80)), 4)
              else bad 3
            | [] => bad 3
          else bad 2
        | [] => bad 2
      else bad 1
    | [] => bad 1
  else bad 1

/-- At most `fuel` characters of the bytes. -/
def lossyChars : ℕ → List ℕ → List Char
  | 0, _ => []
  | _ + 1, [] => []
  | fuel + 1, lead :: rest =>
    let (c, n) := lossyChar lead rest
    c :: lossyChars fuel (rest.drop (n - 1))

def fromUtf8Lossy (bytes : List UInt8) : String :=
  -- A character takes at least one byte.
  String.ofList (lossyChars bytes.length (bytes.map UInt8.toNat))

/-- A character that is not replaced. -/
theorem toNat_ofNat {n : ℕ} (h : n.isValidChar) : (Char.ofNat n).toNat = n := by
  rw [Char.ofNat, dif_pos h]
  rfl

theorem lossyChar_ascii {lead : ℕ} (h : lead < 0x80) (rest : List ℕ) :
    lossyChar lead rest = (Char.ofNat lead, 1) :=
  if_pos h

theorem le_of_isContinuation {b : ℕ} (h : isContinuation b = true) : 0x80 ≤ b ∧ b ≤ 0xBF := by
  simpa [isContinuation] using h

theorem le_of_followsLead {lead b : ℕ} (h : followsLead lead b = true) :
    0x80 ≤ b ∧ b ≤ 0xBF ∧ (lead = 0xE0 → 0xA0 ≤ b) ∧ (lead = 0xED → b ≤ 0x9F) ∧
      (lead = 0xF0 → 0x90 ≤ b) ∧ (lead = 0xF4 → b ≤ 0x8F) := by
  unfold followsLead at h
  split_ifs at h <;> simp only [isContinuation, Bool.and_eq_true, decide_eq_true_eq] at h <;> omega

/-- A character whose first byte is not ASCII is not ASCII, and takes no ASCII byte with it. -/
theorem lossyChar_spec {lead : ℕ} (h : 0x80 ≤ lead) (rest : List ℕ) :
    0x80 ≤ (lossyChar lead rest).1.toNat ∧
      ∀ b ∈ rest.take ((lossyChar lead rest).2 - 1), 0x80 ≤ b := by
  have hbad : 0x80 ≤ '\uFFFD'.toNat := by decide
  simp only [lossyChar]
  rw [if_neg (by omega)]
  split_ifs with htwo hthree hfour
  · split
    · next b rest =>
      split_ifs with hb
      · have hb := le_of_isContinuation hb
        rw [toNat_ofNat (.inl (by omega))]
        exact ⟨by omega, by simp; omega⟩
      · exact ⟨hbad, by simp⟩
    · exact ⟨hbad, by simp⟩
  · split
    · next b rest =>
      split_ifs with hb
      · have hb := le_of_followsLead hb
        split
        · next c rest =>
          split_ifs with hc
          · have hc := le_of_isContinuation hc
            rw [toNat_ofNat (by simp only [Nat.isValidChar]; omega)]
            exact ⟨by omega, by simp; omega⟩
          · exact ⟨hbad, by simp; omega⟩
        · exact ⟨hbad, by simp; omega⟩
      · exact ⟨hbad, by simp⟩
    · exact ⟨hbad, by simp⟩
  · split
    · next b rest =>
      split_ifs with hb
      · have hb := le_of_followsLead hb
        split
        · next c rest =>
          split_ifs with hc
          · have hc := le_of_isContinuation hc
            split
            · next d rest =>
              split_ifs with hd
              · have hd := le_of_isContinuation hd
                rw [toNat_ofNat (by simp only [Nat.isValidChar]; omega)]
                exact ⟨by omega, by simp; omega⟩
              · exact ⟨hbad, by simp; omega⟩
            · exact ⟨hbad, by simp; omega⟩
          · exact ⟨hbad, by simp; omega⟩
        · exact ⟨hbad, by simp; omega⟩
      · exact ⟨hbad, by simp⟩
    · exact ⟨hbad, by simp⟩
  · exact ⟨hbad, by simp⟩

/-- ASCII text is not found in bytes that are not. -/
theorem infix_drop_iff {ascii : List ℕ} (hne : ascii ≠ []) (hascii : ∀ b ∈ ascii, b < 0x80)
    {bytes : List ℕ} {n : ℕ} (h : ∀ b ∈ bytes.take n, 0x80 ≤ b) :
    ascii <:+: bytes.drop n ↔ ascii <:+: bytes := by
  induction n generalizing bytes with
  | zero => rfl
  | succ n ih =>
    cases bytes with
    | nil => rfl
    | cons b bytes =>
      rw [List.take_succ_cons] at h
      rw [List.drop_succ_cons, ih fun b' hb' => h b' (List.mem_cons_of_mem b hb'),
        List.infix_cons_iff, or_iff_right]
      intro hprefix
      obtain ⟨c, ascii, rfl⟩ := List.exists_cons_of_ne_nil hne
      have heq := (List.cons_prefix_cons.mp hprefix).1
      exact absurd (h b List.mem_cons_self) (heq ▸ Nat.not_le.mpr (hascii c List.mem_cons_self))

/-- ASCII text is at the front of what is read exactly where its bytes are. -/
theorem prefix_lossyChars_iff {text : List Char} (hascii : ∀ c ∈ text, c.toNat < 0x80) {fuel : ℕ}
    {bytes : List ℕ} (hfuel : bytes.length ≤ fuel) :
    text <+: lossyChars fuel bytes ↔ text.map Char.toNat <+: bytes := by
  induction text generalizing fuel bytes with
  | nil => simp
  | cons c text ih =>
    cases bytes with
    | nil => cases fuel <;> simp [lossyChars]
    | cons lead rest =>
      cases fuel with
      | zero => exact absurd hfuel (Nat.not_succ_le_zero _)
      | succ fuel =>
        have hrest : rest.length ≤ fuel := Nat.le_of_succ_le_succ hfuel
        have hc := hascii c List.mem_cons_self
        rw [lossyChars, List.map_cons, List.cons_prefix_cons, List.cons_prefix_cons]
        rcases Nat.lt_or_ge lead 0x80 with hlead | hlead
        · have hvalid : lead.isValidChar := .inl (by omega)
          have hnext := ih (fun c' hc' => hascii c' (List.mem_cons_of_mem c hc')) hrest
          rw [lossyChar_ascii hlead]
          exact and_congr (by rw [← Char.toNat_inj, toNat_ofNat hvalid]) hnext
        · have hchar := (lossyChar_spec hlead rest).1
          refine iff_of_false (fun h => ?_) fun h => ?_
          · rw [← h.1] at hchar
            omega
          · omega

/-- ASCII text is in what is read exactly where its bytes are. -/
theorem infix_lossyChars_iff {text : List Char} (hne : text ≠ [])
    (hascii : ∀ c ∈ text, c.toNat < 0x80) {fuel : ℕ} {bytes : List ℕ}
    (hfuel : bytes.length ≤ fuel) :
    text <:+: lossyChars fuel bytes ↔ text.map Char.toNat <:+: bytes := by
  have hbytes : ∀ b ∈ text.map Char.toNat, b < 0x80 := by
    simpa using hascii
  induction fuel generalizing bytes with
  | zero =>
    obtain rfl := List.eq_nil_of_length_eq_zero (Nat.le_zero.mp hfuel)
    simp [lossyChars]
  | succ fuel ih =>
    cases bytes with
    | nil => simp [lossyChars]
    | cons lead rest =>
      have hrest : rest.length ≤ fuel := Nat.le_of_succ_le_succ hfuel
      have hdrop : (rest.drop ((lossyChar lead rest).2 - 1)).length ≤ fuel := by
        rw [List.length_drop]
        omega
      have hfront := prefix_lossyChars_iff hascii hfuel
      rw [lossyChars] at hfront ⊢
      rw [List.infix_cons_iff, List.infix_cons_iff, hfront]
      refine or_congr_right ((ih hdrop).trans ?_)
      rcases Nat.lt_or_ge lead 0x80 with hlead | hlead
      · rw [lossyChar_ascii hlead]
        rfl
      · exact infix_drop_iff (by simpa using hne) hbytes (lossyChar_spec hlead rest).2

/-- **ASCII text in bytes**: it is in what is read of the bytes exactly where it is in the bytes. -/
theorem contains_fromUtf8Lossy_iff {text : String} (hne : text.toList ≠ [])
    (hascii : ∀ c ∈ text.toList, c.toNat < 0x80) (bytes : List UInt8) :
    contains (fromUtf8Lossy bytes) text = true ↔
      text.toList.map Char.toNat <:+: bytes.map UInt8.toNat := by
  rw [contains_iff, fromUtf8Lossy, String.toList_ofList, infix_lossyChars_iff hne hascii]
  rw [List.length_map]

/-- The bytes of a character, read back. -/
theorem lossyChar_utf8EncodeChar (c : Char) (rest : List ℕ) :
    ∃ lead tail, (String.utf8EncodeChar c).map UInt8.toNat = lead :: tail ∧
      lossyChar lead (tail ++ rest) = (c, tail.length + 1) := by
  have hvalid : c.val.toNat < 0xD800 ∨ 0xDFFF < c.val.toNat ∧ c.val.toNat < 0x110000 := c.valid
  have hc : Char.ofNat c.val.toNat = c := Char.ofNat_toNat c
  generalize hv : c.val.toNat = v at hvalid hc
  unfold String.utf8EncodeChar
  rw [hv]
  -- By the number of bytes that the character takes.
  dsimp only
  split_ifs with h1 h2 h3
  · refine ⟨v, [], by simp [UInt8.toNat_ofNat']; omega, ?_⟩
    simp only [lossyChar, if_pos (by omega : v < 0x80), hc, List.length_nil]
  · refine ⟨v / 64 % 0x20 + 0xc0, [v % 0x40 + 0x80], ?_, ?_⟩
    · simp [UInt8.toNat_ofNat']; omega
    · have hchar : (v / 64 % 0x20 + 0xc0 - 0xC0) * 0x40 + (v % 0x40 + 0x80 - 0x80) = v := by omega
      simp only [lossyChar, List.singleton_append, isContinuation, List.length_singleton, hchar, hc]
      rw [if_neg (by omega), if_pos (by omega), if_pos (by simp; omega)]
  · refine ⟨v / 4096 % 0x10 + 0xe0, [v / 64 % 0x40 + 0x80, v % 0x40 + 0x80], ?_, ?_⟩
    · simp [UInt8.toNat_ofNat']; omega
    · have hchar : (v / 4096 % 0x10 + 0xe0 - 0xE0) * 0x1000 + (v / 64 % 0x40 + 0x80 - 0x80) * 0x40 +
          (v % 0x40 + 0x80 - 0x80) = v := by omega
      have hfollows : followsLead (v / 4096 % 0x10 + 0xe0) (v / 64 % 0x40 + 0x80) = true := by
        simp only [followsLead, isContinuation]
        split_ifs <;> simp <;> omega
      simp only [lossyChar, List.cons_append, List.nil_append, hfollows, isContinuation, hchar, hc]
      rw [if_neg (by omega), if_neg (by omega), if_pos (by omega), if_pos trivial,
        if_pos (by simp; omega)]
      rfl
  · refine ⟨v / 262144 % 0x08 + 0xf0,
      [v / 4096 % 0x40 + 0x80, v / 64 % 0x40 + 0x80, v % 0x40 + 0x80], ?_, ?_⟩
    · simp [UInt8.toNat_ofNat']; omega
    · have hchar : (v / 262144 % 0x08 + 0xf0 - 0xF0) * 0x40000 +
          (v / 4096 % 0x40 + 0x80 - 0x80) * 0x1000 + (v / 64 % 0x40 + 0x80 - 0x80) * 0x40 +
          (v % 0x40 + 0x80 - 0x80) = v := by omega
      have hfollows : followsLead (v / 262144 % 0x08 + 0xf0) (v / 4096 % 0x40 + 0x80) = true := by
        simp only [followsLead, isContinuation]
        split_ifs <;> simp <;> omega
      simp only [lossyChar, List.cons_append, List.nil_append, hfollows, isContinuation, hchar, hc]
      rw [if_neg (by omega), if_neg (by omega), if_neg (by omega), if_pos (by omega), if_pos trivial,
        if_pos (by simp; omega), if_pos (by simp; omega)]
      rfl

theorem lossyChars_utf8Encode (cs : List Char) {fuel : ℕ}
    (hfuel : (cs.flatMap String.utf8EncodeChar).length ≤ fuel) :
    lossyChars fuel ((cs.flatMap String.utf8EncodeChar).map UInt8.toNat) = cs := by
  induction cs generalizing fuel with
  | nil => cases fuel with
    | zero => rfl
    | succ fuel => rfl
  | cons c cs ih =>
    obtain ⟨lead, tail, hbytes, hchar⟩ := lossyChar_utf8EncodeChar c
      ((cs.flatMap String.utf8EncodeChar).map UInt8.toNat)
    have hlength : (String.utf8EncodeChar c).length = tail.length + 1 := by
      rw [← List.length_map (f := UInt8.toNat), hbytes, List.length_cons]
    rw [List.flatMap_cons, List.length_append, hlength] at hfuel
    rw [List.flatMap_cons, List.map_append, hbytes, List.cons_append]
    cases fuel with
    | zero => omega
    | succ fuel =>
      rw [lossyChars, hchar]
      dsimp only
      rw [Nat.add_sub_cancel, List.drop_left, ih (by omega)]

/-- The bytes of a text, character by character. -/
theorem toUTF8_eq_flatMap (s : String) :
    s.toUTF8.data.toList = s.toList.flatMap String.utf8EncodeChar := by
  rw [String.toUTF8, ← String.utf8Encode_toList, List.utf8Encode]
  simp

/-- **Text that was written is read back.** -/
theorem fromUtf8Lossy_toUTF8 (s : String) : fromUtf8Lossy s.toUTF8.data.toList = s := by
  rw [fromUtf8Lossy, toUTF8_eq_flatMap, lossyChars_utf8Encode _ le_rfl, String.ofList_toList]

/-- A text has no more characters than bytes. -/
theorem length_le_toUTF8 (s : String) : s.length ≤ s.toUTF8.data.toList.length := by
  rw [toUTF8_eq_flatMap, ← String.length_toList]
  induction s.toList with
  | nil => exact Nat.zero_le _
  | cons c cs ih =>
    have hchar := c.utf8Size_pos
    rw [List.flatMap_cons, List.length_append, String.length_utf8EncodeChar, List.length_cons]
    omega

/-- A character takes four bytes at most. -/
theorem length_toUTF8_le (s : String) : s.toUTF8.data.toList.length ≤ 4 * s.length := by
  rw [toUTF8_eq_flatMap, ← String.length_toList]
  induction s.toList with
  | nil => exact Nat.zero_le _
  | cons c cs ih =>
    have hchar := c.utf8Size_le_four
    rw [List.flatMap_cons, List.length_append, String.length_utf8EncodeChar, List.length_cons]
    omega

example : fromUtf8Lossy "aé€😀".toUTF8.data.toList = "aé€😀" := by decide

example : fromUtf8Lossy [0x61, 0xE2, 0x82, 0x62, 0xFF] = "a\uFFFDb\uFFFD" := by decide

end Text

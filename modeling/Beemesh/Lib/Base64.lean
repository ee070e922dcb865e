import Mathlib.Data.List.Basic

/-!
# Base64

The standard alphabet with canonical padding: three bytes are four symbols of six bits, a last
group of one or two bytes is padded with `=`, and the bits a padded group leaves over are zero.

## Main definitions

* `Base64.encode`, `Base64.decode`

## Main results

* `Base64.decode_encode`: what was encoded decodes to itself
* `Base64.length_decodeChars`: what is decoded is shorter than its text
-/

namespace Base64

def alphabet : List Char :=
  "ABCDEFGHIJKLMNOPQRSTUVWXYZabcdefghijklmnopqrstuvwxyz0123456789+/".toList

/-- The symbol of six bits. -/
def symbol (n : ℕ) : Char := alphabet.getD n '='

/-- The six bits of a symbol. -/
def value (c : Char) : Option ℕ := alphabet.findIdx? (· = c)

theorem value_symbol : ∀ n < 64, value (symbol n) = some n := by decide +kernel

theorem symbol_ne_pad : ∀ n < 64, symbol n ≠ '=' := by decide +kernel

def encodeChars : List UInt8 → List Char
  | [] => []
  | [a] => [symbol (a.toNat / 4), symbol (a.toNat % 4 * 16), '=', '=']
  | [a, b] =>
    [symbol (a.toNat / 4), symbol (a.toNat % 4 * 16 + b.toNat / 16), symbol (b.toNat % 16 * 4), '=']
  | a :: b :: c :: rest =>
    symbol (a.toNat / 4) :: symbol (a.toNat % 4 * 16 + b.toNat / 16) ::
      symbol (b.toNat % 16 * 4 + c.toNat / 64) :: symbol (c.toNat % 64) :: encodeChars rest

/-- The last group, with one or two pads. -/
def decodePadded (w x y : Char) : Option (List UInt8) := do
  let s₀ ← value w
  let s₁ ← value x
  if y = '=' then
    if s₁ % 16 = 0 then some [UInt8.ofNat (s₀ * 4 + s₁ / 16)] else none
  else
    let s₂ ← value y
    if s₂ % 4 = 0 then
      some [UInt8.ofNat (s₀ * 4 + s₁ / 16), UInt8.ofNat (s₁ % 16 * 16 + s₂ / 4)]
    else none

def decodeChars : List Char → Option (List UInt8)
  | [] => some []
  | w :: x :: y :: z :: rest =>
    if z = '=' then if rest = [] then decodePadded w x y else none
    else do
      let s₀ ← value w
      let s₁ ← value x
      let s₂ ← value y
      let s₃ ← value z
      let bytes ← decodeChars rest
      some (UInt8.ofNat (s₀ * 4 + s₁ / 16) :: UInt8.ofNat (s₁ % 16 * 16 + s₂ / 4) ::
        UInt8.ofNat (s₂ % 4 * 64 + s₃) :: bytes)
  | _ => none

def encode (bytes : List UInt8) : String := String.ofList (encodeChars bytes)

def decode (s : String) : Option (List UInt8) := decodeChars s.toList

theorem decodeChars_encodeChars (bytes : List UInt8) :
    decodeChars (encodeChars bytes) = some bytes := by
  -- A byte is put together again from its parts.
  have hbyte {n : ℕ} {a : UInt8} (h : n = a.toNat) : UInt8.ofNat n = a := by
    rw [h, UInt8.ofNat_toNat]
  induction bytes using encodeChars.induct with
  | case1 => rfl
  | case2 a =>
    have ha := a.toNat_lt
    simp only [encodeChars, decodeChars, decodePadded, if_true,
      value_symbol _ (show a.toNat / 4 < 64 by omega),
      value_symbol _ (show a.toNat % 4 * 16 < 64 by omega), Option.bind_eq_bind, Option.bind_some]
    rw [if_pos (by omega), hbyte (a := a) (by omega)]
  | case3 a b =>
    have ha := a.toNat_lt
    have hb := b.toNat_lt
    simp only [encodeChars, decodeChars, decodePadded, if_true,
      value_symbol _ (show a.toNat / 4 < 64 by omega),
      value_symbol _ (show a.toNat % 4 * 16 + b.toNat / 16 < 64 by omega),
      value_symbol _ (show b.toNat % 16 * 4 < 64 by omega),
      symbol_ne_pad _ (show b.toNat % 16 * 4 < 64 by omega), if_false, Option.bind_eq_bind,
      Option.bind_some]
    rw [if_pos (by omega), hbyte (a := a) (by omega), hbyte (a := b) (by omega)]
  | case4 a b c rest ih =>
    have ha := a.toNat_lt
    have hb := b.toNat_lt
    have hc := c.toNat_lt
    simp only [encodeChars, decodeChars,
      value_symbol _ (show a.toNat / 4 < 64 by omega),
      value_symbol _ (show a.toNat % 4 * 16 + b.toNat / 16 < 64 by omega),
      value_symbol _ (show b.toNat % 16 * 4 + c.toNat / 64 < 64 by omega),
      value_symbol _ (show c.toNat % 64 < 64 by omega),
      symbol_ne_pad _ (show c.toNat % 64 < 64 by omega), if_false, Option.bind_eq_bind,
      Option.bind_some, ih]
    rw [hbyte (a := a) (by omega), hbyte (a := b) (by omega), hbyte (a := c) (by omega)]

/-- What was encoded decodes to itself. -/
theorem decode_encode (bytes : List UInt8) : decode (encode bytes) = some bytes := by
  rw [decode, encode, String.toList_ofList, decodeChars_encodeChars]

/-- A byte takes four symbols at most. -/
theorem length_encodeChars_le (bytes : List UInt8) :
    (encodeChars bytes).length ≤ 4 * bytes.length := by
  induction bytes using encodeChars.induct with
  | case1 => exact Nat.le_refl 0
  | case2 a => exact Nat.le_refl 4
  | case3 a b => exact Nat.le_add_right 4 4
  | case4 a b c rest ih =>
    simp only [encodeChars, List.length_cons]
    omega

theorem length_decodePadded {w x y : Char} {bytes : List UInt8}
    (h : decodePadded w x y = some bytes) : bytes.length ≤ 2 := by
  simp only [decodePadded, Option.bind_eq_bind, Option.bind_eq_some_iff] at h
  obtain ⟨s₀, -, s₁, -, h⟩ := h
  split at h
  · split_ifs at h
    obtain rfl := Option.some.inj h
    exact Nat.le_succ 1
  · obtain ⟨s₂, -, h⟩ := Option.bind_eq_some_iff.mp h
    split_ifs at h
    obtain rfl := Option.some.inj h
    exact Nat.le_refl 2

/-- Four characters hold at most three bytes. -/
theorem length_decodeChars {chars : List Char} {bytes : List UInt8}
    (h : decodeChars chars = some bytes) : 4 * bytes.length ≤ 3 * chars.length := by
  fun_induction decodeChars chars generalizing bytes with
  | case1 =>
    obtain rfl := Option.some.inj h
    exact Nat.zero_le _
  | case2 w x y =>
    have hlength := length_decodePadded h
    simp only [List.length_cons]
    omega
  | case3 => exact nomatch h
  | case4 w x y z rest hz ih =>
    simp only [Option.bind_eq_bind, Option.bind_eq_some_iff] at h
    obtain ⟨s₀, -, s₁, -, s₂, -, s₃, -, bytes', hrest, h⟩ := h
    obtain rfl := Option.some.inj h
    have hlength := ih hrest
    simp only [List.length_cons]
    omega
  | case5 => exact nomatch h

end Base64

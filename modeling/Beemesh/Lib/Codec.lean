import Mathlib.Data.Nat.Digits.Defs

/-!
# Self-delimiting codecs

A codec writes values as bytes such that reading gives the value and the bytes that follow it.
Codecs compose: pairs one after the other, options behind a flag, and retracts through a map with
a partial inverse. A buffer that holds one value and nothing else reads back as that value.

## Main definitions

* `Codec α`: a writer, a reader, and the round trip
* `Codec.bytes`, `Codec.string`, `Codec.bitVec`: the basic codecs
* `Codec.prod`, `Codec.option`, `Codec.retract`: composition
* `Codec.write`, `Codec.read`: whole buffers

## Main results

* `Codec.read_write`: a written buffer reads back
* `Codec.decode_prod`, `Codec.decode_option_some`, `Codec.decode_retract`: what a composed codec
  reads is made of what its parts read
-/

/-- A writer and a reader of `α` in bytes. -/
structure Codec (α : Type*) where
  encode : α → List UInt8
  decode : List UInt8 → Option (α × List UInt8)
  decode_encode : ∀ a rest, decode (encode a ++ rest) = some (a, rest)

namespace Codec

variable {α β : Type*}

/-! ## Bytes -/

/-- Each byte behind a `1`, and a `0` at the end. -/
def encodeBytes : List UInt8 → List UInt8
  | [] => [0]
  | b :: bs => 1 :: b :: encodeBytes bs

def decodeBytes : List UInt8 → Option (List UInt8 × List UInt8)
  | 0 :: rest => some ([], rest)
  | 1 :: b :: rest => (decodeBytes rest).map fun r => (b :: r.1, r.2)
  | _ => none

theorem decodeBytes_encodeBytes (bs rest : List UInt8) :
    decodeBytes (encodeBytes bs ++ rest) = some (bs, rest) := by
  induction bs with
  | nil => rfl
  | cons b bs ih => simp [encodeBytes, decodeBytes, ih]

@[simp] theorem length_encodeBytes (bs : List UInt8) :
    (encodeBytes bs).length = 2 * bs.length + 1 := by
  induction bs with
  | nil => rfl
  | cons b bs ih =>
    rw [encodeBytes, List.length_cons, List.length_cons, ih, List.length_cons]
    omega

/-- What is read was there. -/
theorem length_decodeBytes {bs x rest : List UInt8} (h : decodeBytes bs = some (x, rest)) :
    x.length + rest.length ≤ bs.length := by
  fun_induction decodeBytes bs generalizing x with
  | case1 tail =>
    obtain ⟨rfl, rfl⟩ := Prod.mk.inj (Option.some.inj h)
    simp
  | case2 b tail ih =>
    obtain ⟨⟨y, rest'⟩, hy, heq⟩ := Option.map_eq_some_iff.mp h
    obtain ⟨rfl, rfl⟩ := Prod.mk.inj heq
    have hle : y.length + rest'.length ≤ tail.length := ih hy
    simp only [List.length_cons]
    omega
  | case3 => cases h

/-- Byte strings of any length. -/
def bytes : Codec (List UInt8) where
  encode := encodeBytes
  decode := decodeBytes
  decode_encode := decodeBytes_encodeBytes

/-! ## Composition -/

/-- One value after the other. -/
def prod (c : Codec α) (d : Codec β) : Codec (α × β) where
  encode p := c.encode p.1 ++ d.encode p.2
  decode bs := (c.decode bs).bind fun r => (d.decode r.2).map fun q => ((r.1, q.1), q.2)
  decode_encode p rest := by
    rw [List.append_assoc, c.decode_encode, Option.bind_some, d.decode_encode]
    rfl

/-- A flag, and the value when there is one. -/
def option (c : Codec α) : Codec (Option α) where
  encode
    | none => [0]
    | some a => 1 :: c.encode a
  decode
    | 0 :: rest => some (none, rest)
    | 1 :: rest => (c.decode rest).map fun r => (some r.1, r.2)
    | _ => none
  decode_encode a rest := by
    cases a with
    | none => rfl
    | some a => simp [c.decode_encode]

/-- Through a map with a partial inverse. -/
def retract (c : Codec β) (f : α → β) (g : β → Option α) (h : ∀ a, g (f a) = some a) :
    Codec α where
  encode a := c.encode (f a)
  decode bs := (c.decode bs).bind fun r => (g r.1).map fun a => (a, r.2)
  decode_encode a rest := by
    rw [c.decode_encode, Option.bind_some, h]
    rfl

theorem decode_prod {c : Codec α} {d : Codec β} {bs rest : List UInt8} {p : α × β}
    (h : (c.prod d).decode bs = some (p, rest)) :
    ∃ rest', c.decode bs = some (p.1, rest') ∧ d.decode rest' = some (p.2, rest) := by
  obtain ⟨⟨a, rest'⟩, ha, h⟩ := Option.bind_eq_some_iff.mp h
  obtain ⟨⟨b, rest''⟩, hb, heq⟩ := Option.map_eq_some_iff.mp h
  obtain ⟨rfl, rfl⟩ := Prod.mk.inj heq
  exact ⟨rest', ha, hb⟩

theorem decode_option_some {c : Codec α} {bs rest : List UInt8} {a : α}
    (h : c.option.decode bs = some (some a, rest)) :
    ∃ tail, bs = 1 :: tail ∧ c.decode tail = some (a, rest) := by
  simp only [option] at h
  split at h
  · cases h
  · obtain ⟨⟨a', rest'⟩, ha, heq⟩ := Option.map_eq_some_iff.mp h
    obtain ⟨haa, rfl⟩ := Prod.mk.inj heq
    obtain rfl := Option.some.inj haa
    exact ⟨_, rfl, ha⟩
  · cases h

theorem decode_retract {c : Codec β} {f : α → β} {g : β → Option α} {hg : ∀ a, g (f a) = some a}
    {bs rest : List UInt8} {a : α} (h : (c.retract f g hg).decode bs = some (a, rest)) :
    ∃ b, c.decode bs = some (b, rest) ∧ g b = some a := by
  obtain ⟨⟨b, rest'⟩, hb, h⟩ := Option.bind_eq_some_iff.mp h
  obtain ⟨a', ha', heq⟩ := Option.map_eq_some_iff.mp h
  obtain ⟨rfl, rfl⟩ := Prod.mk.inj heq
  exact ⟨b, hb, ha'⟩

/-! ## Strings and words -/

/-- Strings, by their UTF-8 bytes. -/
def string : Codec String :=
  bytes.retract (fun s => s.toUTF8.data.toList) (fun bs => String.fromUTF8? ⟨⟨bs⟩⟩) fun s => by
    have hvalid : (⟨⟨s.toUTF8.data.toList⟩⟩ : ByteArray).IsValidUTF8 := s.isValidUTF8
    rw [String.fromUTF8?, dif_pos hvalid]
    rfl

/-- Words, by their digits in base 256. -/
def bitVec (w : ℕ) : Codec (BitVec w) :=
  bytes.retract (fun x => (Nat.digits 256 x.toNat).map UInt8.ofNat)
    (fun bs => some (BitVec.ofNat w (Nat.ofDigits 256 (bs.map UInt8.toNat)))) fun x => by
    have hdigits : ((Nat.digits 256 x.toNat).map UInt8.ofNat).map UInt8.toNat =
        Nat.digits 256 x.toNat := by
      rw [List.map_map]
      refine (List.map_congr_left fun d hd => ?_).trans (List.map_id _)
      -- Digits are below the base, so bytes hold them.
      have hlt := Nat.digits_lt_base (by decide) hd
      exact Nat.mod_eq_of_lt hlt
    rw [hdigits, Nat.ofDigits_digits]
    simp

/-! ## Whole buffers -/

/-- The buffer of one value. -/
def write (c : Codec α) (a : α) : List UInt8 := c.encode a

/-- The value of a buffer that holds it and nothing else. -/
def read (c : Codec α) (bs : List UInt8) : Option α :=
  match c.decode bs with
  | some (a, []) => some a
  | _ => none

/-- A written buffer reads back. -/
theorem read_write (c : Codec α) (a : α) : c.read (c.write a) = some a := by
  have h := c.decode_encode a []
  rw [List.append_nil] at h
  rw [read, write, h]

end Codec

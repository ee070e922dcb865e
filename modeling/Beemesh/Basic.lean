import Mathlib.Data.BitVec
import Mathlib.Data.Nat.Notation

/-!
# Base types

The machine plane is written in Rust; its fixed-width integers are bit vectors here, its byte
vectors lists of bytes, and its clocks naturals. `Instant` is the monotonic clock in nanoseconds;
`SystemTime` readings are milliseconds since the epoch, as the code stores them.

## Main definitions

* `withContext`, `anyhow`, `mapErr`, `okOrElse`, `bailIf`: results with `anyhow` errors

## Main results

* `bind_eq_ok_iff`: a sequence of fallible steps succeeds when each of them does
-/

namespace Beemesh

abbrev U8 := BitVec 8

abbrev U32 := BitVec 32

abbrev U64 := BitVec 64

/-- `Vec<u8>` and `&[u8]`. -/
abbrev Bytes := List UInt8

/-- A reading of the monotonic clock, in nanoseconds. -/
abbrev Instant := ℕ

/-- A span of time, in nanoseconds. -/
abbrev Duration := ℕ

/-- `Duration::from_secs`. -/
def Duration.fromSecs (secs : ℕ) : Duration := secs * 10 ^ 9

/-- An `anyhow::Error` as its chain of messages, the outermost context first. -/
abbrev AnyhowError := List String

/-- `anyhow::Context::context`: a failure gets one more message in front. -/
def withContext {α : Type} (context : String) : Except AnyhowError α → Except AnyhowError α
  | .ok a => .ok a
  | .error e => .error (context :: e)

/-- An error of a library, as the `?` operator takes it over. -/
def anyhow {α : Type} : Except String α → Except AnyhowError α
  | .ok a => .ok a
  | .error e => .error [e]

/-- `map_err` to a message made from the error of a library. -/
def mapErr {α : Type} (message : String → String) : Except String α → Except AnyhowError α
  | .ok a => .ok a
  | .error e => .error [message e]

/-- `ok_or_else` with an `anyhow!` message. -/
def okOrElse {α : Type} (message : String) : Option α → Except AnyhowError α
  | some a => .ok a
  | none => .error [message]

/-- An early return of an `anyhow!` message. -/
def bailIf (condition : Prop) [Decidable condition] (message : String) : Except AnyhowError Unit :=
  if condition then .error [message] else .ok ()

@[simp] theorem withContext_eq_ok_iff {α : Type} {context : String} {x : Except AnyhowError α}
    {a : α} : withContext context x = .ok a ↔ x = .ok a := by
  cases x <;> simp [withContext]

@[simp] theorem anyhow_eq_ok_iff {α : Type} {x : Except String α} {a : α} :
    anyhow x = .ok a ↔ x = .ok a := by
  cases x <;> simp [anyhow]

@[simp] theorem mapErr_eq_ok_iff {α : Type} {message : String → String} {x : Except String α}
    {a : α} : mapErr message x = .ok a ↔ x = .ok a := by
  cases x <;> simp [mapErr]

@[simp] theorem okOrElse_eq_ok_iff {α : Type} {message : String} {x : Option α} {a : α} :
    okOrElse message x = .ok a ↔ x = some a := by
  cases x <;> simp [okOrElse]

@[simp] theorem bailIf_eq_ok_iff {condition : Prop} [Decidable condition] {message : String}
    {u : Unit} : bailIf condition message = .ok u ↔ ¬ condition := by
  unfold bailIf
  split_ifs with h <;> simp [h]

/-- What it takes for a sequence of fallible steps to succeed. -/
theorem bind_eq_ok_iff {ε α β : Type} {x : Except ε α} {f : α → Except ε β} {b : β} :
    (x >>= f) = .ok b ↔ ∃ a, x = .ok a ∧ f a = .ok b := by
  cases x with
  | error e => exact ⟨fun h => (nomatch h), fun ⟨_, h, _⟩ => nomatch h⟩
  | ok a => exact ⟨fun h => ⟨a, rfl, h⟩, fun ⟨_, rfl, h⟩ => h⟩

end Beemesh

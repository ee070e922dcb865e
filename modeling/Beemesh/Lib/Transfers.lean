import Beemesh.Lib.Run

/-!
# Bytes that come in pieces

A stream takes what is written to it piece by piece, and gives it to its reader in other pieces.
`write_all` and `read_exact` are the loops that hide the pieces from a program. A program of exact
reads therefore ends with what it gives on all the bytes at once, if it ends, and fails only where
the writer has gone away before the bytes it needs.

## Main definitions

* `Reads α`: a program of exact reads
* `Reads.eval`: what it gives on bytes that are all there
* `Transfer α`: a writer, a stream, and such a program at its other end
* `transferStep`: what happens between them, piece by piece

## Main results

* `eval_push`: a piece that has been read is a piece of what is there
* `Transfer.Follows.step`: what a transfer keeps
* `Transfer.Follows.broken_iff`: what the program gives through a stream
* `Transfer.over_of_polls`: where nothing more is written, the program ends with enough polls
-/

namespace Transfers

open Run

variable {α : Type}

/-! ## Programs of exact reads -/

/-- A program that reads: each time a number of bytes, none of which it can do without. -/
inductive Reads (α : Type) : Type
  | done (a : α) : Reads α
  | readExact (n : ℕ) (next : List UInt8 → Reads α) : Reads α

/-- What the program gives on bytes that are all there, and the bytes it leaves. -/
def Reads.eval : Reads α → List UInt8 → Option (α × List UInt8)
  | .done a, bytes => some (a, bytes)
  | .readExact n next, bytes =>
    if n ≤ bytes.length then (next (bytes.take n)).eval (bytes.drop n) else none

/-- A read of no bytes is over at once. -/
def Reads.settle : Reads α → Reads α
  | .done a => .done a
  | .readExact 0 next => (next []).settle
  | .readExact (n + 1) next => .readExact (n + 1) next

/-- A program that waits for `n` bytes, with some of them. -/
def Reads.push (n : ℕ) (next : List UInt8 → Reads α) (piece : List UInt8) : Reads α :=
  .settle (.readExact (n - piece.length) fun rest => next (piece ++ rest))

/-- The program is over, or waits for a byte. -/
def Reads.Settled : Reads α → Prop
  | .done _ => True
  | .readExact n _ => 0 < n

theorem Reads.settled_settle (p : Reads α) : p.settle.Settled := by
  fun_induction Reads.settle p with
  | case1 a => trivial
  | case2 next ih => exact ih
  | case3 n next => exact n.succ_pos

@[simp] theorem Reads.eval_settle (p : Reads α) (bytes : List UInt8) :
    p.settle.eval bytes = p.eval bytes := by
  fun_induction Reads.settle p with
  | case1 a => rfl
  | case2 next ih =>
    rw [ih, Reads.eval, if_pos bytes.length.zero_le, List.take_zero, List.drop_zero]
  | case3 n next => rfl

/-- **A piece that has been read is a piece of what is there.** -/
theorem Reads.eval_push {n : ℕ} (next : List UInt8 → Reads α) {piece : List UInt8}
    (h : piece.length ≤ n) (bytes : List UInt8) :
    (Reads.push n next piece).eval bytes = (Reads.readExact n next).eval (piece ++ bytes) := by
  have hroom : n - piece.length ≤ bytes.length ↔ n ≤ (piece ++ bytes).length := by
    rw [List.length_append]
    omega
  rw [Reads.push, Reads.eval_settle, Reads.eval, Reads.eval]
  simp only [hroom, List.take_append, List.drop_append, List.take_of_length_le h,
    List.drop_of_length_le h, List.nil_append]

/-- More bytes behind those that a program reads are left. -/
theorem Reads.eval_append {p : Reads α} {bytes rest : List UInt8} {a : α}
    (h : p.eval bytes = some (a, rest)) (more : List UInt8) :
    p.eval (bytes ++ more) = some (a, rest ++ more) := by
  induction p generalizing bytes with
  | done b =>
    obtain ⟨rfl, rfl⟩ := Prod.mk.inj (Option.some.inj h)
    rfl
  | readExact n next ih =>
    rw [Reads.eval] at h ⊢
    split_ifs at h with hn
    rw [if_pos (by rw [List.length_append]; omega), List.take_append_of_le_length hn,
      List.drop_append_of_le_length hn]
    exact ih _ h

/-! ## Transfers -/

/-- The reader's end: what is left of the program, or an end of the stream that came too soon. -/
inductive Reader (α : Type) : Type
  | reading (p : Reads α) : Reader α
  | broken : Reader α

structure Transfer (α : Type) where
  /-- What `write_all` has still to give to the stream. -/
  unsent : List UInt8
  /-- What the stream has taken and not given. -/
  underWay : List UInt8
  /-- Nothing more is written: all of it is, or the writer has gone away. -/
  closed : Bool
  reader : Reader α

/-- What happens to a transfer. -/
inductive TransferEvent
  /-- The stream takes up to `k` bytes. -/
  | send (k : ℕ)
  | close
  /-- The reader polls the stream, which has up to `k` bytes for it. -/
  | poll (k : ℕ)

def transferStep (s : Transfer α) : TransferEvent → Transfer α
  | .send k =>
    if s.closed then s
    else { s with unsent := s.unsent.drop k, underWay := s.underWay ++ s.unsent.take k }
  | .close => { s with closed := true }
  | .poll k =>
    match s.reader with
    | .reading (.readExact n next) =>
      if s.underWay = [] then
        -- An empty stream has ended, or the reader waits.
        if s.closed then { s with reader := .broken } else s
      else
        -- The reader's buffer is as long as the read, and no longer.
        { s with
          underWay := s.underWay.drop (min k n)
          reader := .reading (.push n next (s.underWay.take (min k n))) }
    | _ => s

/-- A writer with `bytes`, and a program to read them. -/
def Transfer.start (bytes : List UInt8) (p : Reads α) : Transfer α :=
  ⟨bytes, [], false, .reading p.settle⟩

/-- What the reader has got. -/
def Transfer.received (s : Transfer α) : Option α :=
  match s.reader with
  | .reading (.done a) => some a
  | _ => none

/-- The reader has got something, or knows that it will not. -/
def Transfer.Over (s : Transfer α) : Prop := s.received ≠ none ∨ s.reader = .broken

/-- The reader has taken `taken` of the bytes, and what is left of the program is what it is after
these. -/
structure Transfer.Follows (bytes : List UInt8) (p : Reads α) (s : Transfer α)
    (taken : List UInt8) : Prop where
  all : taken ++ (s.underWay ++ s.unsent) = bytes
  reading : ∀ q, s.reader = .reading q →
    q.Settled ∧ ∀ more, q.eval more = p.eval (taken ++ more)
  broken : s.reader = .broken → s.closed = true ∧ s.underWay = [] ∧ p.eval taken = none

theorem Transfer.follows_start (bytes : List UInt8) (p : Reads α) :
    (Transfer.start bytes p).Follows bytes p [] where
  all := rfl
  reading q hq := by
    obtain rfl := Reader.reading.inj hq
    exact ⟨p.settled_settle, p.eval_settle⟩
  broken h := nomatch h

/-- **What a transfer keeps**, with every piece that is sent or read. -/
theorem Transfer.Follows.step {bytes taken : List UInt8} {p : Reads α} {s : Transfer α}
    (h : s.Follows bytes p taken) (event : TransferEvent) :
    ∃ taken', (transferStep s event).Follows bytes p taken' := by
  cases event with
  | send k =>
    rw [transferStep]
    split_ifs with hclosed
    · exact ⟨taken, h⟩
    · refine ⟨taken, ?_, h.reading, fun hbroken => absurd (h.broken hbroken).1 hclosed⟩
      rw [List.append_assoc, List.take_append_drop]
      exact h.all
  | close => exact ⟨taken, h.all, h.reading, fun hbroken => ⟨rfl, (h.broken hbroken).2⟩⟩
  | poll k =>
    rw [transferStep]
    split
    next n next hreader =>
      obtain ⟨hsettled, heval⟩ := h.reading _ hreader
      split_ifs with hempty hclosed
      · -- The end of the stream: the program waits for a byte, so it has too few.
        refine ⟨taken, h.all, (fun _ hq => nomatch hq), fun _ => ⟨hclosed, hempty, ?_⟩⟩
        have hnone : (Reads.readExact n next).eval [] = none := if_neg (Nat.not_le.mpr hsettled)
        rw [← List.append_nil taken, ← heval, hnone]
      · exact ⟨taken, h⟩
      · -- A piece moves from the stream to the reader.
        refine ⟨taken ++ s.underWay.take (min k n), ?_, ?_, fun hbroken => nomatch hbroken⟩
        · rw [List.append_assoc, ← List.append_assoc (s.underWay.take _), List.take_append_drop]
          exact h.all
        · intro q hq
          obtain rfl := Reader.reading.inj hq
          refine ⟨Reads.settled_settle _, fun more => ?_⟩
          have hpiece : (s.underWay.take (min k n)).length ≤ n := by
            rw [List.length_take]
            omega
          rw [Reads.eval_push next hpiece, heval, List.append_assoc]
    next => exact ⟨taken, h⟩

/-- More is written behind what is written. -/
def Transfer.write (s : Transfer α) (more : List UInt8) : Transfer α :=
  { s with unsent := s.unsent ++ more }

/-- What is written while the reader still hopes for it is read. -/
theorem Transfer.Follows.write {bytes taken : List UInt8} {p : Reads α} {s : Transfer α}
    (h : s.Follows bytes p taken) (more : List UInt8) :
    (s.write more).Follows (bytes ++ more) p taken where
  all := by
    rw [Transfer.write, ← h.all]
    simp only [List.append_assoc]
  reading := h.reading
  broken := h.broken

theorem Transfer.follows_run (bytes : List UInt8) (p : Reads α) (events : List TransferEvent) :
    ∃ taken, (run transferStep (Transfer.start bytes p) events).Follows bytes p taken := by
  have hstep (s : Transfer α) (event : TransferEvent) :
      (∃ taken, s.Follows bytes p taken) → ∃ taken, (transferStep s event).Follows bytes p taken :=
    fun ⟨_, h⟩ => h.step event
  have hstart : ∃ taken, (Transfer.start bytes p).Follows bytes p taken :=
    ⟨[], Transfer.follows_start bytes p⟩
  exact run_invariant hstep events hstart

theorem Transfer.received_eq_some_iff {s : Transfer α} {a : α} :
    s.received = some a ↔ s.reader = .reading (.done a) := by
  rw [Transfer.received]
  constructor
  · intro h
    split at h
    next b hreader => rw [hreader, Option.some.inj h]
    next => exact nomatch h
  · intro h
    rw [h]

/-! ## What is read -/

section Followed

variable {bytes taken : List UInt8} {p : Reads α} {s : Transfer α}

/-- What the reader has got is what the program gives on the bytes. -/
theorem Transfer.Follows.eval_of_received (h : s.Follows bytes p taken) {a : α}
    (hreceived : s.received = some a) : p.eval bytes = some (a, s.underWay ++ s.unsent) := by
  obtain ⟨-, heval⟩ := h.reading _ (Transfer.received_eq_some_iff.mp hreceived)
  rw [← h.all, ← heval, Reads.eval]

/-- A reader that is over is broken exactly where what was sent is not enough. -/
theorem Transfer.Follows.broken_iff (h : s.Follows bytes p taken) (hover : s.Over) :
    s.reader = .broken ↔ p.eval (taken ++ s.underWay) = none := by
  constructor
  · intro hbroken
    obtain ⟨-, hempty, hnone⟩ := h.broken hbroken
    rw [hempty, List.append_nil, hnone]
  · intro hnone
    refine hover.resolve_left fun hreceived => ?_
    obtain ⟨a, ha⟩ := Option.ne_none_iff_exists'.mp hreceived
    obtain ⟨-, heval⟩ := h.reading _ (Transfer.received_eq_some_iff.mp ha)
    rw [← heval] at hnone
    exact nomatch hnone

end Followed

/-! ## That it ends -/

/-- A reader that is over stays so. -/
theorem Transfer.Over.poll {s : Transfer α} (h : s.Over) (k : ℕ) :
    transferStep s (.poll k) = s := by
  rw [transferStep]
  split
  next n next hreader => simp [Transfer.Over, Transfer.received, hreader] at h
  next => rfl

theorem Transfer.Over.polls {s : Transfer α} (h : s.Over) (ks : List ℕ) :
    run transferStep s (ks.map .poll) = s := by
  induction ks with
  | nil => rfl
  | cons k ks ih => rw [List.map_cons, run_cons, h.poll, ih]

/-- What is not sent stays unsent when it is read. -/
theorem Transfer.unsent_polls (s : Transfer α) (ks : List ℕ) :
    (run transferStep s (ks.map .poll)).unsent = s.unsent := by
  have hpoll (s : Transfer α) (k : ℕ) : (transferStep s (.poll k)).unsent = s.unsent := by
    rw [transferStep]
    split
    · split_ifs <;> rfl
    · rfl
  induction ks generalizing s with
  | nil => rfl
  | cons k ks ih => rw [List.map_cons, run_cons, ih, hpoll]

/-- **That it ends**: where nothing more is written, the reader is over after one poll more than
there are bytes for it. -/
theorem Transfer.over_of_polls {bytes : List UInt8} {p : Reads α} {s : Transfer α}
    (hs : ∃ taken, s.Follows bytes p taken) (hclosed : s.closed = true) {ks : List ℕ}
    (hks : ∀ k ∈ ks, 0 < k) (hlength : s.underWay.length < ks.length) :
    (run transferStep s (ks.map .poll)).Over := by
  induction ks generalizing s with
  | nil => exact absurd hlength (Nat.not_lt_zero _)
  | cons k ks ih =>
    have hk := hks k List.mem_cons_self
    have hstep : ∃ taken, (transferStep s (.poll k)).Follows bytes p taken :=
      hs.elim fun _ h => h.step (.poll k)
    obtain ⟨taken, h⟩ := hs
    rw [List.map_cons, run_cons]
    cases hreader : s.reader with
    | broken =>
      have hover : s.Over := .inr hreader
      rw [hover.poll, hover.polls]
      exact hover
    | reading q =>
      cases q with
      | done a =>
        have hover : s.Over := .inl (by simp [Transfer.received, hreader])
        rw [hover.poll, hover.polls]
        exact hover
      | readExact n next =>
        have hn : 0 < n := (h.reading _ hreader).1
        by_cases hempty : s.underWay = []
        · have hover : (transferStep s (.poll k)).Over := by
            refine .inr ?_
            simp only [transferStep, hreader, hempty, hclosed, if_true]
          rw [hover.polls]
          exact hover
        · -- The poll takes a byte at least, so fewer are left for the polls that follow.
          have hpos : 0 < s.underWay.length := List.length_pos_iff.mpr hempty
          refine ih hstep ?_ (fun k' hk' => hks k' (List.mem_cons_of_mem _ hk')) ?_
          · simp only [transferStep, hreader, if_neg hempty, hclosed]
          · simp only [transferStep, hreader, if_neg hempty, List.length_drop]
            rw [List.length_cons] at hlength
            omega

end Transfers

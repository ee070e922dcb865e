import Beemesh.Lib.Run
import Mathlib.Data.List.Count
import Mathlib.Algebra.Order.Ring.Nat

/-!
# The shutdown of a workload

`Workload.Start` starts the loop of the self-healer, which ends when the context is cancelled or
`stopCh` is closed, and then closes `stoppedCh`. `Workload.Close` stops the self-healer, which closes
`stopCh` and waits for `stoppedCh`, and closes the network. A channel that is closed twice ends the
process.

## Main definitions

* `Loop`, `Process`: a loop of the self-healer, and a process with its loops and channels
* `processStep`: the calls, and what the loops do between them
* `Process.Sound`: nothing has been closed twice, and no check runs on a closed network

## Main results

* `Process.Inv.step`: which channel is closed when
* `shutdown_sound_iff`: how often a workload may be started and closed
* `close_returns_iff`: when a call of `Close` can return
-/

namespace Beemesh.Workplane

open Run

/-- A loop that `SelfHealer.Start` has started. -/
inductive Loop
  /-- At its `select`. -/
  | selecting
  /-- In `checkAndHeal`. -/
  | checking
  | ended
  deriving DecidableEq

structure Process where
  /-- `stopCh` is closed. -/
  stopCh : Bool := false
  /-- `stoppedCh` is closed. -/
  stoppedCh : Bool := false
  cancelled : Bool := false
  loops : List Loop := []
  /-- The calls of `Close` that wait for `stoppedCh`. -/
  closing : ℕ := 0
  networkClosed : Bool := false
  panicked : Bool := false

inductive ProcessEvent
  /-- `Workload.Start`. -/
  | start
  /-- `Workload.Close`, up to where `SelfHealer.Stop` waits. -/
  | close
  /-- A call of `Close` that waits goes on. -/
  | closeReturns
  /-- The context of the loops is cancelled. -/
  | cancel
  /-- The `i`-th loop takes a tick. -/
  | tick (i : ℕ)
  /-- The check of the `i`-th loop is over. -/
  | checked (i : ℕ)
  /-- The `i`-th loop takes `ctx.Done()` or `stopCh`. -/
  | quit (i : ℕ)
  deriving DecidableEq

/-- `close(s.stopCh)`, and the wait for `stoppedCh`. -/
def Process.stop (s : Process) : Process :=
  if s.stopCh then { s with panicked := true }
  else { s with stopCh := true, closing := s.closing + 1 }

/-- The end of a loop, with the deferred `close(s.stoppedCh)`. -/
def Process.endLoop (s : Process) (i : ℕ) : Process :=
  { s with
    loops := s.loops.set i .ended
    stoppedCh := true
    panicked := s.stoppedCh }

/-- What an event does to a process that goes on. -/
def Process.effect (s : Process) : ProcessEvent → Process
  | .start => { s with loops := s.loops ++ [.selecting] }
  | .close => s.stop
  | .closeReturns =>
    if s.stoppedCh ∧ s.closing ≠ 0 then
      { s with closing := s.closing - 1, networkClosed := true }
    else s
  | .cancel => { s with cancelled := true }
  | .tick i =>
    -- A tick can be taken when the other cases are ready, too.
    if s.loops[i]? = some .selecting then { s with loops := s.loops.set i .checking } else s
  | .checked i =>
    if s.loops[i]? = some .checking then { s with loops := s.loops.set i .selecting } else s
  | .quit i =>
    if s.loops[i]? = some .selecting ∧ (s.cancelled ∨ s.stopCh) then s.endLoop i else s

/-- A panic ends every loop and every call. -/
def processStep (s : Process) (event : ProcessEvent) : Process :=
  if s.panicked then s else s.effect event

theorem processStep_eq_effect {s : Process} (h : s.panicked = false) (event : ProcessEvent) :
    processStep s event = s.effect event :=
  if_neg (by rw [h]; exact Bool.false_ne_true)

/-- Nothing has been closed twice, and no check runs on a closed network. -/
def Process.Sound (s : Process) : Prop :=
  s.panicked = false ∧ (s.networkClosed = true → .checking ∉ s.loops)

/-- Which channel is closed when, in a process that has not panicked. -/
structure Process.Inv (s : Process) : Prop where
  stopped : s.stoppedCh = true ↔ .ended ∈ s.loops
  closing : s.closing ≠ 0 → s.stopCh = true
  network : s.networkClosed = true → s.stoppedCh = true

theorem Process.inv_start : Process.Inv {} := ⟨by simp, by simp, by simp⟩

/-- A loop that goes on does not end another one, and has not ended. -/
theorem mem_set_of_ne_ended {loops : List Loop} {i : ℕ} {l l' : Loop} (hl : loops[i]? = some l)
    (hne : l ≠ .ended) (hne' : l' ≠ .ended) : .ended ∈ loops.set i l' ↔ .ended ∈ loops := by
  obtain ⟨hi, hget⟩ := List.getElem?_eq_some_iff.mp hl
  constructor
  · intro h
    exact (List.mem_or_eq_of_mem_set h).resolve_right hne'.symm
  · intro h
    obtain ⟨j, hj, hended⟩ := List.mem_iff_getElem.mp h
    have hij : i ≠ j := by
      rintro rfl
      exact hne (hget.symm.trans hended)
    refine List.mem_iff_getElem.mpr ⟨j, by rwa [List.length_set], ?_⟩
    rw [List.getElem_set_ne hij, hended]

/-- Loops that go on leave the channels as they are. -/
theorem Process.Inv.goesOn {s : Process} (h : s.Inv) {i : ℕ} {l l' : Loop}
    (hl : s.loops[i]? = some l) (hne : l ≠ .ended) (hne' : l' ≠ .ended) :
    Process.Inv { s with loops := s.loops.set i l' } :=
  ⟨h.stopped.trans (mem_set_of_ne_ended hl hne hne').symm, h.closing, h.network⟩

theorem Process.Inv.effect {s : Process} (h : s.Inv) (event : ProcessEvent) :
    (s.effect event).Inv := by
  cases event with
  | start =>
    refine ⟨?_, h.closing, h.network⟩
    simpa [Process.effect] using h.stopped
  | close =>
    rw [Process.effect, Process.stop]
    split_ifs
    · exact ⟨h.stopped, h.closing, h.network⟩
    · exact ⟨h.stopped, fun _ => rfl, h.network⟩
  | closeReturns =>
    rw [Process.effect]
    split_ifs with hready
    · exact ⟨h.stopped, fun _ => h.closing hready.2, fun _ => hready.1⟩
    · exact h
  | cancel => exact ⟨h.stopped, h.closing, h.network⟩
  | tick i =>
    rw [Process.effect]
    split_ifs with hi
    · exact h.goesOn hi (by decide) (by decide)
    · exact h
  | checked i =>
    rw [Process.effect]
    split_ifs with hi
    · exact h.goesOn hi (by decide) (by decide)
    · exact h
  | quit i =>
    rw [Process.effect]
    split_ifs with hi
    · obtain ⟨hlt, -⟩ := List.getElem?_eq_some_iff.mp hi.1
      have hended : .ended ∈ (s.endLoop i).loops :=
        List.mem_iff_getElem.mpr ⟨i, by simpa [Process.endLoop] using hlt, by simp [Process.endLoop]⟩
      exact ⟨iff_of_true rfl hended, h.closing, fun _ => rfl⟩
    · exact h

/-- **Which channel is closed when**, after any step. -/
theorem Process.Inv.step {s : Process} (h : s.Inv) (event : ProcessEvent) :
    (processStep s event).Inv := by
  rw [processStep]
  split_ifs
  · exact h
  · exact h.effect event

theorem Process.Inv.run {s : Process} (h : s.Inv) (events : List ProcessEvent) :
    (Run.run processStep s events).Inv :=
  run_invariant (fun _ event h => h.step event) events h

/-! ## How often -/

/-- A process that can be started `n` times and closed `m` times more, at most once in all. -/
structure Process.Spare (n m : ℕ) (s : Process) : Prop where
  inv : s.Inv
  panicked : s.panicked = false
  starts : s.loops.length + n ≤ 1
  closes : s.stopCh.toNat + m ≤ 1

theorem eq_of_mem_of_length_le_one {loops : List Loop} (h : loops.length ≤ 1) {l l' : Loop}
    (hl : l ∈ loops) (hl' : l' ∈ loops) : l = l' := by
  cases loops with
  | nil => exact absurd hl List.not_mem_nil
  | cons x rest =>
    obtain rfl : rest = [] := List.length_eq_zero_iff.mp (Nat.le_zero.mp (Nat.le_of_succ_le_succ h))
    exact (List.mem_singleton.mp hl).trans (List.mem_singleton.mp hl').symm

/-- Where a loop goes on, and there is no other, none has closed `stoppedCh`. -/
theorem Process.Spare.stoppedCh_eq_false {n m : ℕ} {s : Process} (h : s.Spare n m) {l : Loop}
    (hl : l ∈ s.loops) (hne : l ≠ .ended) : s.stoppedCh = false := by
  by_contra hclosed
  have hended : .ended ∈ s.loops := h.inv.stopped.mp (eq_true_of_ne_false hclosed)
  exact hne (eq_of_mem_of_length_le_one ((Nat.le_add_right _ n).trans h.starts) hl hended)

theorem Process.Spare.sound {n m : ℕ} {s : Process} (h : s.Spare n m) : s.Sound := by
  refine ⟨h.panicked, fun hclosed hchecking => ?_⟩
  have hopen := h.stoppedCh_eq_false hchecking (by decide)
  exact Bool.false_ne_true (hopen.symm.trans (h.inv.network hclosed))

/-- An event uses up what it counts. -/
theorem Process.Spare.effect {n m : ℕ} {s : Process} {event : ProcessEvent}
    (h : s.Spare (n + [event].count .start) (m + [event].count .close)) :
    (s.effect event).Spare n m := by
  have hinv := h.inv.effect event
  have hstarts := h.starts
  have hcloses := h.closes
  cases event with
  | start =>
    rw [List.count_singleton_self] at hstarts
    refine ⟨hinv, h.panicked, ?_, hcloses⟩
    simp only [Process.effect, List.length_append, List.length_singleton]
    omega
  | close =>
    rw [List.count_singleton_self] at hcloses
    have hopen : s.stopCh = false := by
      cases hstop : s.stopCh with
      | false => rfl
      | true =>
        rw [hstop, Bool.toNat_true] at hcloses
        omega
    have hstop : s.effect .close = { s with stopCh := true, closing := s.closing + 1 } := by
      rw [Process.effect, Process.stop, hopen, if_neg Bool.false_ne_true]
    rw [hopen, Bool.toNat_false, Nat.zero_add] at hcloses
    refine ⟨hinv, hstop ▸ h.panicked, hstop ▸ hstarts, ?_⟩
    rw [hstop]
    exact (Nat.add_comm 1 m).le.trans ((Nat.add_comm m 1).symm ▸ hcloses)
  | closeReturns =>
    rw [Process.effect] at hinv ⊢
    split_ifs at hinv ⊢
    · exact ⟨hinv, h.panicked, hstarts, hcloses⟩
    · exact ⟨hinv, h.panicked, hstarts, hcloses⟩
  | cancel => exact ⟨hinv, h.panicked, hstarts, hcloses⟩
  | tick i =>
    rw [Process.effect] at hinv ⊢
    split_ifs at hinv ⊢
    · exact ⟨hinv, h.panicked, (List.length_set).symm ▸ hstarts, hcloses⟩
    · exact ⟨hinv, h.panicked, hstarts, hcloses⟩
  | checked i =>
    rw [Process.effect] at hinv ⊢
    split_ifs at hinv ⊢
    · exact ⟨hinv, h.panicked, (List.length_set).symm ▸ hstarts, hcloses⟩
    · exact ⟨hinv, h.panicked, hstarts, hcloses⟩
  | quit i =>
    rw [Process.effect] at hinv ⊢
    split_ifs at hinv ⊢ with hi
    · have hopen := h.stoppedCh_eq_false (List.mem_of_getElem? hi.1) (by decide)
      exact ⟨hinv, hopen, (List.length_set).symm ▸ hstarts, hcloses⟩
    · exact ⟨hinv, h.panicked, hstarts, hcloses⟩

theorem Process.Spare.run {s : Process} {events : List ProcessEvent}
    (h : s.Spare (events.count .start) (events.count .close)) :
    (Run.run processStep s events).Spare 0 0 := by
  induction events generalizing s with
  | nil => exact h
  | cons event events ih =>
    rw [run_cons]
    apply ih
    rw [processStep_eq_effect h.panicked]
    apply Process.Spare.effect
    have hcount (e : ProcessEvent) :
        (event :: events).count e = events.count e + [event].count e := by
      rw [← List.singleton_append, List.count_append, Nat.add_comm]
    rwa [← hcount, ← hcount]

/-- **How often**: a workload shuts down soundly, whatever the order of the calls and of what its
loops do, if it is started at most once and closed at most once, and else it need not. -/
theorem shutdown_sound_iff (n m : ℕ) :
    (∀ events : List ProcessEvent, events.count .start ≤ n → events.count .close ≤ m →
      (run processStep {} events).Sound) ↔ n ≤ 1 ∧ m ≤ 1 := by
  constructor
  · intro h
    constructor
    · by_contra hn
      -- Two loops, which both close `stoppedCh` when the context is cancelled.
      have hpanics : (run processStep {} [.start, .start, .cancel, .quit 0, .quit 1]).panicked =
          true := rfl
      have hsound := h [.start, .start, .cancel, .quit 0, .quit 1] (by simp; omega) (by simp)
      exact Bool.false_ne_true (hsound.1.symm.trans hpanics)
    · by_contra hm
      have hpanics : (run processStep {} [.close, .close]).panicked = true := rfl
      have hsound := h [.close, .close] (by simp) (by simp; omega)
      exact Bool.false_ne_true (hsound.1.symm.trans hpanics)
  · rintro ⟨hn, hm⟩ events hstarts hcloses
    have hspare : Process.Spare (events.count .start) (events.count .close) {} :=
      ⟨Process.inv_start, rfl, by simpa using hstarts.trans hn, by simpa using hcloses.trans hm⟩
    exact hspare.run.sound

/-! ## Whether a call returns -/

/-- Without a loop, and without a start, no call of `Close` goes on, and none joins those that are
under way. -/
theorem Process.Inv.waits {s : Process} (hs : s.Inv) (hloops : s.loops = [])
    (hclosing : s.closing ≠ 0) {events : List ProcessEvent} (hstart : .start ∉ events) :
    (Run.run processStep s events).closing = s.closing := by
  induction events generalizing s with
  | nil => rfl
  | cons event events ih =>
    rw [List.mem_cons, not_or] at hstart
    have hopen : s.stoppedCh ≠ true := by
      rw [Ne, hs.stopped, hloops]
      exact List.not_mem_nil
    have hkeeps : (processStep s event).loops = [] ∧
        (processStep s event).closing = s.closing := by
      rw [processStep]
      split_ifs
      · exact ⟨hloops, rfl⟩
      cases event with
      | start => exact absurd rfl hstart.1
      | close =>
        -- The channel has been closed already, by a call that is under way.
        rw [Process.effect, Process.stop, if_pos (hs.closing hclosing)]
        exact ⟨hloops, rfl⟩
      | closeReturns =>
        rw [Process.effect, if_neg fun h => hopen h.1]
        exact ⟨hloops, rfl⟩
      | cancel => exact ⟨hloops, rfl⟩
      | tick i | checked i | quit i => simp [Process.effect, hloops]
    have hstill : (processStep s event).closing ≠ 0 := hkeeps.2 ▸ hclosing
    exact (ih (hs.step event) hkeeps.1 hstill hstart.2).trans hkeeps.2

/-- A call of `Close` returns when a loop at its `select` takes `stopCh`. -/
theorem quit_returns {s : Process} (hpanicked : s.panicked = false) (hopen : s.stoppedCh = false)
    (hstop : s.stopCh = true) (hclosing : s.closing ≠ 0)
    (hselecting : s.loops[0]? = some .selecting) :
    (run processStep s [.quit 0, .closeReturns]).closing < s.closing := by
  have hquit : processStep s (.quit 0) = s.endLoop 0 := by
    rw [processStep_eq_effect hpanicked, Process.effect, if_pos ⟨hselecting, .inr hstop⟩]
  have hreturns : (processStep (s.endLoop 0) .closeReturns).closing = s.closing - 1 := by
    have hgoesOn : (s.endLoop 0).panicked = false := hopen
    rw [processStep_eq_effect hgoesOn, Process.effect, if_pos ⟨rfl, hclosing⟩]
    rfl
  rw [run_cons, run_cons, run_nil, hquit, hreturns]
  exact Nat.sub_one_lt hclosing

/-- **When a call of `Close` can return**: where a loop has been started. Before that it waits until
somebody starts one, whatever other calls there are. -/
theorem close_returns_iff (events : List ProcessEvent) :
    let s := run processStep {} events
    s.panicked = false → s.closing ≠ 0 →
      ((∃ later : List ProcessEvent, .start ∉ later ∧ .close ∉ later ∧
        (run processStep s later).closing < s.closing) ↔ s.loops ≠ []) ∧
      (s.loops = [] → ∀ later : List ProcessEvent, .start ∉ later →
        (run processStep s later).closing = s.closing) := by
  intro s hpanicked hclosing
  have hs : s.Inv := Process.inv_start.run events
  refine ⟨?_, fun hloops later hstart => hs.waits hloops hclosing hstart⟩
  constructor
  · rintro ⟨later, hstart, -, hreturns⟩ hloops
    exact hreturns.ne (hs.waits hloops hclosing hstart)
  · intro hloops
    obtain ⟨l, rest, hrest⟩ := List.exists_cons_of_ne_nil hloops
    have hstop := hs.closing hclosing
    cases hstopped : s.stoppedCh with
    | true =>
      refine ⟨[.closeReturns], by simp, by simp, ?_⟩
      have hreturns : (processStep s .closeReturns).closing = s.closing - 1 := by
        rw [processStep_eq_effect hpanicked, Process.effect, if_pos ⟨hstopped, hclosing⟩]
      rw [run_cons, run_nil, hreturns]
      exact Nat.sub_one_lt hclosing
    | false =>
      cases l with
      | selecting =>
        exact ⟨[.quit 0, .closeReturns], by simp, by simp,
          quit_returns hpanicked hstopped hstop hclosing (by rw [hrest]; rfl)⟩
      | checking =>
        -- The check that is running has to end first.
        have hchecked : processStep s (.checked 0) =
            { s with loops := s.loops.set 0 .selecting } := by
          rw [processStep_eq_effect hpanicked, Process.effect, if_pos (by rw [hrest]; rfl)]
        refine ⟨[.checked 0, .quit 0, .closeReturns], by simp, by simp, ?_⟩
        rw [run_cons, hchecked]
        have hselecting : ({ s with loops := s.loops.set 0 .selecting } : Process).loops[0]? =
            some .selecting := by
          simp only [hrest, List.set_cons_zero, List.getElem?_cons_zero]
        exact quit_returns (s := { s with loops := s.loops.set 0 .selecting }) hpanicked hstopped
          hstop hclosing hselecting
      | ended =>
        have hended : .ended ∈ s.loops := hrest ▸ List.mem_cons_self
        exact absurd (hs.stopped.mpr hended) (by rw [hstopped]; decide)

/-- With a loop that has been started, the call returns. -/
theorem close_returns_started :
    let s := run processStep {} [.start, .close]
    ∃ later : List ProcessEvent, .start ∉ later ∧ .close ∉ later ∧
      (run processStep s later).closing < s.closing :=
  (close_returns_iff [.start, .close] rfl (by decide)).1.mpr (by decide)

end Beemesh.Workplane

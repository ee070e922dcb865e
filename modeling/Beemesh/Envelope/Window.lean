import Beemesh.Envelope.Nonce
import Beemesh.Lib.Run
import Beemesh.Lib.Window

/-!
# The nonce store is a sliding window

The store forgets lazily: a check prunes the old nonces of its own peer and of no other, and a
nonce that is refused keeps the time it was recorded at. What its answers come to is said without a
store, by what was accepted before: a nonce passes unless the same peer presented it successfully
within the window.

## Main definitions

* `NonceCall`, `nonceCallStep`: calls of the check, one after the other
* `Accepted`: a call returns `Ok`, after others

## Main results

* `live_iff_recent`: what is live in the store was accepted within the window
* `accepted_iff_admits`: the check admits what a sliding window admits
* `nonceStore_slidingWindow`: a call is answered by the accepted ones of its peer and nonce, and
  by nothing else
-/

namespace Beemesh

/-- A call of `check_and_insert_nonce_for_peer`, at its clock reading. -/
structure NonceCall where
  now : Instant
  nonce : String
  peer : String
  deriving DecidableEq

/-- What a nonce is remembered under. -/
def NonceCall.key (c : NonceCall) : String × String := (c.peer, c.nonce)

variable (window : Duration)

/-- The call, on the store that it finds. -/
def NonceCall.check (c : NonceCall) (store : NonceStore) : Except AnyhowError Unit × NonceStore :=
  checkAndInsertNonceForPeer store c.now c.nonce window c.peer

def nonceCallStep (store : NonceStore) (c : NonceCall) : NonceStore := (c.check window store).2

/-- The call returns `Ok` after the calls `before`, of which the first found no nonce. -/
def Accepted (before : List NonceCall) (c : NonceCall) : Prop :=
  (c.check window (Run.run (nonceCallStep window) ∅ before)).1 = .ok ()

/-- The clock never runs backwards. -/
def Clocked (calls : List NonceCall) : Prop := calls.Pairwise (·.now ≤ ·.now)

/-! ## The window -/

/-- A nonce that can be accepted. -/
def NonEmptyNonce (key : String × String) : Prop := key.2 ≠ ""

/-- The calls that a sliding window admits. -/
noncomputable def admittedCalls (calls : List NonceCall) : List NonceCall :=
  Window.admitted NonceCall.key NonceCall.now NonEmptyNonce window calls

variable {window}

/-- **What is live in the store was accepted within the window**, at any time after the calls. -/
theorem live_iff_recent {calls : List NonceCall} (hclock : Clocked calls) {c : NonceCall}
    (hlast : ∀ b ∈ calls, b.now ≤ c.now) :
    (Run.run (nonceCallStep window) ∅ calls).Live c.now window c.peer c.nonce ↔
      Window.Recent NonceCall.key NonceCall.now window (admittedCalls window calls) c := by
  induction calls using List.reverseRecOn generalizing c with
  | nil =>
    refine iff_of_false (NonceStore.not_live_empty _ _ _ _) ?_
    rintro ⟨b, hb, -⟩
    exact List.not_mem_nil hb
  | append_singleton calls b ih =>
    obtain ⟨hbefore, -, hcalls⟩ := List.pairwise_append.mp hclock
    have hb : ∀ a ∈ calls, a.now ≤ b.now := fun a ha => hcalls a ha b (.head _)
    have hle : b.now ≤ c.now := hlast b (by simp)
    have hold := ih hbefore fun a ha => hlast a (List.mem_append_left _ ha)
    rw [Run.run_append, Run.run_cons, Run.run_nil, admittedCalls, Window.admitted_snoc]
    by_cases hempty : b.nonce = ""
    · -- Refused before the store is looked at.
      rw [if_neg fun h => h.1 hempty, nonceCallStep, NonceCall.check, checkAndInsertNonceForPeer,
        if_pos hempty]
      exact hold
    · rw [nonceCallStep, NonceCall.check, live_checkAndInsertNonceForPeer hempty hle, hold,
        ih hbefore hb]
      by_cases hrecent : Window.Recent NonceCall.key NonceCall.now window
          (admittedCalls window calls) b
      · -- Refused, and kept at the time it was recorded.
        rw [if_neg fun h => h.2 hrecent]
        exact or_iff_left fun h => h.2.2.1 hrecent
      · rw [if_pos ⟨hempty, hrecent⟩, Window.recent_snoc]
        refine or_congr_right ?_
        rw [NonceCall.key, NonceCall.key, Prod.mk.injEq, and_assoc, eq_comm (a := c.peer),
          eq_comm (a := c.nonce), and_iff_right hrecent]

/-- **The check admits what a sliding window admits.** -/
theorem accepted_iff_admits {before : List NonceCall} (hclock : Clocked before) {c : NonceCall}
    (hlast : ∀ b ∈ before, b.now ≤ c.now) :
    Accepted window before c ↔ Window.Admits NonceCall.key NonceCall.now NonEmptyNonce window
      (admittedCalls window before) c := by
  rw [Accepted, NonceCall.check, checkAndInsertNonceForPeer_ok_iff, live_iff_recent hclock hlast]
  exact Iff.rfl

/-- What a window of calls admits are the calls that were accepted. -/
theorem mem_admittedCalls_iff {calls : List NonceCall} (hclock : Clocked calls) {b : NonceCall} :
    b ∈ admittedCalls window calls ↔
      ∃ before after, calls = before ++ b :: after ∧ Accepted window before b := by
  rw [admittedCalls, Window.mem_admitted_iff]
  refine exists_congr fun before => exists_congr fun after => and_congr_right fun hcalls => ?_
  obtain ⟨hbefore, -, hlast⟩ := List.pairwise_append.mp (hcalls ▸ hclock)
  exact (accepted_iff_admits hbefore fun a ha => hlast a ha b (.head _)).symm

/-- **The replay store is a sliding window.** With one window and a clock that never runs backwards,
a call is accepted exactly if its nonce is not empty and no call of the same peer and nonce was
accepted within the window before it. A call that was rejected might as well not have been made, and
so might every call of another peer. -/
theorem nonceStore_slidingWindow (calls : List NonceCall) (c : NonceCall)
    (hclock : Clocked (calls ++ [c])) :
    (Accepted window calls c ↔ c.nonce ≠ "" ∧ ¬ ∃ before b after, calls = before ++ b :: after ∧
      Accepted window before b ∧ b.peer = c.peer ∧ b.nonce = c.nonce ∧
      c.now - b.now ≤ window) ∧
    (∀ before b after, calls = before ++ b :: after → ¬ Accepted window before b →
      (Accepted window calls c ↔ Accepted window (before ++ after) c)) ∧
    (Accepted window calls c ↔ Accepted window (calls.filter (·.peer = c.peer)) c) := by
  obtain ⟨hcalls, -, hlast⟩ := List.pairwise_append.mp hclock
  have hc : ∀ b ∈ calls, b.now ≤ c.now := fun b hb => hlast b hb c (.head _)
  -- Fewer calls are in order as well.
  have hsub {fewer : List NonceCall} (h : fewer.Sublist calls) : Accepted window fewer c ↔
      Window.Admits NonceCall.key NonceCall.now NonEmptyNonce window
        (admittedCalls window fewer) c :=
    accepted_iff_admits (hcalls.sublist h) fun b hb => hc b (h.subset hb)
  rw [hsub (List.Sublist.refl calls)]
  refine ⟨?_, ?_, ?_⟩
  · refine and_congr_right fun _ => not_congr ⟨?_, ?_⟩
    · rintro ⟨b, hb, hkey, hwindow⟩
      obtain ⟨before, after, hsplit, haccepted⟩ := (mem_admittedCalls_iff hcalls).mp hb
      obtain ⟨hpeer, hnonce⟩ := Prod.mk.inj hkey
      exact ⟨before, b, after, hsplit, haccepted, hpeer, hnonce, hwindow⟩
    · rintro ⟨before, b, after, hsplit, haccepted, hpeer, hnonce, hwindow⟩
      exact ⟨b, (mem_admittedCalls_iff hcalls).mpr ⟨before, after, hsplit, haccepted⟩,
        Prod.ext hpeer hnonce, hwindow⟩
  · rintro before b after rfl hrejected
    obtain ⟨hbefore, -, hb⟩ := List.pairwise_append.mp hcalls
    have hnot := mt (accepted_iff_admits hbefore fun a ha => hb a ha b (.head _)).mpr hrejected
    rw [hsub (List.Sublist.append (List.Sublist.refl before) (List.sublist_cons_self b after)),
      admittedCalls, Window.admitted_of_not_admits hnot, admittedCalls]
  · have hown : admittedCalls window (calls.filter (·.peer = c.peer)) =
        (admittedCalls window calls).filter (·.peer = c.peer) :=
      Window.admitted_filter (p := fun key : String × String => decide (key.1 = c.peer)) calls
    have hrecent : Window.Recent NonceCall.key NonceCall.now window
        ((admittedCalls window calls).filter (·.peer = c.peer)) c ↔
          Window.Recent NonceCall.key NonceCall.now window (admittedCalls window calls) c :=
      Window.recent_filter (p := fun key : String × String => decide (key.1 = c.peer))
        (decide_eq_true rfl)
    rw [hsub List.filter_sublist, hown]
    exact and_congr_right fun _ => not_congr hrecent.symm

/-- A nonce is refused within the window, kept at its first time by the refusal, and accepted once
the window has passed. -/
theorem nonceStore_slidingWindow_reference :
    let first : NonceCall := ⟨0, "n", "p"⟩
    let again : NonceCall := ⟨300, "n", "p"⟩
    let later : NonceCall := ⟨301, "n", "p"⟩
    Accepted 300 [] first ∧ ¬ Accepted 300 [first] again ∧ Accepted 300 [first, again] later ∧
      (Accepted 300 [first, again] later ↔ Accepted 300 [first] later) := by
  intro first again later
  have hclock : Clocked ([first, again] ++ [later]) := by simp [Clocked, first, again, later]
  have hagain : ¬ Accepted 300 [first] again := fun h => nomatch h
  exact ⟨rfl, hagain, rfl, (nonceStore_slidingWindow [first, again] later hclock).2.1 [first] again
    [] rfl hagain⟩

end Beemesh

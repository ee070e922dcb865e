import Beemesh.Resource.Admission

/-!
# Concurrent reservations

`reserve_capacity` releases its lock between its steps: it prunes, looks the id up, sums the
reservations, checks the request against that sum and writes, each under a lock of its own. Here
any number of calls take these steps in any order while time passes. The final write looks the id
up again but does not sum again, so two calls can pass the check against one sum.

## Main definitions

* `ReserveCall`, `reserveStep`: a call in flight and the step it takes under one lock
* `Shared`, `Interleaving`, `interleave`: the verifier shared by the calls in flight
* `Rechecked`: an insertion is made only where the check would still pass

## Main results

* `run_reserveStep`: the steps of an undisturbed call are `reserve_capacity`
* `interleave_settled`: what every step keeps
* `rechecked_never_overReserved`: rechecked interleavings never reserve more than is available
-/

namespace Beemesh

/-! ## One call -/

/-- Where a call stands: the step it takes next. -/
inductive Pc
  | prune
  | lookup
  | total
  | check (reserved : Amounts)
  | write
  | done (result : Except String Unit)

/-- A `reserve_capacity` call in flight. -/
structure ReserveCall where
  requestId : String
  manifestId : Option String
  request : ResourceRequest
  pc : Pc

/-- The step of a call under one lock, at the clock reading `now`. -/
def reserveStep (res : SystemResources) (s : Reservations × ReserveCall) (now : Instant) :
    Reservations × ReserveCall :=
  let (m, c) := s
  match c.pc with
  | .prune => (pruneExpiredReservations now m, { c with pc := .lookup })
  | .lookup =>
    match refreshReservation now c.requestId c.manifestId m with
    | some refreshed => (refreshed, { c with pc := .done (.ok ()) })
    | none => (m, { c with pc := .total })
  | .total => (m, { c with pc := .check (totalReservedResources m) })
  | .check reserved =>
    match checkReservable res reserved c.request with
    | .ok () => (m, { c with pc := .write })
    | .error e => (m, { c with pc := .done (.error e) })
  | .write =>
    (writeReservation now c.requestId c.manifestId c.request m, { c with pc := .done (.ok ()) })
  | .done _ => (m, c)

/-- **An undisturbed call**: its five steps, at whatever times, are `reserve_capacity`. -/
theorem run_reserveStep (v : ResourceVerifier) (clock : Readings) (atTotal atCheck : Instant)
    (id : String) (manifest : Option String) (request : ResourceRequest) :
    let call := v.reserveCapacity clock id manifest request
    Run.run (reserveStep v.systemResources) (v.reservations, ⟨id, manifest, request, .prune⟩)
        [clock.prune, clock.lookup, atTotal, atCheck, clock.write] =
      (call.2.reservations, ⟨id, manifest, request, .done call.1⟩) := by
  intro call
  simp only [call, Run.run_cons, Run.run_nil, reserveStep, ResourceVerifier.reserveCapacity]
  cases refreshReservation clock.lookup id manifest
      (pruneExpiredReservations clock.prune v.reservations) with
  | some refreshed => rfl
  -- Not found: the check ends the call or lets it write.
  | none =>
    simp only
    cases checkReservable v.systemResources
        (totalReservedResources (pruneExpiredReservations clock.prune v.reservations)) request <;>
      rfl

/-! ## Calls in flight -/

/-- The verifier and the calls that share it. -/
structure Shared where
  resources : SystemResources
  reservations : Reservations
  now : Instant
  calls : List ReserveCall

/-- Time passes, a call starts, or call `i` takes its next step. -/
inductive Interleaving
  | tick (d : Duration)
  | spawn (requestId : String) (manifestId : Option String) (request : ResourceRequest)
  | step (i : ℕ)

def interleave (s : Shared) : Interleaving → Shared
  | .tick d => { s with now := s.now + d }
  | .spawn id manifest request =>
    { s with calls := s.calls ++ [⟨id, manifest, request, .prune⟩] }
  | .step i =>
    match s.calls[i]? with
    | none => s
    | some c =>
      let (m, c') := reserveStep s.resources (s.reservations, c) s.now
      { s with reservations := m, calls := s.calls.set i c' }

/-- No call is in flight, and the unexpired reservations are within what is available. -/
structure Shared.Quiet (s : Shared) : Prop where
  calls : s.calls = []
  fits : ∀ r, unexpiredSum s.now s.reservations r ≤ s.resources.available.toNat r

/-- A call that inserts would still pass its capacity check on the map it writes to. -/
def Rechecked (s : Shared) : Interleaving → Prop
  | .step i => ∀ c ∈ s.calls[i]?, c.pc matches .write → s.reservations.lookup c.requestId = none →
      checkReservable s.resources (totalReservedResources s.reservations) c.request = .ok ()
  | _ => True

instance (s : Shared) : ∀ a, Decidable (Rechecked s a)
  | .step i =>
    match h : s.calls[i]? with
    | none => .isTrue (by simp [Rechecked, h])
    | some c => decidable_of_iff (c.pc matches .write → s.reservations.lookup c.requestId = none →
        checkReservable s.resources (totalReservedResources s.reservations) c.request = .ok ())
        (by simp [Rechecked, h])
  | .tick _ => .isTrue trivial
  | .spawn .. => .isTrue trivial

/-- What rechecked steps keep. Once a call has pruned, everything in the map fits, so that nothing
refreshed past its expiry does harm; before that only the unexpired reservations need to. -/
structure Settled (res : SystemResources) (s : Shared) : Prop where
  resources : s.resources = res
  fits : Fits res s.reservations ∨
    (∀ c ∈ s.calls, c.pc = .prune) ∧
      ∀ r, unexpiredSum s.now s.reservations r ≤ res.available.toNat r

theorem Settled.unexpiredSum_le {res : SystemResources} {s : Shared} (h : Settled res s)
    (r : Resource) : unexpiredSum s.now s.reservations r ≤ res.available.toNat r := by
  obtain hfits | ⟨-, hfits⟩ := h.fits
  · exact hfits.prune s.now r
  · exact hfits r

/-- Every step of a call keeps a map that fits, the inserting write if it is rechecked. -/
theorem fits_reserveStep {res : SystemResources} {m : Reservations} (c : ReserveCall)
    (now : Instant) (hfits : Fits res m)
    (hcheck : c.pc matches .write → m.lookup c.requestId = none →
      checkReservable res (totalReservedResources m) c.request = .ok ()) :
    Fits res (reserveStep res (m, c) now).1 := by
  obtain ⟨id, manifest, request, pc⟩ := c
  have hrefresh {m'} (h : refreshReservation now id manifest m = some m') : Fits res m' :=
    fun r => (reservedSum_refresh h r).trans_le (hfits r)
  cases pc with
  | prune => exact hfits.prune now
  | lookup =>
    simp only [reserveStep]
    cases h : refreshReservation now id manifest m with
    | some m' => exact hrefresh h
    | none => exact hfits
  | total => exact hfits
  | check reserved =>
    simp only [reserveStep]
    cases checkReservable res reserved request <;> exact hfits
  -- The write refreshes what another call inserted, or inserts after the recheck.
  | write =>
    simp only [reserveStep]
    cases h : refreshReservation now id manifest m with
    | some m' =>
      rw [writeReservation, h]
      exact hrefresh h
    | none =>
      have hnone := refreshReservation_eq_none_iff.mp h
      rw [writeReservation_of_lookup_none hnone]
      exact hfits.insert hnone (hcheck rfl hnone) now manifest
  | done result => exact hfits

/-- **What every step keeps**, as long as insertions are rechecked. -/
theorem interleave_settled {res : SystemResources} (s : Shared) (a : Interleaving)
    (hguard : Rechecked s a) (h : Settled res s) : Settled res (interleave s a) := by
  obtain ⟨rfl, hfits⟩ := h
  cases a with
  | tick d =>
    refine ⟨rfl, hfits.imp_right fun ⟨hpcs, hunexpired⟩ => ⟨hpcs, fun r => ?_⟩⟩
    exact (unexpiredSum_antitone (Nat.le_add_right _ d) _ r).trans (hunexpired r)
  | spawn id manifest request =>
    -- A call that starts has yet to prune.
    refine ⟨rfl, hfits.imp_right fun ⟨hpcs, hunexpired⟩ => ⟨fun c hc => ?_, hunexpired⟩⟩
    obtain hc | hc := List.mem_append.mp hc
    · exact hpcs c hc
    · rw [List.mem_singleton.mp hc]
  | step i =>
    cases hi : s.calls[i]? with
    | none =>
      simp only [interleave, hi]
      exact ⟨rfl, hfits⟩
    | some c =>
      simp only [interleave, hi]
      refine ⟨rfl, .inl ?_⟩
      obtain hfits | ⟨hpcs, hunexpired⟩ := hfits
      · exact fits_reserveStep c s.now hfits (hguard c hi)
      · -- The first step any call takes is to prune, which leaves the unexpired reservations.
        have hpc := hpcs c (List.mem_of_getElem? hi)
        simp only [reserveStep, hpc]
        exact hunexpired

/-- **No over-reservation, where insertions are rechecked**: from a verifier whose reservations
fit, in every interleaving of any number of calls, the unexpired reservations stay within what is
available. -/
theorem rechecked_never_overReserved (s : Shared) (hquiet : s.Quiet) (acts : List Interleaving)
    (hguard : Run.Guarded interleave Rechecked s acts) (r : Resource) :
    let s' := Run.run interleave s acts
    s'.resources = s.resources ∧
      unexpiredSum s'.now s'.reservations r ≤ s.resources.available.toNat r := by
  intro s'
  have hstart : Settled s.resources s := by
    refine ⟨rfl, .inr ⟨fun c hc => ?_, hquiet.fits⟩⟩
    rw [hquiet.calls] at hc
    exact nomatch hc
  have hend : Settled s.resources s' := hguard.invariant interleave_settled hstart
  exact ⟨hend.resources, hend.unexpiredSum_le r⟩

/-- Two calls in lockstep, from an empty map: both sum before either writes. -/
def lockstep (cpuMilli : U32) : List Interleaving :=
  [.spawn "a" none ⟨cpuMilli, 0, 0, 1⟩, .spawn "b" none ⟨cpuMilli, 0, 0, 1⟩, .step 0, .step 1,
    .step 0, .step 1, .step 0, .step 1, .step 0, .step 1, .step 0, .step 1]

/-- Two small calls in lockstep fit side by side. -/
theorem rechecked_never_overReserved_lockstep :
    let s : Shared := ⟨fourCoreNode, ∅, 0, []⟩
    let s' := Run.run interleave s (lockstep 1000)
    s.Quiet ∧ Run.Guarded interleave Rechecked s (lockstep 1000) ∧
      unexpiredSum s'.now s'.reservations .cpu ≤ fourCoreNode.available.toNat .cpu := by
  intro s s'
  have hquiet : s.Quiet := ⟨rfl, fun r => Nat.zero_le _⟩
  have hguard : Run.Guarded interleave Rechecked s (lockstep 1000) := by decide
  exact ⟨hquiet, hguard, (rechecked_never_overReserved s hquiet _ hguard .cpu).2⟩

/-- Two calls for 2000 millicores in lockstep both pass the check against an empty map, on a node
with 3600 to give. -/
theorem lockstep_overReserved :
    let s : Shared := ⟨fourCoreNode, ∅, 0, []⟩
    let s' := Run.run interleave s (lockstep 2000)
    s.Quiet ∧ s'.resources.available.toNat .cpu = 3600 ∧
      unexpiredSum s'.now s'.reservations .cpu = 4000 :=
  ⟨⟨rfl, fun r => Nat.zero_le _⟩, by decide, by decide⟩

end Beemesh

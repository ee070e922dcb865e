import Beemesh.Lib.Run
import Beemesh.Resource.Accounting

/-!
# Admission

The verifier called in sequence, each call at one instant. The reservations in the map always fit
in what the node has available, so none of the saturating operations cuts anything off, and both
capacity checks decide the comparison one would write in exact arithmetic.

## Main definitions

* `SystemResources.limit`: the allocatable amounts of a node, exactly
* `Fits`: the reservations of a map fit in the available amounts
* `Call`, `Timed`, `callStep`: sequential calls with clock advances between them

## Main results

* `checkReservable_iff_admissible`: on reservations that fit, the check is the exact comparison
* `callStep_fits`: every call keeps the reservations within what is available
* `admission_exact`: in every state of every run both checks are exact
-/

namespace Beemesh

/-! ## The limits of a node -/

namespace SystemResources

/-- The allocatable amounts: nine tenths of the totals, less the memory and storage kept free. -/
def limit (s : SystemResources) : Resource → ℕ
  | .cpu => s.totalCpuMilli.toNat * 90 / 100
  | .memory => s.totalMemoryBytes.toNat * 90 / 100 - 512 * 1024 * 1024
  | .storage => s.totalStorageBytes.toNat * 90 / 100 - 1024 * 1024 * 1024

/-- The products of the source stay within their words. -/
structure InRange (s : SystemResources) : Prop where
  memory : s.totalMemoryBytes.toNat * 90 < 2 ^ 64
  storage : s.totalStorageBytes.toNat * 90 < 2 ^ 64

variable {s : SystemResources}

theorem toNat_available (h : s.InRange) (r : Resource) :
    s.available.toNat r = s.limit r - s.allocated.toNat r := by
  have hbytes {w : U64} (hw : w.toNat * 90 < 2 ^ 64) :
      (w * BitVec.setWidth 64 (90 : U8) / 100).toNat = w.toNat * 90 / 100 := by
    rw [BitVec.toNat_udiv, BitVec.toNat_mul]
    exact congrArg (· / 100) (Nat.mod_eq_of_lt hw)
  cases r with
  | cpu =>
    have hlt := s.totalCpuMilli.isLt
    have hcpu : ((s.totalCpuMilli.setWidth 64 * BitVec.setWidth 64 (90 : U8) / 100).setWidth 32
        : U32).toNat = s.totalCpuMilli.toNat * 90 / 100 := by
      have hwide : (s.totalCpuMilli.setWidth 64).toNat = s.totalCpuMilli.toNat := by
        rw [BitVec.toNat_setWidth]
        omega
      rw [BitVec.toNat_setWidth, hbytes (by rw [hwide]; omega), hwide]
      omega
    simp only [available, availableCpuMilli, Amounts.toNat_cpu, BitVec.toNat_saturatingSub,
      maxCpuAllocationPercent, hcpu]
    rfl
  | memory =>
    simp only [available, availableMemoryBytes, Amounts.toNat_memory, BitVec.toNat_saturatingSub,
      maxMemoryAllocationPercent, hbytes h.memory]
    rfl
  | storage =>
    simp only [available, availableStorageBytes, Amounts.toNat_storage,
      BitVec.toNat_saturatingSub, maxStorageAllocationPercent, hbytes h.storage]
    rfl

/-- What is available is within the limit, also where a product of the source wraps. -/
theorem available_le_limit (s : SystemResources) (r : Resource) :
    s.available.toNat r ≤ s.limit r := by
  have hbytes (w : U64) :
      (w * BitVec.setWidth 64 (90 : U8) / 100).toNat ≤ w.toNat * 90 / 100 := by
    rw [BitVec.toNat_udiv, BitVec.toNat_mul]
    exact Nat.div_le_div_right (Nat.mod_le _ _)
  cases r with
  | cpu =>
    have hproduct := hbytes (s.totalCpuMilli.setWidth 64)
    have hwide : (s.totalCpuMilli.setWidth 64).toNat = s.totalCpuMilli.toNat := by
      have hlt := s.totalCpuMilli.isLt
      rw [BitVec.toNat_setWidth]
      omega
    have hnarrow (x : U64) : (x.setWidth 32).toNat ≤ x.toNat := by
      rw [BitVec.toNat_setWidth]
      exact Nat.mod_le _ _
    rw [hwide] at hproduct
    have hlimit : s.limit .cpu = s.totalCpuMilli.toNat * 90 / 100 := rfl
    simp only [available, availableCpuMilli, Amounts.toNat_cpu, BitVec.toNat_saturatingSub,
      maxCpuAllocationPercent, hlimit]
    exact (Nat.sub_le _ _).trans ((hnarrow _).trans hproduct)
  | memory =>
    have hlimit : s.limit .memory =
        s.totalMemoryBytes.toNat * 90 / 100 - minFreeMemoryBytes.toNat := rfl
    simp only [available, availableMemoryBytes, Amounts.toNat_memory, BitVec.toNat_saturatingSub,
      maxMemoryAllocationPercent, hlimit]
    exact (Nat.sub_le _ _).trans (Nat.sub_le_sub_right (hbytes _) _)
  | storage =>
    have hlimit : s.limit .storage =
        s.totalStorageBytes.toNat * 90 / 100 - minFreeStorageBytes.toNat := rfl
    simp only [available, availableStorageBytes, Amounts.toNat_storage,
      BitVec.toNat_saturatingSub, maxStorageAllocationPercent, hlimit]
    exact (Nat.sub_le _ _).trans (Nat.sub_le_sub_right (hbytes _) _)

/-- No limit reaches the largest word. -/
theorem limit_lt_maxWord (h : s.InRange) (r : Resource) : s.limit r < r.maxWord := by
  cases r with
  | cpu =>
    have hlt := s.totalCpuMilli.isLt
    have hlimit : s.limit .cpu = s.totalCpuMilli.toNat * 90 / 100 := rfl
    have hmax : Resource.maxWord .cpu = 2 ^ 32 - 1 := rfl
    omega
  | memory =>
    have hlt := h.memory
    have hlimit : s.limit .memory ≤ s.totalMemoryBytes.toNat * 90 / 100 := Nat.sub_le _ _
    have hmax : Resource.maxWord .memory = 2 ^ 64 - 1 := rfl
    omega
  | storage =>
    have hlt := h.storage
    have hlimit : s.limit .storage ≤ s.totalStorageBytes.toNat * 90 / 100 := Nat.sub_le _ _
    have hmax : Resource.maxWord .storage = 2 ^ 64 - 1 := rfl
    omega

end SystemResources

/-! ## The check on reservations that fit -/

/-- The reservations in the map, expired ones included, fit in the available amounts. -/
def Fits (res : SystemResources) (m : Reservations) : Prop :=
  ∀ r, reservedSum m r ≤ res.available.toNat r

/-- The comparison of admission in exact arithmetic: of each resource nothing is asked for, or what
is allocated, reserved and asked for is within the limit. -/
def Admissible (res : SystemResources) (reserved : Resource → ℕ) (request : ResourceRequest) :
    Prop :=
  ∀ r, request.exact r = 0 ∨ res.allocated.toNat r + reserved r + request.exact r ≤ res.limit r

theorem Fits.prune {res : SystemResources} {m : Reservations} (h : Fits res m) (now : Instant) :
    Fits res (pruneExpiredReservations now m) :=
  fun r => (reservedSum_prune_le now m r).trans (h r)

/-- What the check leaves room for does fit. -/
theorem Fits.insert {res : SystemResources} {m : Reservations} (h : Fits res m) {id : String}
    (hid : m.lookup id = none) {request : ResourceRequest}
    (hcheck : checkReservable res (totalReservedResources m) request = .ok ()) (now : Instant)
    (manifest : Option String) :
    Fits res (AList.insert id (newReservation now manifest request) m) := by
  intro r
  have hr := (checkReservable_eq_ok_iff res _ request).mp hcheck r
  have hm := h r
  have hmax := res.available.toNat_le_maxWord r
  rw [toNat_totalReservedResources] at hr
  rw [reservedSum_insert hid]
  omega

/-- **The check is exact**: on reservations that fit, no saturation changes its answer. -/
theorem checkReservable_iff_admissible {res : SystemResources} (hrange : res.InRange)
    {m : Reservations} (h : Fits res m) (request : ResourceRequest) :
    checkReservable res (totalReservedResources m) request = .ok () ↔
      Admissible res (reservedSum m) request := by
  rw [checkReservable_eq_ok_iff]
  refine forall_congr' fun r => ?_
  have hm := h r
  have hlimit := SystemResources.limit_lt_maxWord hrange r
  -- Sums that fit are below the largest word, so no cut shows.
  rw [SystemResources.toNat_available hrange] at hm ⊢
  rw [toNat_totalReservedResources, ResourceRequest.toNat_totals]
  omega

/-! ## Sequential runs -/

/-- One call of the verifier. -/
inductive Call
  | reserveCapacity (requestId : String) (manifestId : Option String) (request : ResourceRequest)
  | verifyCapacity (request : ResourceRequest)
  | hasActiveReservationForManifest (manifestId : String)

/-- A verifier and the time. -/
structure Timed where
  verifier : ResourceVerifier
  now : Instant

/-- The state a call at `now` leaves. -/
def Call.exec (now : Instant) (v : ResourceVerifier) : Call → ResourceVerifier
  | .reserveCapacity id manifest request => (v.reserveCapacity (.at now) id manifest request).2
  | .verifyCapacity request => (v.verifyCapacity now request).2
  | .hasActiveReservationForManifest manifest => (v.hasActiveReservationForManifest now manifest).2

/-- The clock advances, then the call is made. -/
def callStep (s : Timed) (a : Duration × Call) : Timed where
  verifier := a.2.exec (s.now + a.1) s.verifier
  now := s.now + a.1

/-- A verifier whose system resources are `res` and whose reservations fit. -/
structure FitsOn (res : SystemResources) (s : Timed) : Prop where
  resources : s.verifier.systemResources = res
  fits : Fits res s.verifier.reservations

/-- Every call keeps the reservations within what is available. -/
theorem callStep_fits {res : SystemResources} (s : Timed) (a : Duration × Call)
    (h : FitsOn res s) : FitsOn res (callStep s a) := by
  obtain ⟨rfl, hfits⟩ := h
  obtain ⟨d, call⟩ := a
  -- Every call prunes first.
  have hpruned := hfits.prune (s.now + d)
  cases call with
  | verifyCapacity request => exact ⟨rfl, hpruned⟩
  | hasActiveReservationForManifest manifest => exact ⟨rfl, hpruned⟩
  | reserveCapacity id manifest request =>
    simp only [callStep, Call.exec]
    obtain ⟨e, he, hcall⟩ | ⟨err, -, -, hcall⟩ | ⟨hnone, hcheck, hcall⟩ :=
      reserveCapacity_cases s.verifier (.at (s.now + d)) id manifest request
    · rw [hcall]
      -- A refresh keeps the amounts it finds.
      have hrefresh : refreshReservation (s.now + d) id manifest
          (pruneExpiredReservations (s.now + d) s.verifier.reservations) = some _ :=
        Option.map_eq_some_iff.mpr ⟨e, he, rfl⟩
      exact ⟨rfl, fun r => (reservedSum_refresh hrefresh r).trans_le (hpruned r)⟩
    · rw [hcall]
      exact ⟨rfl, hpruned⟩
    · rw [hcall]
      exact ⟨rfl, hpruned.insert hnone hcheck _ manifest⟩

/-- A fresh id is refused or inserted, so a call grants it exactly when the check passes. -/
theorem reserveCapacity_ok_iff {v : ResourceVerifier} {clock : Readings} {id : String}
    (hid : (pruneExpiredReservations clock.prune v.reservations).lookup id = none)
    (manifest : Option String) (request : ResourceRequest) :
    (v.reserveCapacity clock id manifest request).1 = .ok () ↔
      checkReservable v.systemResources
        (totalReservedResources (pruneExpiredReservations clock.prune v.reservations))
        request = .ok () := by
  obtain ⟨e, he, -⟩ | ⟨err, -, hcheck, hcall⟩ | ⟨-, hcheck, hcall⟩ :=
    reserveCapacity_cases v clock id manifest request
  · rw [hid] at he
    exact nomatch he
  · rw [hcall, hcheck]
  · rw [hcall, hcheck]

/-- **Admission is exact.** After every run of calls from an empty map, at every later instant:
`verify_capacity` answers by the exact comparison, `reserve_capacity` under an id with no unexpired
reservation grants by the same comparison, and the unexpired reservations are within what is
available. -/
theorem admission_exact (res : SystemResources) (hrange : res.InRange) (start : Instant)
    (calls : List (Duration × Call)) (d : Duration) (request : ResourceRequest) :
    let s := Run.run callStep ⟨⟨res, ∅⟩, start⟩ calls
    let now := s.now + d
    let reserved := unexpiredSum now s.verifier.reservations
    ((s.verifier.verifyCapacity now request).1.hasCapacity = true ↔
      Admissible res reserved request) ∧
    (∀ id manifest,
      (∀ e, s.verifier.reservations.lookup id = some e → e.expiresAt ≤ now) →
        ((s.verifier.reserveCapacity (.at now) id manifest request).1 = .ok () ↔
          Admissible res reserved request)) ∧
    ∀ r, reserved r ≤ res.limit r - res.allocated.toNat r ∧
      reserved r ≤ res.available.toNat r := by
  intro s now reserved
  obtain ⟨hres, hfits⟩ : FitsOn res s :=
    Run.run_invariant callStep_fits calls ⟨rfl, fun r => Nat.zero_le _⟩
  have hpruned := hfits.prune now
  -- Both calls look at the pruned map, where the check is exact.
  have hcheck := checkReservable_iff_admissible hrange hpruned request
  refine ⟨?_, fun id manifest hid => ?_, fun r => ?_⟩
  · rw [verifyCapacity_hasCapacity_iff, hres]
    exact hcheck
  -- The id is free at `now`, so the call goes on to the check.
  · have hnone : (pruneExpiredReservations now s.verifier.reservations).lookup id = none := by
      refine Option.eq_none_iff_forall_ne_some.mpr fun e he => ?_
      obtain ⟨he, hlt⟩ := lookup_prune_eq_some.mp he
      exact absurd (hid e he) (Nat.not_le.mpr hlt)
    rw [reserveCapacity_ok_iff hnone, hres]
    exact hcheck
  · rw [← SystemResources.toNat_available hrange]
    exact ⟨hpruned r, hpruned r⟩

/-- Three of the 3.6 allocatable cores are reserved: the other 600 millicores are admitted. -/
theorem admission_exact_fourCoreNode :
    let s := Run.run callStep ⟨⟨fourCoreNode, ∅⟩, 0⟩
      [(0, .reserveCapacity "a" none ⟨3000, 0, 0, 1⟩)]
    let request : ResourceRequest := ⟨600, 0, 0, 1⟩
    fourCoreNode.InRange ∧ (s.verifier.verifyCapacity 1 request).1.hasCapacity = true ∧
      (s.verifier.reserveCapacity (.at 1) "b" none request).1 = .ok () := by
  intro s request
  have hrange : fourCoreNode.InRange := ⟨by decide, by decide⟩
  have hadm : Admissible fourCoreNode (unexpiredSum 1 s.verifier.reservations) request := by
    intro r
    cases r <;> decide
  have hfresh : s.verifier.reservations.lookup "b" = none := by decide
  have h := admission_exact fourCoreNode hrange 0 [(0, .reserveCapacity "a" none ⟨3000, 0, 0, 1⟩)]
    1 request
  exact ⟨hrange, h.1.mpr hadm, (h.2.1 "b" none fun e he => nomatch hfresh.symm.trans he).mpr hadm⟩

end Beemesh

import Beemesh.Basic
import Beemesh.Lib.Saturating
import Beemesh.Lib.Table

/-!
# The resource verifier

The verifier of `resource_verifier.rs`: what a node has, what a workload asks for, and the
short-lived reservations made between a capacity reply and the apply that follows it. Amounts are
`u32` millicores and `u64` bytes with saturating arithmetic, as in the source. Each operation
reads the monotonic clock itself; here the readings are arguments.

## Main definitions

* `SystemResources`, `ResourceRequest`, `CapacityReservation`, `ResourceVerifier`
* `reserveCapacity`, `hasActiveReservationForManifest`, `verifyCapacity`
-/

namespace Beemesh

/-! ## Constants of `libp2p_constants.rs` -/

def maxCpuAllocationPercent : U8 := 90

def maxMemoryAllocationPercent : U8 := 90

def maxStorageAllocationPercent : U8 := 90

/-- 512 MB. -/
def minFreeMemoryBytes : U64 := 512 * 1024 * 1024

/-- 1 GB. -/
def minFreeStorageBytes : U64 := 1024 * 1024 * 1024

/-- `0` is no limit. -/
def maxWorkloadsPerNode : U32 := 0

def defaultCpuRequestMilli : U32 := 100

/-- 128 MB. -/
def defaultMemoryRequestBytes : U64 := 128 * 1024 * 1024

/-- 1 GB. -/
def defaultStorageRequestBytes : U64 := 1024 * 1024 * 1024

def reservationHoldSecs : ℕ := 3

/-! ## Amounts -/

/-- The metered resources. -/
inductive Resource
  | cpu
  | memory
  | storage
  deriving DecidableEq, Repr

/-- Millicores of CPU and bytes of memory and storage: the `(u32, u64, u64)` of the source. -/
structure Amounts where
  cpuMilli : U32
  memoryBytes : U64
  storageBytes : U64
  deriving DecidableEq, Repr

namespace Amounts

/-- The exact amount of each resource. -/
def toNat (a : Amounts) : Resource → ℕ
  | .cpu => a.cpuMilli.toNat
  | .memory => a.memoryBytes.toNat
  | .storage => a.storageBytes.toNat

@[simp] theorem toNat_cpu (a : Amounts) : a.toNat .cpu = a.cpuMilli.toNat := rfl

@[simp] theorem toNat_memory (a : Amounts) : a.toNat .memory = a.memoryBytes.toNat := rfl

@[simp] theorem toNat_storage (a : Amounts) : a.toNat .storage = a.storageBytes.toNat := rfl

end Amounts

/-- The largest amount of a resource its word can hold. -/
def Resource.maxWord : Resource → ℕ
  | .cpu => 2 ^ 32 - 1
  | .memory => 2 ^ 64 - 1
  | .storage => 2 ^ 64 - 1

theorem Amounts.toNat_le_maxWord (a : Amounts) (r : Resource) : a.toNat r ≤ r.maxWord := by
  cases r
  · exact Nat.le_pred_of_lt a.cpuMilli.isLt
  · exact Nat.le_pred_of_lt a.memoryBytes.isLt
  · exact Nat.le_pred_of_lt a.storageBytes.isLt

/-! ## System resources -/

/-- `SystemResources`. -/
structure SystemResources where
  totalCpuCores : U32
  totalCpuMilli : U32
  totalMemoryBytes : U64
  totalStorageBytes : U64
  allocatedCpuMilli : U32
  allocatedMemoryBytes : U64
  allocatedStorageBytes : U64
  runningWorkloads : U32
  deriving DecidableEq, Repr

namespace SystemResources

/-- The source widens to `u64` for the product and narrows back: neither step loses a bit. -/
def availableCpuMilli (s : SystemResources) : U32 :=
  let maxAllocatable : U32 :=
    ((s.totalCpuMilli.setWidth 64 * maxCpuAllocationPercent.setWidth 64) / 100).setWidth 32
  maxAllocatable.saturatingSub s.allocatedCpuMilli

/-- The product is an unchecked `u64` multiplication: it wraps in a release build. -/
def availableMemoryBytes (s : SystemResources) : U64 :=
  let maxAllocatable : U64 := s.totalMemoryBytes * maxMemoryAllocationPercent.setWidth 64 / 100
  let maxAllocatable := maxAllocatable.saturatingSub minFreeMemoryBytes
  maxAllocatable.saturatingSub s.allocatedMemoryBytes

/-- The product is an unchecked `u64` multiplication: it wraps in a release build. -/
def availableStorageBytes (s : SystemResources) : U64 :=
  let maxAllocatable : U64 := s.totalStorageBytes * maxStorageAllocationPercent.setWidth 64 / 100
  let maxAllocatable := maxAllocatable.saturatingSub minFreeStorageBytes
  maxAllocatable.saturatingSub s.allocatedStorageBytes

def canAcceptMoreWorkloads (s : SystemResources) : Bool :=
  if maxWorkloadsPerNode = 0 then true else s.runningWorkloads < maxWorkloadsPerNode

@[simp] theorem canAcceptMoreWorkloads_eq (s : SystemResources) :
    s.canAcceptMoreWorkloads = true := rfl

/-- The three available amounts. -/
def available (s : SystemResources) : Amounts :=
  ⟨s.availableCpuMilli, s.availableMemoryBytes, s.availableStorageBytes⟩

/-- The three allocated amounts. -/
def allocated (s : SystemResources) : Amounts :=
  ⟨s.allocatedCpuMilli, s.allocatedMemoryBytes, s.allocatedStorageBytes⟩

end SystemResources

/-! ## Resource requests -/

/-- `ResourceRequest`: amounts for each replica, and the number of replicas. -/
structure ResourceRequest where
  cpuMilli : U32
  memoryBytes : U64
  storageBytes : U64
  replicas : U32
  deriving DecidableEq, Repr

namespace ResourceRequest

/-- `ResourceRequest::new`: defaults for what is not given, and at least one replica. -/
def new (cpuMilli : Option U32) (memoryBytes storageBytes : Option U64) (replicas : U32) :
    ResourceRequest where
  cpuMilli := cpuMilli.getD defaultCpuRequestMilli
  memoryBytes := memoryBytes.getD defaultMemoryRequestBytes
  storageBytes := storageBytes.getD defaultStorageRequestBytes
  replicas := if replicas < 1 then 1 else replicas

def totalCpuMilli (q : ResourceRequest) : U32 := q.cpuMilli.saturatingMul q.replicas

def totalMemoryBytes (q : ResourceRequest) : U64 :=
  q.memoryBytes.saturatingMul (q.replicas.setWidth 64)

def totalStorageBytes (q : ResourceRequest) : U64 :=
  q.storageBytes.saturatingMul (q.replicas.setWidth 64)

/-- The three totals. -/
def totals (q : ResourceRequest) : Amounts :=
  ⟨q.totalCpuMilli, q.totalMemoryBytes, q.totalStorageBytes⟩

/-- The exact amounts of all replicas together. -/
def exact (q : ResourceRequest) : Resource → ℕ
  | .cpu => q.cpuMilli.toNat * q.replicas.toNat
  | .memory => q.memoryBytes.toNat * q.replicas.toNat
  | .storage => q.storageBytes.toNat * q.replicas.toNat

/-- The totals are the exact amounts, cut at the largest words. -/
theorem toNat_totals (q : ResourceRequest) (r : Resource) :
    q.totals.toNat r = min (q.exact r) r.maxWord := by
  have hreps : (q.replicas.setWidth 64).toNat = q.replicas.toNat := by
    have hlt := q.replicas.isLt
    rw [BitVec.toNat_setWidth]
    omega
  cases r
  · exact BitVec.toNat_saturatingMul _ _
  · simp only [totals, Amounts.toNat_memory, totalMemoryBytes, BitVec.toNat_saturatingMul, hreps]
    rfl
  · simp only [totals, Amounts.toNat_storage, totalStorageBytes, BitVec.toNat_saturatingMul, hreps]
    rfl

end ResourceRequest

/-! ## Reservations -/

/-- `CapacityReservation`. -/
structure CapacityReservation extends Amounts where
  manifestId : Option String
  expiresAt : Instant
  deriving DecidableEq, Repr

/-- The reservation is still held at `now`. -/
def CapacityReservation.unexpired (now : Instant) (e : CapacityReservation) : Bool :=
  now < e.expiresAt

/-- The reservations, by request id. -/
abbrev Reservations := Table String CapacityReservation

/-- `ResourceVerifier`. -/
structure ResourceVerifier where
  systemResources : SystemResources
  reservations : Reservations
  deriving DecidableEq

def reservationHoldDuration : Duration := Duration.fromSecs reservationHoldSecs

/-- `prune_expired_reservations`, at its clock reading. -/
def pruneExpiredReservations (now : Instant) (m : Reservations) : Reservations :=
  m.retain fun _ e => e.unexpired now

/-- One step of the fold of `total_reserved_resources`. -/
def Amounts.saturatingAdd (a b : Amounts) : Amounts where
  cpuMilli := a.cpuMilli.saturatingAdd b.cpuMilli
  memoryBytes := a.memoryBytes.saturatingAdd b.memoryBytes
  storageBytes := a.storageBytes.saturatingAdd b.storageBytes

/-- `total_reserved_resources`: the saturating sums over every entry, expired or not. -/
def totalReservedResources (m : Reservations) : Amounts :=
  m.entries.foldl (fun acc e => acc.saturatingAdd e.2.toAmounts) ⟨0, 0, 0⟩

/-- The refresh of an existing reservation: it is held again for the full duration, and takes the
manifest of this call when there is one. Its amounts stay. -/
def refreshReservation (now : Instant) (requestId : String) (manifestId : Option String)
    (m : Reservations) : Option Reservations :=
  (m.lookup requestId).map fun existing =>
    m.insert requestId { existing with
      expiresAt := now + reservationHoldDuration
      manifestId := manifestId.or existing.manifestId }

/-- The reservation inserted for a request. -/
def newReservation (now : Instant) (manifestId : Option String) (request : ResourceRequest) :
    CapacityReservation where
  cpuMilli := request.totalCpuMilli
  memoryBytes := request.totalMemoryBytes
  storageBytes := request.totalStorageBytes
  manifestId := manifestId
  expiresAt := now + reservationHoldDuration

/-- The final write of `reserve_capacity`: a refresh when the id is there by now, else an
insertion. -/
def writeReservation (now : Instant) (requestId : String) (manifestId : Option String)
    (request : ResourceRequest) (m : Reservations) : Reservations :=
  (refreshReservation now requestId manifestId m).getD
    (m.insert requestId (newReservation now manifestId request))

/-- What is left of the available amounts once `reserved` is taken off. -/
def reservable (resources : SystemResources) (reserved : Amounts) : Amounts where
  cpuMilli := resources.availableCpuMilli.saturatingSub reserved.cpuMilli
  memoryBytes := resources.availableMemoryBytes.saturatingSub reserved.memoryBytes
  storageBytes := resources.availableStorageBytes.saturatingSub reserved.storageBytes

/-- The capacity check of `reserve_capacity` against the sums `reserved` read before it. -/
def checkReservable (resources : SystemResources) (reserved : Amounts)
    (request : ResourceRequest) : Except String Unit :=
  let available := reservable resources reserved
  if available.cpuMilli < request.totalCpuMilli then
    let need := request.totalCpuMilli.toNat
    let free := available.cpuMilli.toNat
    .error s!"Insufficient CPU reservation capacity: need {need}m, reservable {free}m"
  else if available.memoryBytes < request.totalMemoryBytes then
    let need := request.totalMemoryBytes.toNat / (1024 * 1024)
    let free := available.memoryBytes.toNat / (1024 * 1024)
    .error s!"Insufficient memory reservation capacity: need {need} MB, reservable {free} MB"
  else if available.storageBytes < request.totalStorageBytes then
    let need := request.totalStorageBytes.toNat / (1024 * 1024 * 1024)
    let free := available.storageBytes.toNat / (1024 * 1024 * 1024)
    .error s!"Insufficient storage reservation capacity: need {need} GB, reservable {free} GB"
  else .ok ()

/-- The clock readings of one `reserve_capacity` call, in the order it makes them. -/
structure Readings where
  prune : Instant
  lookup : Instant
  write : Instant

/-- All readings of a call at one instant. -/
def Readings.at (now : Instant) : Readings := ⟨now, now, now⟩

namespace ResourceVerifier

/-- `reserve_capacity`, run without interruption. -/
def reserveCapacity (v : ResourceVerifier) (clock : Readings) (requestId : String)
    (manifestId : Option String) (request : ResourceRequest) :
    Except String Unit × ResourceVerifier :=
  let pruned := pruneExpiredReservations clock.prune v.reservations
  -- An id that is held is refreshed, whatever the request asks for by now.
  match refreshReservation clock.lookup requestId manifestId pruned with
  | some refreshed => (.ok (), { v with reservations := refreshed })
  | none =>
    match checkReservable v.systemResources (totalReservedResources pruned) request with
    | .error e => (.error e, { v with reservations := pruned })
    | .ok () =>
      (.ok (), { v with
        -- The id is looked up again: another call may have inserted it meanwhile.
        reservations := writeReservation clock.write requestId manifestId request pruned })

/-- `has_active_reservation_for_manifest`. -/
def hasActiveReservationForManifest (v : ResourceVerifier) (now : Instant) (manifestId : String) :
    Bool × ResourceVerifier :=
  let pruned := pruneExpiredReservations now v.reservations
  (pruned.entries.any fun e => e.2.manifestId == some manifestId,
    { v with reservations := pruned })

end ResourceVerifier

/-- `CapacityCheckResult`. -/
structure CapacityCheckResult where
  hasCapacity : Bool
  rejectionReason : Option String
  availableCpuMilli : U32
  availableMemoryBytes : U64
  availableStorageBytes : U64
  deriving DecidableEq, Repr

/-- A check result that carries the available amounts. -/
def CapacityCheckResult.of (available : Amounts) (hasCapacity : Bool) (reason : Option String) :
    CapacityCheckResult :=
  ⟨hasCapacity, reason, available.cpuMilli, available.memoryBytes, available.storageBytes⟩

/-- `verify_capacity`. -/
def ResourceVerifier.verifyCapacity (v : ResourceVerifier) (now : Instant)
    (request : ResourceRequest) : CapacityCheckResult × ResourceVerifier :=
  let pruned := pruneExpiredReservations now v.reservations
  let available := reservable v.systemResources (totalReservedResources pruned)
  let reject (reason : String) := CapacityCheckResult.of available false (some reason)
  -- The first resource that is short gives the reason.
  let result :=
    if available.cpuMilli < request.totalCpuMilli then
      let need := request.totalCpuMilli.toNat
      let free := available.cpuMilli.toNat
      reject s!"Insufficient CPU: need {need}m, available {free}m"
    else if available.memoryBytes < request.totalMemoryBytes then
      let need := request.totalMemoryBytes.toNat / (1024 * 1024)
      let free := available.memoryBytes.toNat / (1024 * 1024)
      reject s!"Insufficient memory: need {need} MB, available {free} MB"
    else if available.storageBytes < request.totalStorageBytes then
      let need := request.totalStorageBytes.toNat / (1024 * 1024 * 1024)
      let free := available.storageBytes.toNat / (1024 * 1024 * 1024)
      reject s!"Insufficient storage: need {need} GB, available {free} GB"
    else if !v.systemResources.canAcceptMoreWorkloads then
      let running := v.systemResources.runningWorkloads.toNat
      let most := maxWorkloadsPerNode.toNat
      reject s!"Maximum workload count reached: {running} / {most}"
    else CapacityCheckResult.of available true none
  (result, { v with reservations := pruned })

end Beemesh

import Beemesh.Resource.Verifier

/-!
# The verifier in exact arithmetic

What each operation of the verifier does, in naturals. The saturating sums and differences of the
source become a `min` and a truncated difference of exact amounts, and a `reserve_capacity` call
becomes one of three moves on the pruned map: refresh, refuse or insert.

## Main definitions

* `reservedSum`, `unexpiredSum`: the exact sums of the reservations
* `Backed`: the reservation stored under an id covers a request

## Main results

* `toNat_totalReservedResources`: the sum of the reservations, cut at the largest words
* `checkReservable_eq_ok_iff`, `verifyCapacity_hasCapacity_iff`: the two capacity checks decide
  the same condition
* `reserveCapacity_cases`: a call refreshes, refuses or inserts
* `reserveCapacity_honest_iff`: a grant covers its request unless it refreshes a smaller one
-/

namespace Beemesh

/-! ## The operations in exact arithmetic -/

/-- The exact sum of every reservation in the map. -/
def reservedSum (m : Reservations) (r : Resource) : ℕ := m.total fun e => e.toAmounts.toNat r

/-- The exact sum of the reservations unexpired at `now`. -/
def unexpiredSum (now : Instant) (m : Reservations) (r : Resource) : ℕ :=
  reservedSum (pruneExpiredReservations now m) r

/-- The sums of the source are the exact sums, cut at the largest words. -/
theorem toNat_totalReservedResources (m : Reservations) (r : Resource) :
    (totalReservedResources m).toNat r = min (reservedSum m r) r.maxWord := by
  -- Each component of the fold is the fold of that component.
  have hfold {w : ℕ} (c : Amounts → BitVec w)
      (hc : ∀ a b, c (a.saturatingAdd b) = (c a).saturatingAdd (c b)) (h0 : c ⟨0, 0, 0⟩ = 0) :
      (c (totalReservedResources m)).toNat =
        min (m.total fun e => (c e.toAmounts).toNat) (2 ^ w - 1) := by
    have hhom : c (totalReservedResources m) =
        m.entries.foldl (fun a e => a.saturatingAdd (c e.2.toAmounts)) (c ⟨0, 0, 0⟩) :=
      (List.foldl_hom c fun a e => (hc a e.2.toAmounts).symm).symm
    rw [hhom, BitVec.toNat_foldl_saturatingAdd, h0]
    simp [AList.total]
  cases r
  · exact hfold Amounts.cpuMilli (fun _ _ => rfl) rfl
  · exact hfold Amounts.memoryBytes (fun _ _ => rfl) rfl
  · exact hfold Amounts.storageBytes (fun _ _ => rfl) rfl

theorem toNat_reservable (res : SystemResources) (reserved : Amounts) (r : Resource) :
    (reservable res reserved).toNat r = res.available.toNat r - reserved.toNat r := by
  cases r <;> exact BitVec.toNat_saturatingSub _ _

theorem forall_resource {p : Resource → Prop} :
    (∀ r, p r) ↔ p .cpu ∧ p .memory ∧ p .storage :=
  ⟨fun h => ⟨h _, h _, h _⟩, fun ⟨hc, hm, hs⟩ r => by cases r <;> assumption⟩

/-- The check of `reserve_capacity`, in one condition for the three resources. -/
theorem checkReservable_eq_ok_iff (res : SystemResources) (reserved : Amounts)
    (request : ResourceRequest) :
    checkReservable res reserved request = .ok () ↔
      ∀ r, request.totals.toNat r ≤ res.available.toNat r - reserved.toNat r := by
  simp only [← toNat_reservable, forall_resource, Amounts.toNat_cpu, Amounts.toNat_memory,
    Amounts.toNat_storage, ResourceRequest.totals, checkReservable, BitVec.lt_def]
  -- Each refusal denies one of the three bounds, and passing them all grants.
  split_ifs with hc hm hs
  · simp only [false_iff]
    omega
  · simp only [false_iff]
    omega
  · simp only [false_iff]
    omega
  · simp only [true_iff]
    omega

/-- **The two checks agree**: `verify_capacity` decides the condition of `reserve_capacity` on the
pruned reservations. -/
theorem verifyCapacity_hasCapacity_iff (v : ResourceVerifier) (now : Instant)
    (request : ResourceRequest) :
    (v.verifyCapacity now request).1.hasCapacity = true ↔
      checkReservable v.systemResources
          (totalReservedResources (pruneExpiredReservations now v.reservations)) request =
        .ok () := by
  simp only [ResourceVerifier.verifyCapacity, checkReservable,
    SystemResources.canAcceptMoreWorkloads_eq, Bool.not_true, Bool.false_eq_true, if_false]
  split_ifs <;> simp [CapacityCheckResult.of]

@[simp] theorem verifyCapacity_snd (v : ResourceVerifier) (now : Instant)
    (request : ResourceRequest) :
    (v.verifyCapacity now request).2 =
      { v with reservations := pruneExpiredReservations now v.reservations } := rfl

/-! ## Pruning -/

theorem lookup_prune (now : Instant) (m : Reservations) (id : String) :
    (pruneExpiredReservations now m).lookup id = (m.lookup id).filter (·.unexpired now) :=
  AList.lookup_retain _ m id

/-- An entry of the map, once pruned, is one of the map that is still held. -/
theorem lookup_prune_eq_some {now : Instant} {m : Reservations} {id : String}
    {e : CapacityReservation} :
    (pruneExpiredReservations now m).lookup id = some e ↔
      m.lookup id = some e ∧ now < e.expiresAt := by
  rw [lookup_prune, Option.filter_eq_some_iff]
  simp [CapacityReservation.unexpired]

/-- A later pruning makes an earlier one unnoticeable. -/
theorem prune_prune {now now' : Instant} (h : now ≤ now') (m : Reservations) :
    pruneExpiredReservations now' (pruneExpiredReservations now m) =
      pruneExpiredReservations now' m := by
  rw [pruneExpiredReservations, pruneExpiredReservations, AList.retain_retain]
  refine AList.retain_congr fun e _ => ?_
  simp only [CapacityReservation.unexpired]
  by_cases he : now' < e.2.expiresAt
  · simp [he, Nat.lt_of_le_of_lt h he]
  · simp [he]

theorem reservedSum_prune_le (now : Instant) (m : Reservations) (r : Resource) :
    reservedSum (pruneExpiredReservations now m) r ≤ reservedSum m r :=
  AList.total_retain_le _ _ m

/-- As time passes the unexpired reservations only shrink. -/
theorem unexpiredSum_antitone {now now' : Instant} (h : now ≤ now') (m : Reservations)
    (r : Resource) : unexpiredSum now' m r ≤ unexpiredSum now m r := by
  rw [unexpiredSum, ← prune_prune h m]
  exact reservedSum_prune_le now' _ r

/-! ## Refreshing and inserting -/

theorem refreshReservation_eq_none_iff {now : Instant} {id : String} {manifest : Option String}
    {m : Reservations} : refreshReservation now id manifest m = none ↔ m.lookup id = none :=
  Option.map_eq_none_iff

/-- A refresh keeps every amount. -/
theorem reservedSum_refresh {now : Instant} {id : String} {manifest : Option String}
    {m m' : Reservations} (h : refreshReservation now id manifest m = some m') (r : Resource) :
    reservedSum m' r = reservedSum m r := by
  obtain ⟨e, he, rfl⟩ := Option.map_eq_some_iff.mp h
  exact AList.total_insert_of_lookup _ he rfl

/-- An insertion adds the totals of the request. -/
theorem reservedSum_insert {id : String} {m : Reservations} (h : m.lookup id = none)
    (now : Instant) (manifest : Option String) (request : ResourceRequest) (r : Resource) :
    reservedSum (m.insert id (newReservation now manifest request)) r =
      request.totals.toNat r + reservedSum m r :=
  AList.total_insert_of_notMem _ _ (AList.lookup_eq_none.mp h)

/-- The final write, when the id is not there. -/
theorem writeReservation_of_lookup_none {now : Instant} {id : String} {manifest : Option String}
    {request : ResourceRequest} {m : Reservations} (h : m.lookup id = none) :
    writeReservation now id manifest request m =
      m.insert id (newReservation now manifest request) := by
  rw [writeReservation, refreshReservation_eq_none_iff.mpr h]
  rfl

/-- **What a call can do**: refresh an unexpired reservation of its id, refuse, or insert. -/
theorem reserveCapacity_cases (v : ResourceVerifier) (clock : Readings) (id : String)
    (manifest : Option String) (request : ResourceRequest) :
    let pruned := pruneExpiredReservations clock.prune v.reservations
    (∃ e, pruned.lookup id = some e ∧
        v.reserveCapacity clock id manifest request = (.ok (), { v with
          reservations := pruned.insert id { e with
            expiresAt := clock.lookup + reservationHoldDuration
            manifestId := manifest.or e.manifestId } })) ∨
      (∃ err, pruned.lookup id = none ∧
        checkReservable v.systemResources (totalReservedResources pruned) request = .error err ∧
        v.reserveCapacity clock id manifest request =
          (.error err, { v with reservations := pruned })) ∨
      (pruned.lookup id = none ∧
        checkReservable v.systemResources (totalReservedResources pruned) request = .ok () ∧
        v.reserveCapacity clock id manifest request = (.ok (), { v with
          reservations := pruned.insert id (newReservation clock.write manifest request) })) := by
  intro pruned
  -- The lookup decides whether the request is looked at.
  cases hlookup : pruned.lookup id with
  | some e =>
    refine .inl ⟨e, rfl, ?_⟩
    simp only [ResourceVerifier.reserveCapacity, refreshReservation]
    rw [show (pruneExpiredReservations clock.prune v.reservations).lookup id = some e from hlookup]
    rfl
  | none =>
    have hrefresh : refreshReservation clock.lookup id manifest pruned = none :=
      refreshReservation_eq_none_iff.mpr hlookup
    cases hcheck : checkReservable v.systemResources (totalReservedResources pruned) request with
    | error err =>
      refine .inr (.inl ⟨err, rfl, rfl, ?_⟩)
      simp only [ResourceVerifier.reserveCapacity]
      rw [hrefresh]
      simp only [pruned] at hcheck
      simp only [hcheck]
      rfl
    | ok u =>
      refine .inr (.inr ⟨rfl, rfl, ?_⟩)
      simp only [ResourceVerifier.reserveCapacity]
      rw [hrefresh]
      simp only [pruned] at hcheck
      simp only [hcheck]
      rw [← writeReservation_of_lookup_none hlookup]

/-- A refusal only prunes. -/
theorem reserveCapacity_refused {v v' : ResourceVerifier} {clock : Readings} {id err : String}
    {manifest : Option String} {request : ResourceRequest}
    (h : v.reserveCapacity clock id manifest request = (.error err, v')) :
    v' = { v with reservations := pruneExpiredReservations clock.prune v.reservations } := by
  obtain ⟨e, -, hcall⟩ | ⟨err, -, -, hcall⟩ | ⟨-, -, hcall⟩ :=
    reserveCapacity_cases v clock id manifest request
  · rw [hcall] at h
    exact nomatch h
  · rw [hcall] at h
    exact (Prod.ext_iff.mp h).2.symm
  · rw [hcall] at h
    exact nomatch h

/-- No call changes what the node has. -/
theorem reserveCapacity_systemResources {v v' : ResourceVerifier} {clock : Readings} {id : String}
    {manifest : Option String} {request : ResourceRequest} {result : Except String Unit}
    (h : v.reserveCapacity clock id manifest request = (result, v')) :
    v'.systemResources = v.systemResources := by
  obtain ⟨e, -, hcall⟩ | ⟨err, -, -, hcall⟩ | ⟨-, -, hcall⟩ :=
    reserveCapacity_cases v clock id manifest request
  all_goals
    obtain rfl := (Prod.ext_iff.mp (h.symm.trans hcall)).2
    rfl

/-- What a granted call leaves under each id: for its own id a reservation of its manifest held for
the full duration, and for the others what was there and unexpired. -/
theorem reserveCapacity_granted {v v' : ResourceVerifier} {now : Instant} {id m : String}
    {request : ResourceRequest}
    (h : v.reserveCapacity (.at now) id (some m) request = (.ok (), v')) {id' : String}
    {e : CapacityReservation} (he : v'.reservations.lookup id' = some e) :
    (id' = id ∧ e.manifestId = some m ∧ e.expiresAt = now + reservationHoldDuration) ∨
      v.reservations.lookup id' = some e := by
  -- Both grants write one entry, with this manifest and this expiry, into the pruned map.
  have hwrite : ∃ e', e'.manifestId = some m ∧ e'.expiresAt = now + reservationHoldDuration ∧
      v'.reservations = (pruneExpiredReservations now v.reservations).insert id e' := by
    obtain ⟨e', -, hcall⟩ | ⟨err, -, -, hcall⟩ | ⟨-, -, hcall⟩ :=
      reserveCapacity_cases v (.at now) id (some m) request
    · obtain rfl := (Prod.ext_iff.mp (h.symm.trans hcall)).2
      exact ⟨_, rfl, rfl, rfl⟩
    · exact nomatch h.symm.trans hcall
    · obtain rfl := (Prod.ext_iff.mp (h.symm.trans hcall)).2
      exact ⟨_, rfl, rfl, rfl⟩
  obtain ⟨e', hmanifest, hexpires, hreservations⟩ := hwrite
  rw [hreservations] at he
  -- Under its own id the entry is the one written, elsewhere it is the old one.
  rcases eq_or_ne id' id with rfl | hne
  · rw [AList.lookup_insert, Option.some.injEq] at he
    subst he
    exact .inl ⟨rfl, hmanifest, hexpires⟩
  · rw [AList.lookup_insert_ne hne] at he
    exact .inr (lookup_prune_eq_some.mp he).1

/-! ## What a grant backs -/

/-- The reservation covers every amount of the request. -/
def CapacityReservation.Covers (e : CapacityReservation) (request : ResourceRequest) : Prop :=
  ∀ r, request.totals.toNat r ≤ e.toAmounts.toNat r

/-- The reservation stored under `id` covers the request, under the manifest of the call. -/
def Backed (m : Reservations) (id : String) (manifest : Option String)
    (request : ResourceRequest) : Prop :=
  ∃ e, m.lookup id = some e ∧ e.Covers request ∧
    ∀ name, manifest = some name → e.manifestId = some name

/-- No reservation of `m` unexpired at `now` or later differs in `m'`. -/
def SameUnexpired (now : Instant) (m m' : Reservations) : Prop :=
  ∀ now' ≥ now, ∀ id, (pruneExpiredReservations now' m').lookup id =
    (pruneExpiredReservations now' m).lookup id

/-- The call keeps its word: a grant leaves a reservation that backs it, and a refusal touches no
unexpired reservation. -/
def ResourceVerifier.Honest (v : ResourceVerifier) (clock : Readings) (id : String)
    (manifest : Option String) (request : ResourceRequest) : Prop :=
  let call := v.reserveCapacity clock id manifest request
  (call.1 = .ok () → Backed call.2.reservations id manifest request) ∧
    ∀ err, call.1 = .error err →
      SameUnexpired clock.prune v.reservations call.2.reservations

/-- A refresh backs the request exactly when the reservation it found already covers it. -/
theorem backed_refresh_iff {m : Reservations} {id : String} {e : CapacityReservation}
    (now : Instant) (manifest : Option String) (request : ResourceRequest) :
    Backed (m.insert id { e with
        expiresAt := now + reservationHoldDuration
        manifestId := manifest.or e.manifestId }) id manifest request ↔ e.Covers request := by
  constructor
  · rintro ⟨e', he', hcov, -⟩
    rw [AList.lookup_insert, Option.some.injEq] at he'
    subst he'
    exact hcov
  · intro hcov
    refine ⟨_, AList.lookup_insert m, hcov, ?_⟩
    rintro name rfl
    rfl

/-- An insertion backs its request. -/
theorem backed_insert (m : Reservations) (id : String) (now : Instant) (manifest : Option String)
    (request : ResourceRequest) :
    Backed (m.insert id (newReservation now manifest request)) id manifest request := by
  refine ⟨_, AList.lookup_insert m, fun r => ?_, fun name hname => hname⟩
  cases r <;> exact le_rfl

/-- The final write backs the request unless it finds a reservation that does not cover it. -/
theorem backed_write_iff (m : Reservations) (id : String) (now : Instant)
    (manifest : Option String) (request : ResourceRequest) :
    Backed (writeReservation now id manifest request m) id manifest request ↔
      ∀ e, m.lookup id = some e → e.Covers request := by
  cases hlookup : m.lookup id with
  | none =>
    rw [writeReservation_of_lookup_none hlookup]
    exact iff_of_true (backed_insert m id now manifest request) fun e he => nomatch he
  | some e =>
    rw [writeReservation, refreshReservation, hlookup]
    refine (backed_refresh_iff now manifest request).trans ?_
    simp

/-- **When a grant covers its request**: exactly when no unexpired reservation under its id is
smaller than the request, since a refresh keeps the amounts it finds. The same holds of the final
write on whatever map other calls have left it. -/
theorem reserveCapacity_honest_iff (v : ResourceVerifier) (clock : Readings) (id : String)
    (manifest : Option String) (request : ResourceRequest) :
    (v.Honest clock id manifest request ↔
      ∀ e, v.reservations.lookup id = some e → clock.prune < e.expiresAt → e.Covers request) ∧
    ∀ m, Backed (writeReservation clock.write id manifest request m) id manifest request ↔
      ∀ e, m.lookup id = some e → e.Covers request := by
  refine ⟨?_, fun m => backed_write_iff m id clock.write manifest request⟩
  have hfind : (∀ e, v.reservations.lookup id = some e → clock.prune < e.expiresAt →
        e.Covers request) ↔
      ∀ e, (pruneExpiredReservations clock.prune v.reservations).lookup id = some e →
        e.Covers request := by
    simp only [lookup_prune_eq_some, and_imp]
  -- Only the refresh can miss: an insertion backs its request and a refusal prunes.
  rw [hfind, ResourceVerifier.Honest]
  obtain ⟨e, he, hcall⟩ | ⟨err, hnone, -, hcall⟩ | ⟨hnone, -, hcall⟩ :=
    reserveCapacity_cases v clock id manifest request
  · simp only [hcall, he, forall_const, reduceCtorEq, false_implies, and_true,
      Option.some.injEq, forall_eq']
    exact backed_refresh_iff clock.lookup manifest request
  · refine iff_of_true ⟨fun hok => ?_, fun _ _ now' hle k => ?_⟩ fun e he => ?_
    · rw [hcall] at hok
      exact nomatch hok
    · rw [hcall, prune_prune hle]
    · rw [hnone] at he
      exact nomatch he
  · refine iff_of_true ⟨fun _ => ?_, fun err herr => ?_⟩ fun e he => ?_
    · rw [hcall]
      exact backed_insert _ id clock.write manifest request
    · rw [hcall] at herr
      exact nomatch herr
    · rw [hnone] at he
      exact nomatch he

/-- A node of four cores, 8 GB of memory and 100 GB of storage, with nothing allocated. -/
def fourCoreNode : SystemResources where
  totalCpuCores := 4
  totalCpuMilli := 4000
  totalMemoryBytes := 8 * 1024 * 1024 * 1024
  totalStorageBytes := 100 * 1024 * 1024 * 1024
  allocatedCpuMilli := 0
  allocatedMemoryBytes := 0
  allocatedStorageBytes := 0
  runningWorkloads := 0

/-- A request id that comes back with a larger request is granted, and only the first one is
held. -/
theorem reserveCapacity_not_honest :
    let v : ResourceVerifier := ⟨fourCoreNode, ∅⟩
    let first := v.reserveCapacity (.at 0) "req" (some "m") ⟨100, 0, 0, 1⟩
    first.1 = .ok () ∧ ¬ first.2.Honest (.at 1) "req" (some "m") ⟨200, 0, 0, 1⟩ := by
  intro v first
  refine ⟨by decide, fun ⟨hok, _⟩ => ?_⟩
  obtain ⟨e, he, hcov, -⟩ := hok (by decide)
  -- The second call found the first reservation and kept its amounts.
  have hstored : e.cpuMilli = 100 := by
    have hlookup : ((first.2.reserveCapacity (.at 1) "req" (some "m") ⟨200, 0, 0, 1⟩).2
        |>.reservations.lookup "req").map (·.cpuMilli) = some 100 := by decide
    rw [he] at hlookup
    exact Option.some.inj hlookup
  have hcpu : 200 ≤ e.cpuMilli.toNat := hcov .cpu
  rw [hstored] at hcpu
  exact absurd hcpu (by decide)

end Beemesh

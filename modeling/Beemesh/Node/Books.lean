import Beemesh.Lib.Ledger
import Beemesh.Node.Trace
import Beemesh.Resource.Admission

/-!
# What the running workloads were reserved

The verifier counts the reservations that are held, and the allocated amounts it was given when the
workload manager started. A workload that runs on after its reservation expired is in neither. Runs
keep the books that the node does not: which workloads run, and what was reserved for the manifest
of each when it was deployed.

## Main definitions

* `Books`, `booksStep`: the running workloads and what was reserved for them, along a run
* `committed`: that, and the reservations held for other manifests
* `Covered`: what was reserved for the running workloads is still held

## Main results

* `committed_le_limit`: when nothing is granted unless the books are covered, what is committed
  stays within the allocatable amounts
-/

namespace Beemesh

/-- The running workloads by id, with their manifest, and what was reserved for each manifest. -/
structure Books where
  running : Table String String := ∅
  reservedFor : String → Resource → ℕ := fun _ _ => 0

namespace Books

/-- The manifests of the running workloads. -/
def manifests (b : Books) : Finset String := (b.running.entries.map Sigma.snd).toFinset

/-- The books after an act, `held` being what is held for each manifest at the time: a deployment
takes over what is held for its manifest. -/
def record (b : Books) (held : String → Resource → ℕ) : Act → Books
  | .deploy m w =>
    { running := b.running.insert w m
      reservedFor := fun m' r =>
        if m' = m then max (if m ∈ b.manifests then b.reservedFor m r else 0) (held m r)
        else b.reservedFor m' r }
  | .delete _ removed => { b with running := removed.foldl (fun t w => t.erase w) b.running }
  | .reserve _ _ | .forward _ _ _ => b

@[simp] theorem record_reserve (b : Books) (held : String → Resource → ℕ) (id m : String) :
    b.record held (.reserve id m) = b := rfl

end Books

/-- A node and the books on it. -/
structure Booked (H : Type) where
  node : Node H
  books : Books := {}

variable {H : Type} (P : NodePlatform)

namespace Booked

variable (s : Booked H)

/-- The reservations that are held. -/
def holding : Reservations := pruneExpiredReservations s.node.now s.node.verifier.reservations

/-- What is held for a manifest. -/
def held (m : String) (r : Resource) : ℕ :=
  Ledger.held (fun e : CapacityReservation => e.toAmounts.toNat r) (·.manifestId) s.holding m

/-- What was reserved for the manifests of the running workloads, and what is held for others. -/
def committed (r : Resource) : ℕ :=
  ∑ m ∈ s.books.manifests, s.books.reservedFor m r +
    (s.holding.unlabelled (·.manifestId) s.books.manifests).total fun e => e.toAmounts.toNat r

/-- What was reserved for the running workloads is still held. -/
def Covered : Prop := ∀ m ∈ s.books.manifests, ∀ r, s.books.reservedFor m r ≤ s.held m r

end Booked

def booksStep (s : Booked H) (a : Action H) : Booked H where
  node := (step P s.node a).node
  books := match (step P s.node a).act with
    | some act => s.books.record s.held act
    | none => s.books

/-- A capacity request that has verified and that the verifier has room for, under a request id
without a reservation, comes while the books are covered. -/
def AskedCovered (s : Booked H) (a : Action H) : Prop :=
  ∀ req, a.asks P s.node = some req → s.node.verifier.hasRoom s.node.now req = true →
    s.holding.lookup (req.requestId.getD "") = none → s.Covered

/-! ## The invariant -/

/-- The manifest of every reservation is the one in its request id. -/
def Labelled (m : Reservations) : Prop :=
  ∀ id e, m.lookup id = some e → e.manifestId = extractManifestIdFromRequestId id

/-- What the books and a map of reservations commit of a resource, each manifest counted once. -/
def commitment (b : Books) (m : Reservations) (r : Resource) : ℕ :=
  Ledger.commitment (fun e : CapacityReservation => e.toAmounts.toNat r) (·.manifestId)
    b.manifests (fun name => b.reservedFor name r) m

/-- On a node that has `res`, the books and the reservations held fit in what is available. -/
structure Balanced (res : SystemResources) (s : Booked H) : Prop where
  resources : s.node.verifier.systemResources = res
  labels : Labelled s.node.verifier.reservations
  fits : ∀ r, commitment s.books s.holding r ≤ res.available.toNat r

theorem Books.manifests_insert (b : Books) (w m : String) :
    Books.manifests { b with running := b.running.insert w m } ⊆ insert m b.manifests := by
  intro m' hm'
  simp only [manifests, List.mem_toFinset, List.mem_map, Finset.mem_insert] at hm' ⊢
  obtain ⟨e, he, rfl⟩ := hm'
  rcases AList.mem_entries_insert he with rfl | he
  · exact .inl rfl
  · exact .inr ⟨e, he, rfl⟩

theorem Books.manifests_delete (b : Books) (removed : List String) :
    Books.manifests { b with running := removed.foldl (fun t w => t.erase w) b.running } ⊆
      b.manifests := by
  induction removed generalizing b with
  | nil => exact subset_rfl
  | cons w removed ih =>
    refine (ih { b with running := b.running.erase w }).trans fun m' hm' => ?_
    simp only [manifests, List.mem_toFinset, List.mem_map] at hm' ⊢
    obtain ⟨e, he, rfl⟩ := hm'
    exact ⟨e, (List.kerase_sublist _ _).subset he, rfl⟩

/-- No act commits more of what is held: a deployment takes over what is held for its manifest. -/
theorem commitment_record_le (s : Booked H) (act : Act) (r : Resource) :
    commitment (s.books.record s.held act) s.holding r ≤ commitment s.books s.holding r := by
  cases act with
  | reserve id m => exact le_rfl
  | forward id payload observers => exact le_rfl
  | delete m removed => exact Ledger.commitment_subset_le (s.books.manifests_delete removed)
  | deploy m w =>
    -- The workload may replace one of another manifest, which drops a pledge.
    refine (Ledger.commitment_subset_le (s.books.manifests_insert w m)).trans ?_
    refine Ledger.commitment_pledge_le ?_ fun m' hne => ?_
    · simp only [Books.record, if_true]
      exact le_rfl
    · simp only [Books.record, if_neg hne]

theorem commitment_prune_le (b : Books) (m : Reservations) (now : Instant) (r : Resource) :
    commitment b (pruneExpiredReservations now m) r ≤ commitment b m r :=
  Ledger.commitment_retain_le _

/-- As time passes nothing more is committed. -/
theorem commitment_prune_antitone (b : Books) (m : Reservations) {now now' : Instant}
    (h : now ≤ now') (r : Resource) :
    commitment b (pruneExpiredReservations now' m) r ≤
      commitment b (pruneExpiredReservations now m) r := by
  rw [← prune_prune h m]
  exact commitment_prune_le b _ now' r

/-- A grant on reservations that are held: what it refreshes commits the same, and what it inserts
fits, the books being covered. -/
theorem commitment_granted_le {res : SystemResources} {s : Booked H} (hs : Balanced res s)
    {id m : String} {req : CapacityRequest} {v : ResourceVerifier}
    (hm : extractManifestIdFromRequestId id = some m)
    (hcovered : s.holding.lookup id = none → s.Covered)
    (hcall : (s.node.verifier.pruned s.node.now).reserveCapacity (.at s.node.now) id (some m)
      req.resources = (.ok (), v)) (r : Resource) :
    commitment s.books v.reservations r ≤ res.available.toNat r := by
  have hpruned : pruneExpiredReservations s.node.now
      (s.node.verifier.pruned s.node.now).reservations = s.holding := prune_prune le_rfl _
  have hcases := reserveCapacity_cases (s.node.verifier.pruned s.node.now) (.at s.node.now) id
    (some m) req.resources
  simp only [Readings.at, hpruned] at hcases
  obtain ⟨e, he, hrefresh⟩ | ⟨err, -, -, hrefuse⟩ | ⟨hnone, hcheck, hinsert⟩ := hcases
  · -- Refreshed: the entry keeps its amounts, and its manifest is the one of its id already.
    obtain rfl := (Prod.ext_iff.mp (hcall.symm.trans hrefresh)).2
    have hlabel : e.manifestId = some m :=
      (hs.labels id e (lookup_prune_eq_some.mp he).1).trans hm
    refine le_trans (le_of_eq ?_) (hs.fits r)
    exact Ledger.commitment_insert_of_lookup he rfl (by rw [hlabel]; rfl)
  · exact nomatch hcall.symm.trans hrefuse
  · -- Inserted: the check left room beside what is held, which is all that is committed.
    obtain rfl := (Prod.ext_iff.mp (hcall.symm.trans hinsert)).2
    have hroom := (checkReservable_eq_ok_iff _ _ _).mp hcheck r
    have hall : commitment s.books s.holding r = reservedSum s.holding r :=
      Ledger.commitment_of_covered fun m' hm' => hcovered hnone m' hm' r
    have hnew : commitment s.books
        (s.holding.insert id (newReservation s.node.now (some m) req.resources)) r ≤
          req.resources.totals.toNat r + commitment s.books s.holding r := by
      refine (Ledger.commitment_insert_le hnone _).trans (le_of_eq ?_)
      cases r <;> rfl
    have hfits := hs.fits r
    have hmax := res.available.toNat_le_maxWord r
    rw [toNat_totalReservedResources, ResourceVerifier.pruned, hs.resources] at hroom
    refine hnew.trans ?_
    omega

/-- **A step keeps the balance**, when it grants nothing new unless the books are covered. -/
theorem balanced_booksStep {res : SystemResources} {s : Booked H} {a : Action H}
    (hguard : AskedCovered P s a) (hs : Balanced res s) : Balanced res (booksStep P s a) := by
  have hresources : (booksStep P s a).node.verifier.systemResources = res :=
    (step_systemResources P s.node a).trans hs.resources
  have hnow : s.node.now ≤ (booksStep P s a).node.now :=
    (Nat.le_add_right _ _).trans_eq (step_now P s.node a).symm
  cases step_verifier P s.node a with
  | keeps hact hverifier =>
    -- What is held now was held before, and the books took over no more than that.
    have hreservations : (booksStep P s a).holding =
        pruneExpiredReservations (booksStep P s a).node.now s.node.verifier.reservations := by
      rcases hverifier with hverifier | hverifier
      · rw [Booked.holding, booksStep, hverifier]
      · rw [Booked.holding, booksStep, hverifier]
        exact prune_prune hnow _
    have hbooks (r : Resource) : commitment (booksStep P s a).books s.holding r ≤
        commitment s.books s.holding r := by
      simp only [booksStep]
      cases (step P s.node a).act with
      | none => exact le_rfl
      | some act => exact commitment_record_le s act r
    refine ⟨hresources, fun id e he => ?_, fun r => ?_⟩
    · rcases hverifier with hverifier | hverifier
      · exact hs.labels id e (hverifier ▸ he)
      · have hpruned : (s.node.verifier.pruned s.node.now).reservations.lookup id = some e :=
          hverifier ▸ he
        exact hs.labels id e (lookup_prune_eq_some.mp hpruned).1
    · calc commitment (booksStep P s a).books (booksStep P s a).holding r
          ≤ commitment (booksStep P s a).books s.holding r := by
            rw [hreservations]
            exact commitment_prune_antitone _ _ hnow r
        _ ≤ commitment s.books s.holding r := hbooks r
        _ ≤ res.available.toNat r := hs.fits r
  | grants req id m hasked hid hm hact hroom hcall =>
    subst hid
    have hbooks : (booksStep P s a).books = s.books := by
      simp only [booksStep, hact, Books.record_reserve]
    refine ⟨hresources, fun id' e he => ?_, fun r => ?_⟩
    · rcases reserveCapacity_granted hcall he with ⟨rfl, hmanifest, -⟩ | hold
      · rw [hmanifest, hm]
      · exact hs.labels id' e (lookup_prune_eq_some.mp hold).1
    · rw [hbooks]
      exact (commitment_prune_le _ _ _ r).trans
        (commitment_granted_le hs hm (hguard req hasked hroom) hcall r)

/-- **What is committed stays within the limit**, over every run from the start of the workload
manager on in which nothing is granted unless the books are covered. -/
theorem committed_le_limit (n : Node H) (hempty : n.verifier.reservations = ∅)
    (registry : RuntimeRegistry H) (totals : SystemResources) {acts : List (Action H)}
    (hguard : Run.Guarded (booksStep P) (AskedCovered P)
      ⟨initializeWorkloadManager n registry totals, {}⟩ acts) (r : Resource) :
    (Run.run (booksStep P) ⟨initializeWorkloadManager n registry totals, {}⟩ acts).committed r ≤
      totals.limit r := by
  -- At the start nothing is held and nothing runs.
  let res := updateAllocatedResources (some registry) n.host totals
  have hinit : Balanced res (⟨initializeWorkloadManager n registry totals, {}⟩ : Booked H) := by
    refine ⟨rfl, fun id e he => ?_, fun r => ?_⟩
    · have hnone : n.verifier.reservations.lookup id = some e := he
      rw [hempty] at hnone
      exact nomatch hnone
    · have hnothing : commitment {} (pruneExpiredReservations n.now n.verifier.reservations) r =
          0 := by
        rw [hempty]
        rfl
      exact hnothing.trans_le (Nat.zero_le _)
  have hrun : Balanced res (Run.run (booksStep P)
      ⟨initializeWorkloadManager n registry totals, {}⟩ acts) :=
    hguard.invariant (fun s a hg hs => balanced_booksStep P hg hs) hinit
  calc _ ≤ _ := Ledger.pledges_le_commitment
    _ ≤ res.available.toNat r := hrun.fits r
    _ ≤ res.limit r := res.available_le_limit r
    _ = totals.limit r := by cases r <;> rfl

/-! ## On the reference node -/

/-- A step that acts, from a node and its books. -/
theorem booksStep_act {P : NodePlatform} {n : Node H} {b : Books} {a : Action H} {act : Act}
    (h : (step P n a).act = some act) :
    booksStep P ⟨n, b⟩ a =
      ⟨(step P n a).node, b.record (Booked.held ⟨n, b⟩) act⟩ := by
  simp only [booksStep, h]

/-- The books of the reference node once it has granted a bid for manifest `m` and deployed it. -/
def deployedBooks : Books :=
  ({} : Books).record (Booked.held ⟨bidNode, {}⟩) (.deploy "m" "beemesh-m")

theorem deployedBooks_manifests : deployedBooks.manifests = {"m"} := rfl

theorem deployedBooks_reservedFor : deployedBooks.reservedFor "m" .cpu = 1800 := by decide

/-- A bid for half of the CPU and its deployment. -/
theorem run_bid_apply :
    ∃ n : Node Pods, Run.run (booksStep trusting) ⟨referenceNode, {}⟩
        [bidAction, applyAction "b"] = ⟨n, deployedBooks⟩ ∧
      n.core = { bidNode.core with
        nonceStore := (checkNonce bidNode.nonceStore 0 "b" nonceWindow "p").2 } := by
  have hnonce : ¬ bidNode.nonceStore.Live 0 nonceWindow "p" "b" := by decide
  obtain ⟨hact, hcore, -⟩ := step_applyAction (n := bidNode) "b" rfl rfl hnonce
  have hbid : booksStep trusting ⟨referenceNode, {}⟩ bidAction = ⟨bidNode, {}⟩ := by
    rw [booksStep_act step_bidAction.1, step_bidAction.2, Books.record_reserve]
  refine ⟨_, ?_, hcore⟩
  rw [Run.run_cons, Run.run_cons, Run.run_nil, hbid, booksStep_act hact]
  rfl

/-- While the grant is held a second bid for half of the CPU comes covered, and all that is
committed fits. -/
theorem committed_le_limit_reference :
    let acts := [bidAction, applyAction "b"] ++ [secondBidAction 1800]
    Run.Guarded (booksStep trusting) (AskedCovered trusting) ⟨referenceNode, {}⟩ acts ∧
      ∀ r, (Run.run (booksStep trusting) ⟨referenceNode, {}⟩ acts).committed r ≤
        fourCoreNode.limit r := by
  intro acts
  obtain ⟨n, hrun, hcore⟩ := run_bid_apply
  have happly (n : Node Pods) : (applyAction "b").asks trusting n = none := rfl
  have hguard : Run.Guarded (booksStep trusting) (AskedCovered trusting) ⟨referenceNode, {}⟩
      acts := by
    refine Run.guarded_append.mpr ⟨⟨?_, ?_, trivial⟩, ?_, trivial⟩
    · intro req hasked hroom hnone m hm
      exact absurd hm (Finset.notMem_empty m)
    · intro req hasked
      exact nomatch (happly _).symm.trans hasked
    · intro req hasked hroom hnone
      rw [hrun]
      intro m hm r
      obtain rfl : m = "m" := Finset.mem_singleton.mp hm
      obtain ⟨hverifier, -, -, hnow⟩ := Core.mk.inj hcore
      -- The grant is held, and it is what the books took over.
      have hheld : Booked.held ⟨n, deployedBooks⟩ "m" r = Booked.held ⟨bidNode, {}⟩ "m" r := by
        simp only [Booked.held, Booked.holding, hverifier, hnow]
        rfl
      rw [hheld]
      exact le_of_eq (Nat.zero_max _)
  exact ⟨hguard, committed_le_limit trusting blankNode rfl podmanRegistry fourCoreNode hguard⟩

/-- What is committed once the grant has expired and a bid for all of the CPU was granted. -/
theorem committed_secondBid {n : Node Pods}
    (hverifier : n.verifier = (secondBidCall (Duration.fromSecs 3) 3600).2)
    (hnow : n.now = Duration.fromSecs 3) :
    Booked.committed ⟨n, deployedBooks⟩ .cpu = 5400 := by
  have hother : ((pruneExpiredReservations (Duration.fromSecs 3)
      (secondBidCall (Duration.fromSecs 3) 3600).2.reservations).unlabelled (·.manifestId)
        {"m"}).total (fun e => e.toAmounts.toNat .cpu) = 3600 := by decide
  simp only [Booked.committed, Booked.holding, hverifier, hnow, deployedBooks_manifests,
    Finset.sum_singleton, deployedBooks_reservedFor, hother]

/-- Three seconds after its deployment a workload is in no count: a bid for all of the CPU is
granted beside it. -/
theorem committed_exceeds_limit :
    podmanRegistry.NoWorkloads blankNode.host ∧
      (Run.run (booksStep trusting) ⟨referenceNode, {}⟩
        ([bidAction, applyAction "b"] ++
          [.tick (Duration.fromSecs 3), secondBidAction 3600])).committed .cpu = 5400 ∧
      fourCoreNode.limit .cpu = 3600 := by
  refine ⟨fun engine hengine => ?_, ?_, by decide⟩
  · obtain rfl := Option.some.inj hengine
    rfl
  obtain ⟨n, hrun, hcore⟩ := run_bid_apply
  have htick : booksStep trusting ⟨n, deployedBooks⟩ (.tick (Duration.fromSecs 3)) =
      ⟨{ n with now := n.now + Duration.fromSecs 3 }, deployedBooks⟩ := rfl
  have hticked : ({ n with now := n.now + Duration.fromSecs 3 } : Node Pods).core =
      { bidNode.core with
        nonceStore := (checkNonce bidNode.nonceStore 0 "b" nonceWindow "p").2
        now := Duration.fromSecs 3 } := by
    obtain ⟨hverifier, hstore, htasks, hnow⟩ := Core.mk.inj hcore
    simp only [Node.core, hverifier, hstore, htasks, hnow]
    rfl
  obtain ⟨hact, hverifier, hnow⟩ := step_secondBidAction 3600 hticked (by decide)
    (by decide) (by decide)
  rw [Run.run_append, hrun, Run.run_cons, Run.run_cons, Run.run_nil, htick, booksStep_act hact,
    Books.record_reserve]
  exact committed_secondBid hverifier hnow

end Beemesh

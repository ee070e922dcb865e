import Beemesh.Node.Deployment
import Beemesh.Node.Holding
import Beemesh.Node.Reference

/-!
# Nodes that do not schedule

A machine that is started with scheduling disabled gets no runtime registry, and its resource
verifier is never told what the machine has. Scheduler requests it drops unread. The same requests
can come by gossipsub, where the handler does not ask whether the node schedules.

## Main definitions

* `ResourceVerifier.new`, `startMachine`: a machine, as it is started
* `Unscheduled`: what a machine that does not schedule keeps
* `AsksNothing`: a capacity request by gossipsub, for nothing

## Main results

* `Unscheduled.step`, `Unscheduled.host`: no run brings an engine, and without one nothing is run
* `unscheduled_acts`: what a machine that does not schedule does, over every run
-/

namespace Beemesh

variable {H : Type} {P : NodePlatform}

/-! ## The start of a machine -/

/-- What a verifier has before it is told. -/
def SystemResources.nothing : SystemResources := ⟨0, 0, 0, 0, 0, 0, 0, 0⟩

def ResourceVerifier.new : ResourceVerifier := ⟨.nothing, ∅⟩

/-- A machine before anything runs on it. -/
def newNode (localPeer : String) (schedulingDisabled : Bool) (signingPubkey : Bytes) (host : H) :
    Node H where
  localPeer := localPeer
  schedulingDisabled := schedulingDisabled
  signingPubkey := signingPubkey
  verifier := .new
  nonceStore := ∅
  manifestOwners := ∅
  registry := none
  localProviders := none
  pendingQueries := ∅
  deleteTasks := []
  host := host
  now := 0

/-- `start_machine`, on the engines and the amounts that `initialize_workload_manager` finds. Where
scheduling is disabled it looks for none. -/
def startMachine (localPeer : String) (disableScheduling : Bool) (signingPubkey : Bytes) (host : H)
    (registry : RuntimeRegistry H) (totals : SystemResources) : Node H :=
  let n := newNode localPeer disableScheduling signingPubkey host
  if disableScheduling then n else initializeWorkloadManager n registry totals

/-! ## Without engines -/

/-- Without a registry nothing is deployed, whatever engine is asked for. -/
theorem processManifestDeployment_of_no_registry {n : Node H} (hregistry : n.registry = none)
    (req : ApplyRequest) (manifestJson : String) (ownerPubkey : Bytes) :
    let x := processManifestDeployment P n req manifestJson ownerPubkey
    x.2.host = n.host ∧ ∃ e, x.1 = .error e := by
  intro x
  have howner : (n.recordOwner (req.manifestId.getD "unknown") ownerPubkey).registry = none := by
    rw [recordOwner_registry, hregistry]
  simp only [x, processManifestDeployment_eq]
  cases P.decryptManifestContent manifestJson with
  | error e => exact ⟨rfl, e, rfl⟩
  | ok plain =>
    simp only [deployManifest, howner]
    cases P.modifyManifestReplicas plain with
    | error e => exact ⟨recordOwner_host _ _ _, e, rfl⟩
    | ok content =>
      dsimp only
      cases selectRuntimeEngine (P.runtimeEngineAnnotation content) none
          (n.recordOwner (req.manifestId.getD "unknown") ownerPubkey).host with
      | error e => exact ⟨recordOwner_host _ _ _, e, rfl⟩
      | ok engineName => exact ⟨recordOwner_host _ _ _, _, rfl⟩

/-- Without a registry nothing is removed. -/
theorem removeWorkloadsByManifestId_of_no_registry {n : Node H} (hregistry : n.registry = none)
    (manifestId : String) :
    removeWorkloadsByManifestId n manifestId = (.error "Runtime registry not initialized", n) := by
  rw [removeWorkloadsByManifestId, hregistry]

/-- A verifier that was never told of anything has room for nothing else. -/
theorem hasRoom_iff_of_nothing {v : ResourceVerifier} (h : v.systemResources = .nothing)
    (now : Instant) (req : CapacityRequest) :
    v.hasRoom now req = true ↔
      req.cpuMilli = 0 ∧ req.memoryBytes = 0 ∧ req.storageBytes = 0 := by
  have havailable (r : Resource) : SystemResources.nothing.available.toNat r = 0 := by
    cases r <;> rfl
  -- At least one replica is asked for.
  have hreplicas : 0 < req.resources.replicas.toNat := by
    change 0 < (if req.replicas < 1 then (1 : U32) else req.replicas).toNat
    split_ifs with hnone
    · decide
    · exact BitVec.le_def.mp (BitVec.not_lt.mp hnone)
  have htotal (r : Resource) (hmax : 0 < r.maxWord) :
      req.resources.totals.toNat r = 0 ↔ req.resources.exact r = 0 := by
    rw [ResourceRequest.toNat_totals]
    omega
  have hword {w : ℕ} (x : BitVec w) : x.toNat * req.resources.replicas.toNat = 0 ↔ x = 0 := by
    rw [Nat.mul_eq_zero, or_iff_left hreplicas.ne', ← BitVec.toNat_inj]
    rfl
  rw [ResourceVerifier.hasRoom, verifyCapacity_hasCapacity_iff, h, checkReservable_eq_ok_iff]
  simp only [havailable, Nat.zero_sub, Nat.le_zero_eq, forall_resource]
  rw [htotal .cpu (by decide), htotal .memory (by decide), htotal .storage (by decide)]
  exact and_congr (hword _) (and_congr (hword _) (hword _))

/-! ## Machines that do not schedule -/

/-- What a machine that does not schedule keeps. -/
structure Unscheduled (n : Node H) : Prop where
  disabled : n.schedulingDisabled = true
  registry : n.registry = none
  resources : n.verifier.systemResources = .nothing

theorem unscheduled_startMachine (localPeer : String) (signingPubkey : Bytes) (host : H)
    (registry : RuntimeRegistry H) (totals : SystemResources) :
    Unscheduled (startMachine localPeer true signingPubkey host registry totals) :=
  ⟨rfl, rfl, rfl⟩

namespace Unscheduled

variable {n : Node H}

theorem step (h : Unscheduled n) (a : Action H) : Unscheduled (nodeStep P n a) := by
  obtain ⟨-, hdisabled, -, hregistry⟩ : _ ∧ _ ∧ _ ∧ _ := by
    simpa only [Node.fixed, Prod.mk.injEq] using step_fixed (P := P) n a
  exact ⟨hdisabled.trans h.disabled, hregistry.trans h.registry,
    (step_systemResources P n a).trans h.resources⟩

theorem processManifestDeployment_host (h : Unscheduled n) (req : ApplyRequest)
    (manifestJson : String) (ownerPubkey : Bytes) :
    (processManifestDeployment P n req manifestJson ownerPubkey).2.host = n.host :=
  (processManifestDeployment_of_no_registry h.registry req manifestJson ownerPubkey).1

theorem deploymentHandled_act (h : Unscheduled n) (manifestId : String) (req : ApplyRequest)
    (manifestJson : String) (ownerPubkey : Bytes) :
    (deploymentHandled manifestId
      (processManifestDeployment P n req manifestJson ownerPubkey)).act = none := by
  obtain ⟨-, e, he⟩ :=
    processManifestDeployment_of_no_registry (P := P) h.registry req manifestJson ownerPubkey
  cases hx : processManifestDeployment P n req manifestJson ownerPubkey with
  | mk result n' =>
    obtain rfl : result = .error e := (congrArg Prod.fst hx).symm.trans he
    rfl

theorem received (h : Unscheduled n) (handler : Handler) (peer : String) (bytes : Bytes) :
    Unscheduled (Beemesh.received P n handler peer bytes) := by
  rw [received_eq]
  exact ⟨h.disabled, h.registry, h.resources⟩

/-- An apply request runs nothing. -/
theorem applyRequest (h : Unscheduled n) (request ownerPubkey : Bytes) :
    let handled := Beemesh.applyRequest P n request ownerPubkey
    handled.node.host = n.host ∧ handled.act = none := by
  intro handled
  simp only [handled, Beemesh.applyRequest]
  split
  · exact ⟨rfl, rfl⟩
  · split
    · exact ⟨rfl, rfl⟩
    · next req _ _ manifestJson _ =>
      have hpruned : Unscheduled { n with
          verifier := (n.verifier.hasActiveReservationForManifest n.now
            (req.manifestId.getD "")).2 } := ⟨h.disabled, h.registry, h.resources⟩
      split_ifs
      · exact ⟨rfl, rfl⟩
      · rw [deploymentHandled_node, hpruned.processManifestDeployment_host]
        exact ⟨rfl, hpruned.deploymentHandled_act _ _ _ _⟩
      · exact ⟨rfl, rfl⟩

/-- A removal finds no engines. -/
theorem processDeleteRequest (h : Unscheduled n) (task : DeleteTask) :
    let handled := Beemesh.processDeleteRequest n task
    handled.node.host = n.host ∧
      ∀ act, handled.act = some act → act = .delete task.manifestId [] := by
  intro handled
  have hremove := removeWorkloadsByManifestId_of_no_registry h.registry task.manifestId
  simp only [handled, Beemesh.processDeleteRequest, hremove]
  cases verifyDeleteOwnership n task.manifestId task.envelopePubkey with
  | «match» => exact ⟨rfl, fun act hact => (Option.some.inj hact).symm⟩
  | mismatch =>
    cases task.force with
    | true => exact ⟨rfl, fun act hact => (Option.some.inj hact).symm⟩
    | false => exact ⟨rfl, by simp⟩
  | unknown => exact ⟨rfl, by simp⟩

end Unscheduled

/-- Nothing is run, and nothing removed. -/
structure RunsNothing (n : Node H) (handled : Handled H) : Prop where
  host : handled.node.host = n.host
  deploy : ∀ m w, handled.act ≠ some (.deploy m w)
  delete : ∀ m removed, handled.act = some (.delete m removed) → removed = []

/-- What has no effect runs nothing. -/
theorem RunsNothing.of_act_eq_none {n : Node H} {handled : Handled H}
    (hhost : handled.node.host = n.host) (hact : handled.act = none) : RunsNothing n handled :=
  ⟨hhost, by simp [hact], by simp [hact]⟩

/-! ### Grants -/

/-- **What is granted**: a capacity request with a manifest in its id, where there is room. -/
theorem answerCapacityRequest_act_iff {n : Node H} {req : CapacityRequest} {id m : String} :
    (answerCapacityRequest n req).act = some (.reserve id m) ↔
      req.requestId.getD "" = id ∧ extractManifestIdFromRequestId id = some m ∧
        n.verifier.hasRoom n.now req = true := by
  rw [answerCapacityRequest]
  cases hm : extractManifestIdFromRequestId (req.requestId.getD "") with
  | none =>
    refine iff_of_false (by simp) ?_
    rintro ⟨rfl, hm', -⟩
    cases hm.symm.trans hm'
  | some m' =>
    simp only [verifyCapacity_snd]
    have hroom : (n.verifier.verifyCapacity n.now req.resources).1.hasCapacity =
      n.verifier.hasRoom n.now req := rfl
    rw [hroom]
    split_ifs with hcheck
    · -- The room that the check has found is still there for the reservation.
      have hgrants : ((n.verifier.pruned n.now).reserveCapacity (.at n.now)
          (req.requestId.getD "") (some m') req.resources).1 = .ok () := by
        have hpruned : pruneExpiredReservations n.now (n.verifier.pruned n.now).reservations =
            pruneExpiredReservations n.now n.verifier.reservations := prune_prune le_rfl _
        have hcases := reserveCapacity_cases (n.verifier.pruned n.now) (.at n.now)
          (req.requestId.getD "") (some m') req.resources
        simp only [Readings.at, hpruned] at hcases
        obtain ⟨e, -, hcall⟩ | ⟨err, -, hrefuse, -⟩ | ⟨-, -, hcall⟩ := hcases
        · exact congrArg Prod.fst hcall
        · have hfits := (verifyCapacity_hasCapacity_iff _ _ _).mp (hroom.trans hcheck)
          cases hfits.symm.trans hrefuse
        · exact congrArg Prod.fst hcall
      cases hcall : (n.verifier.pruned n.now).reserveCapacity (.at n.now)
          (req.requestId.getD "") (some m') req.resources with
      | mk result verifier =>
        obtain rfl : result = .ok () := (congrArg Prod.fst hcall).symm.trans hgrants
        rw [ResourceVerifier.pruned] at hcall
        rw [hcall]
        simp only [Option.some.injEq, Act.reserve.injEq, hcheck, and_true]
        refine and_congr_right ?_
        rintro rfl
        rw [hm, Option.some.injEq]
    · exact iff_of_false (by simp) fun h => hcheck h.2.2

variable (P) in
/-- A capacity request by gossipsub that is signed, in time and for nothing. -/
def AsksNothing (n : Node H) (a : Action H) (id m : String) : Prop :=
  ∃ wallMs peer bytes parts req, a = .deliver .gossipsub wallMs peer bytes ∧
    verifiedParts P n .gossipsub peer bytes = some parts ∧
    P.rootAsCapacityRequest parts.payload = .ok req ∧ stale wallMs parts.timestampMs = false ∧
    req.requestId.getD "" = id ∧ extractManifestIdFromRequestId id = some m ∧
    req.cpuMilli = 0 ∧ req.memoryBytes = 0 ∧ req.storageBytes = 0

namespace Unscheduled

variable {n : Node H}

theorem answer_act_iff (h : Unscheduled n) {handler : Handler} {peer : String} {bytes : Bytes}
    {req : CapacityRequest} {id m : String} :
    (answerCapacityRequest (Beemesh.received P n handler peer bytes) req).act =
        some (.reserve id m) ↔
      req.requestId.getD "" = id ∧ extractManifestIdFromRequestId id = some m ∧
        req.cpuMilli = 0 ∧ req.memoryBytes = 0 ∧ req.storageBytes = 0 := by
  have hresources : (Beemesh.received P n handler peer bytes).verifier.systemResources =
      .nothing := (h.received handler peer bytes).resources
  rw [answerCapacityRequest_act_iff, hasRoom_iff_of_nothing hresources]

/-- A message runs nothing. -/
theorem dispatched_runsNothing (h : Unscheduled n) {handler : Handler} {wallMs : U64}
    {peer : String} {bytes : Bytes} {handled : Handled H}
    (hd : Dispatched P n wallMs peer bytes handler handled) : RunsNothing n handled := by
  have hhost (handler : Handler) : (Beemesh.received P n handler peer bytes).host = n.host := by
    rw [received_eq]
  have hforward (n' : Node H) (hn' : n'.host = n.host) (requestId payload : String) :
      RunsNothing n (notifyCapacityObservers n' requestId payload) := by
    refine ⟨?_, fun m w hact => ?_, fun m removed hact => ?_⟩
    · rw [notifyCapacityObservers_node, hn']
    · obtain ⟨observers, hact'⟩ := notifyCapacityObservers_act hact
      cases hact'
    · obtain ⟨observers, hact'⟩ := notifyCapacityObservers_act hact
      cases hact'
  cases hd with
  | quiet handler response => exact .of_act_eq_none (hhost handler) rfl
  | @answer _ hhandler _ hparts req hreq hfresh =>
    obtain ⟨verifier, hframe⟩ :=
      answerCapacityRequest_frame (Beemesh.received P n handler peer bytes) req
    refine ⟨?_, fun m w hact => ?_, fun m removed hact => ?_⟩
    · rw [hframe]
      exact hhost handler
    · obtain ⟨id, m', hact'⟩ := answerCapacityRequest_act hact
      cases hact'
    · obtain ⟨id, m', hact'⟩ := answerCapacityRequest_act hact
      cases hact'
  | forwardResponse hreply requestId payload => exact hforward _ (hhost _) requestId payload
  | forward hparts hreq hreply requestId payload => exact hforward _ (hhost _) requestId payload
  | @apply parts hparts =>
    obtain ⟨hsame, hnone⟩ := (h.received .apply peer bytes).applyRequest (P := P) parts.payload
      parts.pubkey
    exact .of_act_eq_none (hsame.trans (hhost .apply)) hnone
  | delete hparts hreq task htask response => exact .of_act_eq_none (hhost .delete) rfl

/-- **What is done by an action**: unless the world does, nothing is run. -/
theorem step_runsNothing (h : Unscheduled n) (a : Action H) (ha : ∀ host, a ≠ .world host) :
    RunsNothing n (Beemesh.step P n a) := by
  cases a with
  | tick d => exact .of_act_eq_none rfl rfl
  | deliver handler wallMs peer bytes =>
    exact h.dispatched_runsNothing (dispatch_dispatched P n handler wallMs peer bytes)
  | selfApply manifest =>
    rw [Beemesh.step]
    rcases processEnhancedSelfApplyRequest_cases P n manifest with hnone | ⟨req, json, hdeployed⟩
    · rw [hnone]
      exact .of_act_eq_none rfl rfl
    · rw [hdeployed]
      have hact := h.deploymentHandled_act (P := P) (req.manifestId.getD "unknown") req json
        n.signingPubkey
      refine .of_act_eq_none ?_ hact
      simp only [deploymentHandled_node, h.processManifestDeployment_host]
  | runDelete i =>
    simp only [Beemesh.step]
    split
    · exact .of_act_eq_none rfl rfl
    · next task _ =>
      have hless : Unscheduled { n with deleteTasks := n.deleteTasks.eraseIdx i } :=
        ⟨h.disabled, h.registry, h.resources⟩
      obtain ⟨hhost, hact⟩ := hless.processDeleteRequest task
      refine ⟨hhost, fun m w hdeploy => ?_, fun m removed hdelete => ?_⟩
      · cases hact _ hdeploy
      · exact (Act.delete.inj (hact _ hdelete)).2
  | localDelete manifestId =>
    simp only [Beemesh.step, removeWorkloadsByManifestId_of_no_registry h.registry]
    exact .of_act_eq_none rfl rfl
  | verify peer bytes => exact .of_act_eq_none rfl rfl
  | queries pending => exact .of_act_eq_none rfl rfl
  | world host => exact absurd rfl (ha host)

/-- **What is granted**: what asks for nothing, by gossipsub. -/
theorem step_reserve_iff (h : Unscheduled n) (a : Action H) (id m : String) :
    (Beemesh.step P n a).act = some (.reserve id m) ↔ AsksNothing P n a id m := by
  constructor
  · intro hact
    cases a with
    | deliver handler wallMs peer bytes =>
      have hd := dispatch_dispatched P n handler wallMs peer bytes
      change (dispatch P n handler wallMs peer bytes).act = _ at hact
      generalize dispatch P n handler wallMs peer bytes = handled at hd hact
      cases hd with
      | quiet | delete => cases hact
      | forwardResponse | forward =>
        obtain ⟨observers, hforward⟩ := notifyCapacityObservers_act hact
        cases hforward
      | apply =>
        obtain ⟨m', w, hdeploy⟩ := applyRequest_act hact
        cases hdeploy
      | answer hhandler hparts hreq hfresh =>
        obtain ⟨hid, hm, hzero⟩ := h.answer_act_iff.mp hact
        rcases hhandler with rfl | rfl
        · -- Scheduler requests are not verified, since they are not read.
          have hverifies := ((verifiedParts_eq_some_iff P).mp hparts).1
          simp [Handler.verifies, h.disabled] at hverifies
        · exact ⟨wallMs, peer, bytes, _, _, rfl, hparts, hreq, hfresh, hid, hm, hzero⟩
    | _ =>
      cases step_verifier P n _ with
      | keeps hnone => exact absurd hact (hnone id m)
      | grants req id' m' hasked => cases hasked
  · rintro ⟨wallMs, peer, bytes, parts, req, rfl, hparts, hreq, hfresh, hid, hm, hzero⟩
    simp only [Beemesh.step, dispatch, gossipsubMessage]
    rw [verifySignedMessage_of_verifies P .gossipsub rfl, hparts]
    simp only [hreq, hfresh, Bool.false_eq_true, if_false]
    exact h.answer_act_iff.mpr ⟨hid, hm, hzero⟩

end Unscheduled

/-- **Machines that do not schedule**: whatever happens to one, it never runs or removes a workload,
and no scheduler request is granted. By gossipsub it grants exactly what asks for nothing. -/
theorem unscheduled_acts (P : NodePlatform) (localPeer : String) (signingPubkey : Bytes) (host : H)
    (registry : RuntimeRegistry H) (totals : SystemResources) (acts : List (Action H))
    (a : Action H) :
    let n := Run.run (nodeStep P) (startMachine localPeer true signingPubkey host registry totals)
      acts
    ((∀ host, a ≠ .world host) → RunsNothing n (step P n a)) ∧
      ∀ id m, (step P n a).act = some (.reserve id m) ↔ AsksNothing P n a id m := by
  intro n
  have hn : Unscheduled n := Run.run_invariant (fun _ a hn => hn.step a) acts
    (unscheduled_startMachine localPeer signingPubkey host registry totals)
  exact ⟨hn.step_runsNothing a, hn.step_reserve_iff a⟩

/-- A bid for nothing is granted where nothing is scheduled. -/
example :
    (step trusting (startMachine "node" true [] (∅ : Pods) podmanRegistry fourCoreNode)
      (.deliver .gossipsub 0 "p" (capacityMessage (bid "m" 0) "a"))).act =
        some (.reserve "beemesh-free-capacity:m:1" "m") := by
  rw [step_capacityMessage (by decide) _]
  exact answerCapacityRequest_act_iff.mpr
    ⟨rfl, by decide, (hasRoom_iff_of_nothing rfl _ _).mpr ⟨rfl, rfl, rfl⟩⟩

end Beemesh

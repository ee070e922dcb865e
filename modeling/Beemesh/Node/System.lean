import Beemesh.Lib.Run
import Beemesh.Node.Handlers
import Beemesh.Resource.Accounting

/-!
# The node as a system

A node takes one action after the other: a message is delivered to a handler, a control message
applies a manifest locally, a spawned delete task runs, time passes, or something outside the
handlers happens. What an action can do to the verifier is said once, in `step_verifier`, and the
results on reservations rest on that.

## Main definitions

* `Handler`, `Action`, `dispatch`, `step`
* `Action.cause`: the message an action works on
* `Dispatched`: what a handler can do with a message
* `VerifierStep`: what an outcome can do to the verifier

## Main results

* `processManifestDeployment_frame`, `processDeleteRequest_frame`, `applyRequest_frame`,
  `answerCapacityRequest_frame`: what the handlers change
* `dispatch_dispatched`: the handlers, by cases
* `step_verifier`: an action grants one reservation, or changes no unexpired one
* `step_core`, `step_nonceStore`: what else an action changes
* `step_deploy`: a message deploys only under an active reservation
* `step_now`: only time passing moves the clock
-/

namespace Beemesh

/-! ## Actions -/

/-- Where a message is delivered. -/
inductive Handler
  | schedulerRequest
  | schedulerResponse
  | gossipsub
  | apply
  | delete
  deriving DecidableEq

/-- What happens to a node. -/
inductive Action (H : Type)
  | tick (d : Duration)
  | deliver (handler : Handler) (wallMs : U64) (peer : String) (bytes : Bytes)
  /-- An apply request sent to the node itself. -/
  | selfApply (manifest : Bytes)
  /-- The `i`-th spawned delete task runs. -/
  | runDelete (i : ℕ)
  /-- `handle_local_delete` of the REST interface. -/
  | localDelete (manifestId : String)
  /-- Another user of the nonce store verifies an envelope: the handshake, the REST interface. -/
  | verify (peer : String) (bytes : Bytes)
  /-- Capacity queries start or end. -/
  | queries (pending : Table String (List ℕ))
  /-- Something else changes the host. -/
  | world (host : H)

variable {H : Type} (P : NodePlatform)

def dispatch (n : Node H) (handler : Handler) (wallMs : U64) (peer : String) (bytes : Bytes) :
    Handled H :=
  match handler with
  | .schedulerRequest => schedulerRequest P n wallMs peer bytes
  | .schedulerResponse => schedulerResponse P n peer bytes
  | .gossipsub => gossipsubMessage P n wallMs peer bytes
  | .apply => handleApplyMessage P n peer bytes
  | .delete => deleteMessage P n peer bytes

def step (n : Node H) : Action H → Handled H
  | .tick d => { node := { n with now := n.now + d } }
  | .deliver handler wallMs peer bytes => dispatch P n handler wallMs peer bytes
  | .selfApply manifest => processEnhancedSelfApplyRequest P n manifest
  | .runDelete i =>
    match n.deleteTasks[i]? with
    | none => { node := n }
    | some task => processDeleteRequest { n with deleteTasks := n.deleteTasks.eraseIdx i } task
  | .localDelete manifestId =>
    match removeWorkloadsByManifestId n manifestId with
    | (.ok removed, n) => { node := n, act := some (.delete manifestId removed) }
    | (.error _, n) => { node := n }
  | .verify peer bytes => { node := (verifyEnvelopeAndCheckNonceForPeer P n bytes peer).2 }
  | .queries pending => { node := { n with pendingQueries := pending } }
  | .world host => { node := { n with host := host } }

/-- The message an action works on, or that spawned the task it runs. -/
def Action.cause (n : Node H) : Action H → Option Bytes
  | .deliver _ _ _ bytes => some bytes
  | .runDelete i => n.deleteTasks[i]?.map (·.request)
  | _ => none

/-! ## Frames -/

/-- The parts of a node that reservations and replay protection live in. -/
structure Core where
  verifier : ResourceVerifier
  nonceStore : NonceStore
  deleteTasks : List DeleteTask
  now : Instant

def Node.core (n : Node H) : Core := ⟨n.verifier, n.nonceStore, n.deleteTasks, n.now⟩

/-- A deployment changes the owners, the provider entries and the host. -/
theorem processManifestDeployment_frame (n : Node H) (req : ApplyRequest) (manifestJson : String)
    (ownerPubkey : Bytes) :
    ∃ owners providers host, (processManifestDeployment P n req manifestJson ownerPubkey).2 =
      { n with manifestOwners := owners, localProviders := providers, host := host } := by
  -- The node with its owner recorded, which all later steps start from.
  obtain ⟨owners, howner⟩ : ∃ owners, (if ownerPubkey = [] then n else { n with
      manifestOwners := n.manifestOwners.insert (req.manifestId.getD "unknown") ownerPubkey }) =
        { n with manifestOwners := owners } := by
    split_ifs
    · exact ⟨n.manifestOwners, rfl⟩
    · exact ⟨_, rfl⟩
  rw [processManifestDeployment]
  cases P.decryptManifestContent manifestJson with
  | error e => exact ⟨_, _, _, rfl⟩
  | ok content =>
    simp only [howner]
    cases P.modifyManifestReplicas content with
    | error e => exact ⟨_, _, _, rfl⟩
    | ok content =>
      dsimp only
      cases selectRuntimeEngine (P.runtimeEngineAnnotation content) n.registry n.host with
      | error e => exact ⟨_, _, _, rfl⟩
      | ok engineName =>
        cases n.registry with
        | none => exact ⟨_, _, _, rfl⟩
        | some registry =>
          dsimp only
          cases registry.getEngine engineName with
          | none => exact ⟨_, _, _, rfl⟩
          | some engine =>
            -- Only here does the host change.
            dsimp only
            cases engine.deployWorkload n.host (req.manifestId.getD "unknown") content
                (createDeploymentConfig req) with
            | mk result host =>
              cases result with
              | error e => exact ⟨_, _, _, rfl⟩
              | ok workload => exact ⟨_, _, _, rfl⟩

/-- A removal changes the owners, the provider entries and the host. -/
theorem removeWorkloadsByManifestId_frame (n : Node H) (manifestId : String) :
    ∃ owners providers host, (removeWorkloadsByManifestId n manifestId).2 =
      { n with manifestOwners := owners, localProviders := providers, host := host } := by
  unfold removeWorkloadsByManifestId
  split <;> exact ⟨_, _, _, rfl⟩

/-- A delete task is refused, or removes. -/
theorem processDeleteRequest_frame (n : Node H) (task : DeleteTask) :
    ∃ owners providers host, (processDeleteRequest n task).node =
      { n with manifestOwners := owners, localProviders := providers, host := host } := by
  have hremoves := removeWorkloadsByManifestId_frame n task.manifestId
  unfold processDeleteRequest
  cases hresult : removeWorkloadsByManifestId n task.manifestId with
  | mk result n' =>
    rw [hresult] at hremoves
    have hrefuses : ∃ owners providers host, n =
        { n with manifestOwners := owners, localProviders := providers, host := host } :=
      ⟨_, _, _, rfl⟩
    cases verifyDeleteOwnership n task.manifestId task.envelopePubkey with
    | «match» => cases result <;> exact hremoves
    | mismatch =>
      cases task.force with
      | true => cases result <;> exact hremoves
      | false => exact hrefuses
    | unknown => exact hrefuses

/-- A capacity request changes the verifier. -/
theorem answerCapacityRequest_frame (n : Node H) (req : CapacityRequest) :
    ∃ verifier, (answerCapacityRequest n req).node = { n with verifier := verifier } := by
  rw [answerCapacityRequest]
  split
  · exact ⟨_, rfl⟩
  · simp only
    split_ifs
    · split <;> exact ⟨_, rfl⟩
    · exact ⟨_, rfl⟩

/-- A deployment leaves the core. -/
theorem processManifestDeployment_core (n : Node H) (req : ApplyRequest) (manifestJson : String)
    (ownerPubkey : Bytes) :
    (processManifestDeployment P n req manifestJson ownerPubkey).2.core = n.core := by
  obtain ⟨owners, providers, host, hframe⟩ :=
    processManifestDeployment_frame P n req manifestJson ownerPubkey
  rw [hframe]
  rfl

/-- A removal leaves the core. -/
theorem removeWorkloadsByManifestId_core (n : Node H) (manifestId : String) :
    (removeWorkloadsByManifestId n manifestId).2.core = n.core := by
  obtain ⟨owners, providers, host, hframe⟩ := removeWorkloadsByManifestId_frame n manifestId
  rw [hframe]
  rfl

/-- The outcome of a deployment is at most a `deploy` of its manifest. -/
theorem deploymentHandled_act {manifestId : String} {x : Except String String × Node H} {act : Act}
    (h : (deploymentHandled manifestId x).act = some act) :
    ∃ workloadId, act = .deploy manifestId workloadId := by
  obtain ⟨result, n⟩ := x
  cases result with
  | ok workloadId => exact ⟨workloadId, (Option.some.inj h).symm⟩
  | error e => exact nomatch h

theorem deploymentHandled_node (manifestId : String) (x : Except String String × Node H) :
    (deploymentHandled manifestId x).node = x.2 := by
  obtain ⟨result, n⟩ := x
  cases result <;> rfl

/-- An apply request changes the verifier, and what a deployment changes. -/
theorem applyRequest_frame (n : Node H) (request ownerPubkey : Bytes) :
    ∃ verifier owners providers host, (applyRequest P n request ownerPubkey).node =
      { n with
        verifier := verifier, manifestOwners := owners, localProviders := providers, host := host }
      := by
  unfold applyRequest
  split
  · exact ⟨_, _, _, _, rfl⟩
  · split
    · exact ⟨_, _, _, _, rfl⟩
    · next req _ _ manifestJson _ =>
      simp only
      split_ifs
      · exact ⟨_, _, _, _, rfl⟩
      · rw [deploymentHandled_node]
        obtain ⟨owners, providers, host, hframe⟩ :=
          processManifestDeployment_frame P { n with
            verifier := (n.verifier.hasActiveReservationForManifest n.now
              (req.manifestId.getD "")).2 } req manifestJson ownerPubkey
        exact ⟨_, owners, providers, host, hframe⟩
      · exact ⟨_, _, _, _, rfl⟩

/-- **What a request of the node to itself does**: nothing, or the deployment that it asks for. -/
theorem processEnhancedSelfApplyRequest_cases (n : Node H) (manifest : Bytes) :
    processEnhancedSelfApplyRequest P n manifest = { node := n } ∨
      ∃ req manifestJson,
        processEnhancedSelfApplyRequest P n manifest =
          { deploymentHandled (req.manifestId.getD "unknown")
              (processManifestDeployment P n req manifestJson n.signingPubkey) with
            response := none } := by
  unfold processEnhancedSelfApplyRequest
  cases P.rootAsApplyRequest manifest with
  | error e => exact .inl rfl
  | ok req =>
    dsimp only
    cases req.manifestJson with
    | none => exact .inl rfl
    | some manifestJson => exact .inr ⟨req, manifestJson, rfl⟩

/-- A delete task leaves the core. -/
theorem processDeleteRequest_core (n : Node H) (task : DeleteTask) :
    (processDeleteRequest n task).node.core = n.core := by
  obtain ⟨owners, providers, host, hframe⟩ := processDeleteRequest_frame n task
  rw [hframe]
  rfl

/-- A delete task is at most a `delete` of its manifest. -/
theorem processDeleteRequest_act {n : Node H} {task : DeleteTask} {act : Act}
    (h : (processDeleteRequest n task).act = some act) :
    ∃ removed, act = .delete task.manifestId removed := by
  revert h
  unfold processDeleteRequest
  cases removeWorkloadsByManifestId n task.manifestId with
  | mk result n' =>
    cases verifyDeleteOwnership n task.manifestId task.envelopePubkey with
    | «match» => cases result <;> exact fun h => ⟨_, (Option.some.inj h).symm⟩
    | mismatch =>
      cases task.force with
      | true => cases result <;> exact fun h => ⟨_, (Option.some.inj h).symm⟩
      | false => exact fun h => nomatch h
    | unknown => exact fun h => nomatch h

/-! ## Messages -/

/-- The handler verifies what it is given. A node that does not schedule drops scheduler requests
unread. -/
def Handler.verifies (n : Node H) : Handler → Bool
  | .schedulerRequest => !n.schedulingDisabled
  | .schedulerResponse => false
  | .gossipsub | .apply | .delete => true

/-- The node once the handler has verified the message, or has left it unverified. -/
def received (n : Node H) (handler : Handler) (peer : String) (bytes : Bytes) : Node H :=
  if handler.verifies n then (verifySignedMessage P n bytes peer).2 else n

/-- What the handler has verified. -/
def verifiedParts (n : Node H) (handler : Handler) (peer : String) (bytes : Bytes) :
    Option VerifiedEnvelopeParts :=
  if handler.verifies n then (verifySignedMessage P n bytes peer).1 else none

/-- Verification changes the nonce store only. -/
theorem verifySignedMessage_snd (n : Node H) (bytes : Bytes) (peer : String) :
    (verifySignedMessage P n bytes peer).2 = { n with
      nonceStore :=
        (P.verifyFlatbufferEnvelopeForPeer n.nonceStore n.now bytes nonceWindow peer).2 } := by
  simp only [verifySignedMessage, verifyEnvelopeAndCheckNonceForPeer]
  cases (P.verifyFlatbufferEnvelopeForPeer n.nonceStore n.now bytes nonceWindow peer).1 <;> rfl

theorem verifySignedMessage_eq_some_iff {n : Node H} {bytes : Bytes} {peer : String}
    {parts : VerifiedEnvelopeParts} :
    (verifySignedMessage P n bytes peer).1 = some parts ↔
      (P.verifyFlatbufferEnvelopeForPeer n.nonceStore n.now bytes nonceWindow peer).1 =
        .ok parts := by
  simp only [verifySignedMessage, verifyEnvelopeAndCheckNonceForPeer]
  cases (P.verifyFlatbufferEnvelopeForPeer n.nonceStore n.now bytes nonceWindow peer).1 <;> simp

theorem verifiedParts_eq_some_iff {n : Node H} {handler : Handler} {peer : String} {bytes : Bytes}
    {parts : VerifiedEnvelopeParts} :
    verifiedParts P n handler peer bytes = some parts ↔ handler.verifies n = true ∧
      (P.verifyFlatbufferEnvelopeForPeer n.nonceStore n.now bytes nonceWindow peer).1 =
        .ok parts := by
  rw [verifiedParts, ← verifySignedMessage_eq_some_iff]
  cases handler.verifies n <;> simp

/-- Receiving a message changes the nonce store only. -/
theorem received_eq (n : Node H) (handler : Handler) (peer : String) (bytes : Bytes) :
    received P n handler peer bytes = { n with
      nonceStore := (received P n handler peer bytes).nonceStore } := by
  unfold received
  split_ifs
  · rw [verifySignedMessage_snd]
  · rfl

@[simp] theorem received_verifier (n : Node H) (handler : Handler) (peer : String) (bytes : Bytes) :
    (received P n handler peer bytes).verifier = n.verifier := by
  rw [received_eq]

@[simp] theorem received_now (n : Node H) (handler : Handler) (peer : String) (bytes : Bytes) :
    (received P n handler peer bytes).now = n.now := by
  rw [received_eq]

@[simp] theorem received_deleteTasks (n : Node H) (handler : Handler) (peer : String)
    (bytes : Bytes) : (received P n handler peer bytes).deleteTasks = n.deleteTasks := by
  rw [received_eq]

/-- What a handler can do with a message: nothing but record its nonce, or answer a capacity
request, forward a reply, work on an apply request or spawn a delete task. All but the replies to
the node's own requests have passed verification. -/
inductive Dispatched (n : Node H) (wallMs : U64) (peer : String) (bytes : Bytes) :
    Handler → Handled H → Prop
  | quiet (handler : Handler) (response : Option Response) :
      Dispatched n wallMs peer bytes handler
        { node := received P n handler peer bytes, response := response }
  | answer {handler : Handler} (hhandler : handler = .schedulerRequest ∨ handler = .gossipsub)
      {parts : VerifiedEnvelopeParts} (hparts : verifiedParts P n handler peer bytes = some parts)
      {req : CapacityRequest} (hreq : P.rootAsCapacityRequest parts.payload = .ok req)
      (hfresh : stale wallMs parts.timestampMs = false) :
      Dispatched n wallMs peer bytes handler
        (answerCapacityRequest (received P n handler peer bytes) req)
  | forwardResponse {reply : CapacityReply} (hreply : P.rootAsCapacityReply bytes = .ok reply)
      (requestId payload : String) :
      Dispatched n wallMs peer bytes .schedulerResponse
        (notifyCapacityObservers (received P n .schedulerResponse peer bytes) requestId payload)
  | forward {parts : VerifiedEnvelopeParts}
      (hparts : verifiedParts P n .gossipsub peer bytes = some parts) {err : String}
      (hreq : P.rootAsCapacityRequest parts.payload = .error err) {reply : CapacityReply}
      (hreply : P.rootAsCapacityReply parts.payload = .ok reply) (requestId payload : String) :
      Dispatched n wallMs peer bytes .gossipsub
        (notifyCapacityObservers (received P n .gossipsub peer bytes) requestId payload)
  | apply {parts : VerifiedEnvelopeParts}
      (hparts : verifiedParts P n .apply peer bytes = some parts) :
      Dispatched n wallMs peer bytes .apply
        (applyRequest P (received P n .apply peer bytes) parts.payload parts.pubkey)
  | delete {parts : VerifiedEnvelopeParts}
      (hparts : verifiedParts P n .delete peer bytes = some parts) {req : DeleteRequest}
      (hreq : P.rootAsDeleteRequest parts.payload = .ok req) (task : DeleteTask)
      (htask : task.request = bytes) (response : Option Response) :
      Dispatched n wallMs peer bytes .delete
        { node := { received P n .delete peer bytes with deleteTasks := n.deleteTasks ++ [task] }
          response := response }

theorem verifySignedMessage_of_verifies {n : Node H} (handler : Handler)
    (h : handler.verifies n = true) (peer : String) (bytes : Bytes) :
    verifySignedMessage P n bytes peer =
      (verifiedParts P n handler peer bytes, received P n handler peer bytes) := by
  rw [verifiedParts, received, if_pos h, if_pos h]

/-- The verification of the apply handler keeps the error, which it does not look at. -/
theorem verifyEnvelopeAndCheckNonceForPeer_eq (n : Node H) (bytes : Bytes) (peer : String) :
    (∃ parts, verifyEnvelopeAndCheckNonceForPeer P n bytes peer =
        (.ok parts, received P n .apply peer bytes) ∧
        verifiedParts P n .apply peer bytes = some parts) ∨
      ∃ e, verifyEnvelopeAndCheckNonceForPeer P n bytes peer =
        (.error e, received P n .apply peer bytes) := by
  simp only [verifiedParts, received, Handler.verifies, if_true, verifySignedMessage]
  obtain ⟨verdict, n'⟩ := verifyEnvelopeAndCheckNonceForPeer P n bytes peer
  cases verdict with
  | ok parts => exact .inl ⟨parts, rfl, rfl⟩
  | error e => exact .inr ⟨e, rfl⟩

/-- **The handlers, by cases.** -/
theorem dispatch_dispatched (n : Node H) (handler : Handler) (wallMs : U64) (peer : String)
    (bytes : Bytes) :
    Dispatched P n wallMs peer bytes handler (dispatch P n handler wallMs peer bytes) := by
  cases handler with
  | schedulerRequest =>
    simp only [dispatch, schedulerRequest]
    cases hdisabled : n.schedulingDisabled with
    | true =>
      -- Dropped unread: the node received nothing.
      have hn : received P n .schedulerRequest peer bytes = n := by
        simp [received, Handler.verifies, hdisabled]
      have hquiet : Dispatched P n wallMs peer bytes .schedulerRequest
          { node := received P n .schedulerRequest peer bytes } := .quiet _ none
      rwa [hn] at hquiet
    | false =>
      have hverifies : Handler.schedulerRequest.verifies n = true := by
        simp [Handler.verifies, hdisabled]
      rw [verifySignedMessage_of_verifies P .schedulerRequest hverifies]
      cases hparts : verifiedParts P n .schedulerRequest peer bytes with
      | none => exact .quiet _ _
      | some parts =>
        simp only [Bool.false_eq_true, if_false]
        cases hreq : P.rootAsCapacityRequest parts.payload with
        | error e => exact .quiet _ _
        | ok req =>
          cases hfresh : stale wallMs parts.timestampMs with
          | true => exact .quiet _ _
          | false => exact .answer (.inl rfl) hparts hreq hfresh
  | schedulerResponse =>
    simp only [dispatch, schedulerResponse]
    cases hreply : P.rootAsCapacityReply bytes with
    | error e => exact .quiet _ _
    | ok reply => exact .forwardResponse hreply _ _
  | gossipsub =>
    simp only [dispatch, gossipsubMessage]
    rw [verifySignedMessage_of_verifies P .gossipsub rfl]
    cases hparts : verifiedParts P n .gossipsub peer bytes with
    | none => exact .quiet _ _
    | some parts =>
      simp only
      cases hreq : P.rootAsCapacityRequest parts.payload with
      | error e =>
        simp only
        cases hreply : P.rootAsCapacityReply parts.payload with
        | error e => exact .quiet _ _
        | ok reply => exact .forward hparts hreq hreply _ _
      | ok req =>
        cases hfresh : stale wallMs parts.timestampMs with
        | true => exact .quiet _ _
        | false => exact .answer (.inr rfl) hparts hreq hfresh
  | apply =>
    simp only [dispatch, handleApplyMessage]
    obtain ⟨parts, hverdict, hparts⟩ | ⟨e, hverdict⟩ :=
      verifyEnvelopeAndCheckNonceForPeer_eq P n bytes peer
    · rw [hverdict]
      exact .apply hparts
    · rw [hverdict]
      exact .quiet _ _
  | delete =>
    simp only [dispatch, deleteMessage]
    rw [verifySignedMessage_of_verifies P .delete rfl]
    cases hparts : verifiedParts P n .delete peer bytes with
    | none => exact .quiet _ _
    | some parts =>
      simp only
      cases hreq : P.rootAsDeleteRequest parts.payload with
      | error e => exact .quiet _ _
      | ok req =>
        rw [received_deleteTasks]
        exact .delete hparts hreq _ rfl _


/-! ## The verifier -/

/-- The verifier with its expired reservations gone. -/
def ResourceVerifier.pruned (v : ResourceVerifier) (now : Instant) : ResourceVerifier :=
  { v with reservations := pruneExpiredReservations now v.reservations }

/-- The capacity request inside a message for the scheduler, once the message has verified. -/
def Action.asks (n : Node H) : Action H → Option CapacityRequest
  | .deliver handler _ peer bytes =>
    match handler, verifiedParts P n handler peer bytes with
    | .schedulerRequest, some parts | .gossipsub, some parts =>
      (P.rootAsCapacityRequest parts.payload).toOption
    | _, _ => none
  | _ => none

/-- The verifier's check has room for the request. -/
def ResourceVerifier.hasRoom (v : ResourceVerifier) (now : Instant) (req : CapacityRequest) :
    Bool :=
  (v.verifyCapacity now req.resources).1.hasCapacity

/-- What an outcome does to the verifier of a node that was asked `asked`: it grants that, under
the manifest of the request id, or at most drops expired reservations. -/
inductive VerifierStep (v : ResourceVerifier) (now : Instant) (asked : Option CapacityRequest)
    (h : Handled H) : Prop
  | keeps (hact : ∀ id m, h.act ≠ some (.reserve id m))
      (hverifier : h.node.verifier = v ∨ h.node.verifier = v.pruned now)
  | grants (req : CapacityRequest) (id m : String) (hasked : asked = some req)
      (hid : req.requestId.getD "" = id) (hm : extractManifestIdFromRequestId id = some m)
      (hact : h.act = some (.reserve id m)) (hroom : v.hasRoom now req = true)
      (hcall : (v.pruned now).reserveCapacity (.at now) id (some m) req.resources =
        (.ok (), h.node.verifier))

theorem answerCapacityRequest_verifier (n : Node H) (req : CapacityRequest) :
    VerifierStep n.verifier n.now (some req) (answerCapacityRequest n req) := by
  rw [answerCapacityRequest]
  simp only [verifyCapacity_snd]
  cases hm : extractManifestIdFromRequestId (req.requestId.getD "") with
  | none => exact .keeps (by simp) (.inl rfl)
  | some m =>
    simp only
    split_ifs with hroom
    · -- The check passed: the call grants, or finds the room gone and leaves what is unexpired.
      cases hcall : (n.verifier.pruned n.now).reserveCapacity (.at n.now) (req.requestId.getD "")
          (some m) req.resources with
      | mk result verifier =>
        have hcall' := hcall
        rw [ResourceVerifier.pruned] at hcall'
        rw [hcall']
        cases result with
        | ok u => exact .grants req _ m rfl rfl hm rfl hroom hcall
        | error e =>
          refine .keeps (by simp) (.inr ?_)
          rw [reserveCapacity_refused hcall]
          exact congrArg _ (prune_prune le_rfl _)
    · exact .keeps (by simp) (.inr rfl)

theorem notifyCapacityObservers_verifier (n : Node H) (requestId payload : String)
    (asked : Option CapacityRequest) :
    VerifierStep n.verifier n.now asked (notifyCapacityObservers n requestId payload) := by
  unfold notifyCapacityObservers
  split <;> exact .keeps (by simp) (.inl rfl)

theorem applyRequest_verifier (n : Node H) (request ownerPubkey : Bytes)
    (asked : Option CapacityRequest) :
    VerifierStep n.verifier n.now asked (applyRequest P n request ownerPubkey) := by
  unfold applyRequest
  split
  · exact .keeps (by simp) (.inl rfl)
  · split
    · exact .keeps (by simp) (.inl rfl)
    · next req _ _ manifestJson _ =>
      simp only
      split_ifs with hempty hreserved
      · exact .keeps (by simp) (.inl rfl)
      · -- The reservation check prunes, and the deployment leaves the verifier.
        refine .keeps (fun id m h => ?_) (.inr ?_)
        · obtain ⟨workloadId, hdeploy⟩ := deploymentHandled_act h
          exact nomatch hdeploy
        · rw [deploymentHandled_node]
          exact congrArg Core.verifier (processManifestDeployment_core P _ req manifestJson _)
      · exact .keeps (by simp) (.inr rfl)

/-- A verified capacity request is what its action asks for. -/
theorem asks_of_verified {n : Node H} {handler : Handler}
    (hhandler : handler = .schedulerRequest ∨ handler = .gossipsub) {wallMs : U64} {peer : String}
    {bytes : Bytes} {parts : VerifiedEnvelopeParts}
    (hparts : verifiedParts P n handler peer bytes = some parts) {req : CapacityRequest}
    (hreq : P.rootAsCapacityRequest parts.payload = .ok req) :
    (Action.deliver handler wallMs peer bytes).asks P n = some req := by
  -- Both handlers read the payload that the verifier returned.
  rcases hhandler with rfl | rfl <;> simp [Action.asks, hparts, hreq, Except.toOption]

theorem Dispatched.verifierStep {n : Node H} {handler : Handler} {wallMs : U64} {peer : String}
    {bytes : Bytes} {h : Handled H} (hd : Dispatched P n wallMs peer bytes handler h) :
    VerifierStep n.verifier n.now ((Action.deliver handler wallMs peer bytes).asks P n) h := by
  cases hd with
  | quiet handler response => exact .keeps (by simp) (.inl (received_verifier P n _ _ _))
  | answer hhandler hparts hreq hfresh =>
    rw [asks_of_verified P hhandler hparts hreq]
    simpa using answerCapacityRequest_verifier (received P n handler peer bytes) _
  | forwardResponse hreply requestId payload =>
    simpa using notifyCapacityObservers_verifier (received P n _ peer bytes) requestId payload _
  | forward hparts hreq hreply requestId payload =>
    simpa using notifyCapacityObservers_verifier (received P n _ peer bytes) requestId payload _
  | apply hparts => simpa using applyRequest_verifier P (received P n _ peer bytes) _ _ _
  | delete hparts hreq task htask response =>
    exact .keeps (by simp) (.inl (received_verifier P n _ _ _))

/-- **What an action does to the verifier.** -/
theorem step_verifier (n : Node H) (a : Action H) :
    VerifierStep n.verifier n.now (a.asks P n) (step P n a) := by
  cases a with
  | tick d => exact .keeps (by simp [step]) (.inl rfl)
  | deliver handler wallMs peer bytes =>
    exact (dispatch_dispatched P n handler wallMs peer bytes).verifierStep
  | verify peer bytes => exact .keeps (by simp [step]) (.inl rfl)
  | queries pending => exact .keeps (by simp [step]) (.inl rfl)
  | world host => exact .keeps (by simp [step]) (.inl rfl)
  | selfApply manifest =>
    rw [step]
    rcases processEnhancedSelfApplyRequest_cases P n manifest with hnone | ⟨req, json, hdeployed⟩
    · rw [hnone]
      exact .keeps (by simp) (.inl rfl)
    · rw [hdeployed]
      refine .keeps (fun id m h => ?_) (.inl ?_)
      · obtain ⟨workloadId, hdeploy⟩ := deploymentHandled_act h
        exact nomatch hdeploy
      · simp only [deploymentHandled_node]
        exact congrArg Core.verifier (processManifestDeployment_core P n _ _ _)
  | runDelete i =>
    simp only [step]
    split
    · exact .keeps (by simp) (.inl rfl)
    · next task _ =>
      refine .keeps (fun id m h => ?_) (.inl (congrArg Core.verifier
        (processDeleteRequest_core { n with deleteTasks := n.deleteTasks.eraseIdx i } task)))
      obtain ⟨removed, hdelete⟩ := processDeleteRequest_act h
      exact nomatch hdelete
  | localDelete manifestId =>
    have hcore := removeWorkloadsByManifestId_core n manifestId
    cases hresult : removeWorkloadsByManifestId n manifestId with
    | mk result n' =>
      rw [hresult] at hcore
      simp only [step, hresult]
      cases result <;> exact .keeps (by simp) (.inl (congrArg Core.verifier hcore))

/-- No action changes what the node has: it is set when the workload manager starts. -/
theorem step_systemResources (n : Node H) (a : Action H) :
    (step P n a).node.verifier.systemResources = n.verifier.systemResources := by
  cases step_verifier P n a with
  | keeps hact hverifier =>
    rcases hverifier with hverifier | hverifier <;> rw [hverifier]
    rfl
  | grants req id m hasked hid hm hact hroom hcall =>
    exact (reserveCapacity_systemResources hcall).trans rfl

/-! ## The clock, the nonces and the delete tasks -/

/-- What a handler leaves besides the verifier: the time, the nonces as verification left them, and
the delete tasks, but for one that it spawned. -/
structure Delivered (n : Node H) (handler : Handler) (peer : String) (bytes : Bytes)
    (h : Handled H) : Prop where
  now : h.node.now = n.now
  nonceStore : h.node.nonceStore = (received P n handler peer bytes).nonceStore
  deleteTasks : h.node.deleteTasks = n.deleteTasks ∨
    h.act = none ∧ ∃ task, task.request = bytes ∧ h.node.deleteTasks = n.deleteTasks ++ [task]

theorem Delivered.of_core {n : Node H} {handler : Handler} {peer : String} {bytes : Bytes}
    {h : Handled H} {v : ResourceVerifier}
    (hcore : h.node.core = { (received P n handler peer bytes).core with verifier := v }) :
    Delivered P n handler peer bytes h where
  now := (congrArg Core.now hcore).trans (received_now P n _ _ _)
  nonceStore := congrArg Core.nonceStore hcore
  deleteTasks := .inl ((congrArg Core.deleteTasks hcore).trans (received_deleteTasks P n _ _ _))

theorem notifyCapacityObservers_node (n : Node H) (requestId payload : String) :
    (notifyCapacityObservers n requestId payload).node = n := by
  unfold notifyCapacityObservers
  split <;> rfl

theorem Dispatched.delivered {n : Node H} {handler : Handler} {wallMs : U64} {peer : String}
    {bytes : Bytes} {h : Handled H} (hd : Dispatched P n wallMs peer bytes handler h) :
    Delivered P n handler peer bytes h := by
  cases hd with
  | quiet handler response => exact .of_core P rfl
  | answer hhandler hparts hreq hfresh =>
    obtain ⟨verifier, hframe⟩ := answerCapacityRequest_frame (received P n handler peer bytes) _
    exact .of_core P (v := verifier) (congrArg Node.core hframe)
  | forwardResponse hreply requestId payload =>
    exact .of_core P (congrArg Node.core (notifyCapacityObservers_node _ requestId payload))
  | forward hparts hreq hreply requestId payload =>
    exact .of_core P (congrArg Node.core (notifyCapacityObservers_node _ requestId payload))
  | apply hparts =>
    obtain ⟨verifier, owners, providers, host, hframe⟩ :=
      applyRequest_frame P (received P n .apply peer bytes) _ _
    exact .of_core P (v := verifier) (congrArg Node.core hframe)
  | delete hparts hreq task htask response =>
    exact ⟨received_now P n _ _ _, rfl, .inr ⟨rfl, task, htask, rfl⟩⟩

/-- How far an action moves the clock. -/
def Action.elapsed : Action H → Duration
  | .tick d => d
  | _ => 0

/-- An action that is no delivery changes the core only in what it is about. -/
theorem step_core (n : Node H) (a : Action H)
    (ha : ∀ handler wallMs peer bytes, a ≠ .deliver handler wallMs peer bytes) :
    (step P n a).node.core = match a with
      | .tick d => { n.core with now := n.now + d }
      | .runDelete i => { n.core with deleteTasks := n.deleteTasks.eraseIdx i }
      | .verify peer bytes => { n.core with
          nonceStore :=
            (P.verifyFlatbufferEnvelopeForPeer n.nonceStore n.now bytes nonceWindow peer).2 }
      | _ => n.core := by
  cases a with
  | deliver handler wallMs peer bytes => exact absurd rfl (ha _ _ _ _)
  | tick d => rfl
  | verify peer bytes => rfl
  | queries pending => rfl
  | world host => rfl
  | selfApply manifest =>
    rw [step]
    rcases processEnhancedSelfApplyRequest_cases P n manifest with hnone | ⟨req, json, hdeployed⟩
    · rw [hnone]
    · rw [hdeployed]
      simp only [deploymentHandled_node, processManifestDeployment_core]
  | runDelete i =>
    simp only [step]
    split
    -- No such task: nothing is erased.
    · next hnone =>
      rw [List.eraseIdx_of_length_le (List.getElem?_eq_none_iff.mp hnone)]
      rfl
    · exact processDeleteRequest_core _ _
  | localDelete manifestId =>
    have hcore := removeWorkloadsByManifestId_core n manifestId
    simp only [step]
    split <;> next hresult => rwa [hresult] at hcore

/-- Only time passing moves the clock. -/
theorem step_now (n : Node H) (a : Action H) : (step P n a).node.now = n.now + a.elapsed := by
  by_cases ha : ∃ handler wallMs peer bytes, a = .deliver handler wallMs peer bytes
  · obtain ⟨handler, wallMs, peer, bytes, rfl⟩ := ha
    exact (dispatch_dispatched P n handler wallMs peer bytes).delivered.now
  · push Not at ha
    have hcore := congrArg Core.now (step_core P n a ha)
    cases a <;> exact hcore

/-- The nonce store is as it was, or a message was verified on it. -/
theorem step_nonceStore (n : Node H) (a : Action H) :
    (step P n a).node.nonceStore = n.nonceStore ∨ ∃ bytes peer,
      (step P n a).node.nonceStore =
        (P.verifyFlatbufferEnvelopeForPeer n.nonceStore n.now bytes nonceWindow peer).2 := by
  by_cases ha : ∃ handler wallMs peer bytes, a = .deliver handler wallMs peer bytes
  · obtain ⟨handler, wallMs, peer, bytes, rfl⟩ := ha
    have hstore := (dispatch_dispatched P n handler wallMs peer bytes).delivered.nonceStore
    rw [received] at hstore
    split_ifs at hstore
    · rw [verifySignedMessage_snd] at hstore
      exact .inr ⟨bytes, peer, hstore⟩
    · exact .inl hstore
  · push Not at ha
    have hstore := congrArg Core.nonceStore (step_core P n a ha)
    cases a with
    | verify peer bytes => exact .inr ⟨bytes, peer, rfl⟩
    | _ => exact .inl hstore

/-! ## Deployments -/

theorem answerCapacityRequest_act {n : Node H} {req : CapacityRequest} {act : Act}
    (h : (answerCapacityRequest n req).act = some act) : ∃ id m, act = .reserve id m := by
  rw [answerCapacityRequest] at h
  split at h
  · exact nomatch h
  · simp only at h
    split_ifs at h
    · split at h
      · exact ⟨_, _, (Option.some.inj h).symm⟩
      · exact nomatch h

theorem notifyCapacityObservers_act {n : Node H} {requestId payload : String} {act : Act}
    (h : (notifyCapacityObservers n requestId payload).act = some act) :
    ∃ observers, act = .forward requestId payload observers := by
  rw [notifyCapacityObservers] at h
  split at h
  · exact ⟨_, (Option.some.inj h).symm⟩
  · exact nomatch h

theorem applyRequest_deploy {n : Node H} {request ownerPubkey : Bytes} {m w : String}
    (h : (applyRequest P n request ownerPubkey).act = some (.deploy m w)) :
    (n.verifier.hasActiveReservationForManifest n.now m).1 = true := by
  rw [applyRequest] at h
  split at h
  · exact nomatch h
  · split at h
    · exact nomatch h
    · simp only at h
      split_ifs at h with hempty hreserved
      obtain ⟨workloadId, hdeploy⟩ := deploymentHandled_act h
      obtain ⟨rfl, -⟩ := Act.deploy.inj hdeploy
      exact hreserved

theorem Dispatched.deploy {n : Node H} {handler : Handler} {wallMs : U64} {peer : String}
    {bytes : Bytes} {h : Handled H} (hd : Dispatched P n wallMs peer bytes handler h) {m w : String}
    (hact : h.act = some (.deploy m w)) :
    (n.verifier.hasActiveReservationForManifest n.now m).1 = true := by
  cases hd with
  | quiet handler response => exact nomatch hact
  | answer hhandler hparts hreq hfresh =>
    obtain ⟨id, m, hreserve⟩ := answerCapacityRequest_act hact
    exact nomatch hreserve
  | forwardResponse hreply requestId payload =>
    obtain ⟨observers, hforward⟩ := notifyCapacityObservers_act hact
    exact nomatch hforward
  | forward hparts hreq hreply requestId payload =>
    obtain ⟨observers, hforward⟩ := notifyCapacityObservers_act hact
    exact nomatch hforward
  | apply hparts => simpa using applyRequest_deploy P hact
  | delete hparts hreq task htask response => exact nomatch hact

/-- **A message deploys only under a reservation**, active when it is handled. -/
theorem step_deploy {n : Node H} {a : Action H} {bytes : Bytes} (hcause : a.cause n = some bytes)
    {m w : String} (hact : (step P n a).act = some (.deploy m w)) :
    (n.verifier.hasActiveReservationForManifest n.now m).1 = true := by
  cases a with
  | deliver handler wallMs peer bytes =>
    exact (dispatch_dispatched P n handler wallMs peer bytes).deploy P hact
  | runDelete i =>
    -- A delete task only deletes.
    simp only [step] at hact
    split at hact
    · exact nomatch hact
    · obtain ⟨removed, hdelete⟩ := processDeleteRequest_act hact
      exact nomatch hdelete
  | _ => exact nomatch hcause

end Beemesh

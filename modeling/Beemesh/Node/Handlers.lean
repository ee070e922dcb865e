import Beemesh.Node.Messages

/-!
# The handlers of a node

One node: its verifier, nonce store, owner map, engines, provider entries, waiting queries and
spawned delete tasks, and the handlers of its event loop. Each handler returns the node it leaves,
what it sends back and what it did: reserve, deploy, delete or forward. A handler runs at one
instant of the monotonic clock; the wall clock is an argument, since it can be anything.

## Main definitions

* `Node`, `Act`, `Handled`
* `answerCapacityRequest`, `schedulerRequest`, `schedulerResponse`, `gossipsubMessage`
* `processManifestDeployment`, `handleApplyMessage`, `processEnhancedSelfApplyRequest`
* `deleteMessage`, `processDeleteRequest`, `removeWorkloadsByManifestId`
* `initializeWorkloadManager`
-/

namespace Beemesh

/-! ## The node -/

/-- A spawned delete task. Of the request it was spawned for it keeps the bytes, which it does not
read. -/
structure DeleteTask where
  manifestId : String
  operationId : String
  force : Bool
  envelopePubkey : Bytes
  request : Bytes

/-- The state of a node. -/
structure Node (H : Type) where
  localPeer : String
  schedulingDisabled : Bool
  /-- The public half of the default signing key, empty when there is none. -/
  signingPubkey : Bytes
  verifier : ResourceVerifier
  nonceStore : NonceStore
  manifestOwners : Table String Bytes
  registry : Option (RuntimeRegistry H)
  /-- The provider manager's local entries, with their metadata. -/
  localProviders : Option (Table String (Table String String))
  /-- The observers waiting for replies, by request id. -/
  pendingQueries : Table String (List ℕ)
  deleteTasks : List DeleteTask
  host : H
  now : Instant

/-- What a handler did with its message. -/
inductive Act
  | reserve (requestId manifestId : String)
  | deploy (manifestId workloadId : String)
  | delete (manifestId : String) (removed : List String)
  | forward (requestId payload : String) (observers : List ℕ)
  deriving DecidableEq

/-- The outcome of a handler. -/
structure Handled (H : Type) where
  node : Node H
  response : Option Response := none
  act : Option Act := none

variable {H : Type} (P : NodePlatform)

/-! ## Verification -/

def requireSignedMessages : Bool := true

/-- The nonce window of every handler. -/
def nonceWindow : Duration := Duration.fromSecs 300

/-- `verify_envelope_and_check_nonce_for_peer`. -/
def verifyEnvelopeAndCheckNonceForPeer (n : Node H) (bytes : Bytes) (peer : String) :
    Except AnyhowError VerifiedEnvelopeParts × Node H :=
  let verdict := P.verifyFlatbufferEnvelopeForPeer n.nonceStore n.now bytes nonceWindow peer
  (verdict.1, { n with nonceStore := verdict.2 })

/-- `verify_signed_message`. -/
def verifySignedMessage (n : Node H) (bytes : Bytes) (peer : String) :
    Option VerifiedEnvelopeParts × Node H :=
  match verifyEnvelopeAndCheckNonceForPeer P n bytes peer with
  | (.ok parts, n) => (some parts, n)
  | (.error _, n) => (none, n)

/-! ## Capacity requests -/

def freeCapacityTimeoutMs : U64 := 500

/-- The capacity request was signed too long ago by the wall clock. A timestamp in the future has
age zero. -/
def stale (wallMs timestampMs : U64) : Bool :=
  freeCapacityTimeoutMs < wallMs.saturatingSub timestampMs

/-- What both handlers of capacity requests do with one that is not stale: check, reserve and
reply. -/
def answerCapacityRequest (n : Node H) (req : CapacityRequest) : Handled H :=
  let requestId := req.requestId.getD ""
  match extractManifestIdFromRequestId requestId with
  | none => { node := n }
  | some manifestId =>
    let (check, verifier) := n.verifier.verifyCapacity n.now req.resources
    if check.hasCapacity then
      match verifier.reserveCapacity (.at n.now) requestId (some manifestId) req.resources with
      | (.ok (), verifier) =>
        { node := { n with verifier := verifier }
          response := some (.capacityReply
            { cpuMilli := check.availableCpuMilli
              memoryBytes := check.availableMemoryBytes
              storageBytes := check.availableStorageBytes
              requestId := requestId
              responderPeer := n.localPeer })
          act := some (.reserve requestId manifestId) }
      -- The room went between the check and the reservation: no reply is sent.
      | (.error _, verifier) => { node := { n with verifier := verifier } }
    else { node := { n with verifier := verifier } }

/-- `notify_capacity_observers`. -/
def notifyCapacityObservers (n : Node H) (requestId payload : String) : Handled H :=
  match n.pendingQueries.lookup requestId with
  | some observers => { node := n, act := some (.forward requestId payload observers) }
  | none => { node := n }

/-- `scheduler_message` on a request. -/
def schedulerRequest (n : Node H) (wallMs : U64) (peer : String) (request : Bytes) : Handled H :=
  if n.schedulingDisabled then { node := n }
  else
    -- The nonce is spent from here on, also when the request turns out stale.
    match verifySignedMessage P n request peer with
    | (none, n) => { node := n }
    | (some verified, n) =>
      match P.rootAsCapacityRequest verified.payload with
      | .ok req =>
        if stale wallMs verified.timestampMs then { node := n } else answerCapacityRequest n req
      | .error _ => { node := n }

/-- `scheduler_message` on a response, which is not verified. -/
def schedulerResponse (n : Node H) (peer : String) (response : Bytes) : Handled H :=
  match P.rootAsCapacityReply response with
  | .ok reply =>
    notifyCapacityObservers n (reply.requestId.getD "") (peer ++ ":" ++ reply.kemPubkey.getD "")
  | .error _ => { node := n }

/-- `gossipsub_message`. -/
def gossipsubMessage (n : Node H) (wallMs : U64) (peer : String) (data : Bytes) : Handled H :=
  match verifySignedMessage P n data peer with
  | (none, n) => { node := n }
  | (some verified, n) =>
    match P.rootAsCapacityRequest verified.payload with
    | .ok req =>
      if stale wallMs verified.timestampMs then { node := n } else answerCapacityRequest n req
    -- Not a request, so it may be a reply to one of the node's own.
    | .error _ =>
      match P.rootAsCapacityReply verified.payload with
      | .ok reply => notifyCapacityObservers n (reply.requestId.getD "") peer
      | .error _ => { node := n }

/-! ## Apply requests -/

/-- `process_manifest_deployment`: the id of the workload, or why there is none. The owner is
recorded before anything can fail but the decryption. -/
def processManifestDeployment (n : Node H) (req : ApplyRequest) (manifestJson : String)
    (ownerPubkey : Bytes) : Except String String × Node H :=
  match P.decryptManifestContent manifestJson with
  | .error e => (.error e, n)
  | .ok content =>
    -- A self-apply can come without an id; an apply request cannot.
    let manifestId := req.manifestId.getD "unknown"
    let n := if ownerPubkey = [] then n
      else { n with manifestOwners := n.manifestOwners.insert manifestId ownerPubkey }
    match P.modifyManifestReplicas content with
    | .error e => (.error e, n)
    | .ok content =>
      match selectRuntimeEngine (P.runtimeEngineAnnotation content) n.registry n.host with
      | .error e => (.error e, n)
      | .ok engineName =>
        match n.registry with
        | none => (.error "Runtime registry not initialized", n)
        | some registry =>
          match registry.getEngine engineName with
          | none => (.error s!"Runtime engine '{engineName}' not available", n)
          | some engine =>
            match engine.deployWorkload n.host manifestId content (createDeploymentConfig req) with
            | (.error e, host) => (.error e, { n with host := host })
            | (.ok workload, host) =>
              -- The metadata the node announces: of the workload it keeps the id only.
              let metadata : Table String String :=
                ((∅ : Table String String).insert "runtime_engine" engineName
                  |>.insert "workload_id" workload.id).insert "node_type" "beemesh-machine"
              (.ok workload.id, { n with
                host := host
                localProviders := n.localProviders.map (·.insert manifestId metadata) })

/-- The outcome of a deployment, as an apply response and an act. -/
def deploymentHandled (manifestId : String) : Except String String × Node H → Handled H
  | (.ok workloadId, n) =>
    { node := n
      response := some (.applyResponse true workloadId "workload deployed successfully")
      act := some (.deploy manifestId workloadId) }
  | (.error e, n) =>
    { node := n
      response := some (.applyResponse false "unknown" ("deployment failed: " ++ e)) }

/-- The apply handler once the envelope is off. -/
def applyRequest (n : Node H) (request ownerPubkey : Bytes) : Handled H :=
  let refuse (n : Node H) (operationId message : String) : Handled H :=
    { node := n, response := some (.applyResponse false operationId message) }
  match P.rootAsApplyRequest request with
  | .error _ => refuse n "unknown" "invalid apply request format"
  | .ok req =>
    match req.manifestJson with
    | none => refuse n "unknown" "missing manifest JSON"
    | some manifestJson =>
      let manifestId := req.manifestId.getD ""
      if manifestId = "" then refuse n "unknown" "missing manifest id"
      else
        -- Asking drops the expired reservations, and takes none that is held.
        let (reserved, verifier) := n.verifier.hasActiveReservationForManifest n.now manifestId
        let n := { n with verifier := verifier }
        if reserved then
          deploymentHandled manifestId (processManifestDeployment P n req manifestJson ownerPubkey)
        else refuse n manifestId "no active capacity reservation"

/-- `handle_apply_message_with_workload_manager` on a request. -/
def handleApplyMessage (n : Node H) (peer : String) (request : Bytes) : Handled H :=
  match verifyEnvelopeAndCheckNonceForPeer P n request peer with
  | (.ok parts, n) => applyRequest P n parts.payload parts.pubkey
  | (.error _, n) =>
    -- Signed messages are always required, so the other branch is dead.
    if requireSignedMessages then
      { node := n
        response := some (.applyResponse false "unknown" "unsigned or invalid envelope") }
    else applyRequest P n request []

/-- `process_enhanced_self_apply_request`: no envelope and no reservation is asked for. -/
def processEnhancedSelfApplyRequest (n : Node H) (manifest : Bytes) : Handled H :=
  match P.rootAsApplyRequest manifest with
  | .error _ => { node := n }
  | .ok req =>
    match req.manifestJson with
    | none => { node := n }
    | some manifestJson =>
      { deploymentHandled (req.manifestId.getD "unknown")
          (processManifestDeployment P n req manifestJson n.signingPubkey) with response := none }

/-! ## Delete requests -/

/-- `remove_workloads_by_manifest_id`: the ids removed. The owner is dropped when no engine
failed. -/
def removeWorkloadsByManifestId (n : Node H) (manifestId : String) :
    Except String (List String) × Node H :=
  match n.registry with
  | none => (.error "Runtime registry not initialized", n)
  | some registry =>
    let removal := removeWorkloads registry n.host manifestId
    -- Engines that failed are counted and passed over: the call succeeds.
    (.ok removal.removed, { n with
      host := removal.host
      localProviders := n.localProviders.map (·.erase manifestId)
      manifestOwners :=
        if removal.errors = [] then n.manifestOwners.erase manifestId else n.manifestOwners })

inductive OwnershipStatus
  | match
  | mismatch
  | unknown
  deriving DecidableEq

/-- `verify_delete_ownership`. -/
def verifyDeleteOwnership (n : Node H) (manifestId : String) (envelopePubkey : Bytes) :
    OwnershipStatus :=
  match n.manifestOwners.lookup manifestId with
  | none => .unknown
  | some owner =>
    if owner = [] then .unknown else if owner = envelopePubkey then .match else .mismatch

/-- `process_delete_request`: success, message and the ids removed. -/
def processDeleteRequest (n : Node H) (task : DeleteTask) : Handled H :=
  let reply (n : Node H) (success : Bool) (message : String) (removed : List String)
      (act : Option Act) : Handled H :=
    { node := n
      response := some (.deleteResponse success task.operationId message task.manifestId removed)
      act := act }
  let remove : Handled H :=
    match removeWorkloadsByManifestId n task.manifestId with
    | (.ok removed, n) =>
      let count := removed.length
      reply n true
        (if removed = [] then "no workloads found for manifest" else s!"removed {count} workloads")
        removed (some (.delete task.manifestId removed))
    | (.error e, n) =>
      reply n false ("failed to remove workloads: Failed to remove workloads: " ++ e) []
        (some (.delete task.manifestId []))
  match verifyDeleteOwnership n task.manifestId task.envelopePubkey with
  | .match => remove
  -- `force` overrides a known owner, never an unknown one.
  | .mismatch =>
    if task.force then remove else reply n false "ownership verification failed" [] none
  | .unknown => reply n false "ownership unknown for manifest on this node" [] none

/-- `delete_message` on a request: the deletion itself is left to a spawned task. -/
def deleteMessage (n : Node H) (peer : String) (request : Bytes) : Handled H :=
  match verifySignedMessage P n request peer with
  | (none, n) =>
    { node := n
      response :=
        some (.deleteResponse false "unknown" "unsigned or invalid envelope" "unknown" []) }
  | (some verified, n) =>
    match P.rootAsDeleteRequest verified.payload with
    | .error _ =>
      { node := n
        response := some
          (.deleteResponse false "unknown" "invalid delete request format" "unknown" []) }
    | .ok req =>
      -- Answered at once; the outcome of the task goes nowhere but its own reply.
      { node := { n with deleteTasks := n.deleteTasks ++
          [⟨req.manifestId.getD "", req.operationId.getD "", req.force, verified.pubkey, request⟩] }
        response := some (.deleteResponse true (req.operationId.getD "unknown")
          "delete request received and processing" (req.manifestId.getD "unknown") []) }

/-- `initialize_workload_manager` with scheduling enabled, on a host that reports `totals`. -/
def initializeWorkloadManager (n : Node H) (registry : RuntimeRegistry H)
    (totals : SystemResources) : Node H :=
  { n with
    registry := some registry
    localProviders := some ∅
    verifier := { n.verifier with
      systemResources := updateAllocatedResources (some registry) n.host totals } }

end Beemesh

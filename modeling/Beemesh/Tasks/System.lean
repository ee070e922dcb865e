import Beemesh.Rest.Control
import Beemesh.Tasks.Calls

/-!
# Applies and delete tasks, interleaved

A node with its calls in flight: the apply its event loop works on, the delete tasks it spawned, and
the REST interface beside them, whose steps are taken in any order.

## Main definitions

* `receiveApply`, `receiveSelfApply`: the apply call that a message starts
* `System`, `Event`, `System.step`: a node with its calls in flight
* `Happens`: what an event can do

## Main results

* `handleApplyMessage_node`: the apply handler is the call it starts
* `step_happens`: the events, by cases
-/

namespace Beemesh

variable {H : Type}

/-! ## Messages -/

/-- The apply that a message starts: what the handler does before `process_manifest_deployment`. -/
def receiveApply (P : NodePlatform) (n : Node H) (peer : String) (request : Bytes) :
    Node H × Option ApplyCall :=
  match verifyEnvelopeAndCheckNonceForPeer P n request peer with
  | (.error _, n) => (n, none)
  | (.ok parts, n) =>
    match P.rootAsApplyRequest parts.payload with
    | .error _ => (n, none)
    | .ok req =>
      match req.manifestJson with
      | none => (n, none)
      | some manifestJson =>
        let manifestId := req.manifestId.getD ""
        if manifestId = "" then (n, none)
        else
          let (reserved, verifier) := n.verifier.hasActiveReservationForManifest n.now manifestId
          let n := { n with verifier := verifier }
          if reserved then (n, some ⟨req, manifestJson, parts.pubkey, .decrypt⟩) else (n, none)

/-- The apply that a request of the node to itself starts. -/
def receiveSelfApply (P : NodePlatform) (n : Node H) (manifest : Bytes) : Option ApplyCall :=
  match P.rootAsApplyRequest manifest with
  | .error _ => none
  | .ok req =>
    req.manifestJson.map fun manifestJson => ⟨req, manifestJson, n.signingPubkey, .decrypt⟩

theorem receiveSelfApply_of_ok {P : NodePlatform} {n : Node H} {manifest : Bytes}
    {req : ApplyRequest} {manifestJson : String} (hread : P.rootAsApplyRequest manifest = .ok req)
    (hjson : req.manifestJson = some manifestJson) :
    receiveSelfApply P n manifest = some ⟨req, manifestJson, n.signingPubkey, .decrypt⟩ := by
  simp only [receiveSelfApply, hread, hjson, Option.map_some]

/-- The node that an apply leaves when nothing disturbs it. -/
def finishApply (P : NodePlatform) : Node H × Option ApplyCall → Node H
  | (n, none) => n
  | (n, some c) => (processManifestDeployment P n c.req c.manifestJson c.key).2

/-- The apply handler is the call it starts. -/
theorem handleApplyMessage_node (P : NodePlatform) (n : Node H) (peer : String) (request : Bytes) :
    (handleApplyMessage P n peer request).node = finishApply P (receiveApply P n peer request) := by
  unfold handleApplyMessage receiveApply
  cases verifyEnvelopeAndCheckNonceForPeer P n request peer with
  | mk verdict n =>
    cases verdict with
    | error e => rfl
    | ok parts =>
      simp only [applyRequest]
      cases P.rootAsApplyRequest parts.payload with
      | error e => rfl
      | ok req =>
        simp only
        cases hjson : req.manifestJson with
        | none => rfl
        | some manifestJson =>
          simp only
          split_ifs with hempty hreserved
          · rfl
          · exact deploymentHandled_node _ _
          · rfl

/-- So is the handler of a request of the node to itself. -/
theorem processEnhancedSelfApplyRequest_node (P : NodePlatform) (n : Node H) (manifest : Bytes) :
    (processEnhancedSelfApplyRequest P n manifest).node =
      finishApply P (n, receiveSelfApply P n manifest) := by
  unfold processEnhancedSelfApplyRequest receiveSelfApply
  cases P.rootAsApplyRequest manifest with
  | error e => rfl
  | ok req =>
    simp only
    cases hjson : req.manifestJson with
    | none => rfl
    | some manifestJson => exact deploymentHandled_node _ _

/-! ## The system -/

/-- A node with its calls in flight. -/
structure System (H : Type) where
  node : Node H
  apply : Option ApplyCall := none
  tasks : List (TaskCall H) := []

/-- What happens to a node and its calls. -/
inductive Event
  | applyMessage (peer : String) (bytes : Bytes)
  | selfApply (manifest : Bytes)
  | createTask (metadata : EnvelopeMetadata) (manifestId : String)
  | deleteMessage (peer : String) (bytes : Bytes)
  /-- The `i`-th spawned delete task gets to run. -/
  | beginTask (i : ℕ)
  | applyStep
  | taskStep (i : ℕ)

/-- The event loop is at work on an apply. -/
def System.busy (s : System H) : Bool :=
  match s.apply with
  | none => false
  | some c => match c.stage with
    | .done => false
    | _ => true

def System.step (P : NodePlatform) (s : System H) : Event → System H
  | .applyMessage peer bytes =>
    if s.busy then s
    else
      let (n, call) := receiveApply P s.node peer bytes
      { s with node := n, apply := call }
  | .selfApply manifest =>
    if s.busy then s else { s with apply := receiveSelfApply P s.node manifest }
  | .createTask metadata manifestId =>
    { s with node := createTask s.node metadata manifestId }
  | .deleteMessage peer bytes =>
    if s.busy then s else { s with node := (deleteMessage P s.node peer bytes).node }
  | .beginTask i =>
    match s.node.deleteTasks[i]? with
    | none => s
    | some task =>
      { s with
        node := { s.node with deleteTasks := s.node.deleteTasks.eraseIdx i }
        tasks := s.tasks ++ [{ task := task }] }
  | .applyStep =>
    match s.apply with
    | none => s
    | some c =>
      let (n, c') := applyStep P s.node c
      { s with node := n, apply := some c' }
  | .taskStep i =>
    match s.tasks[i]? with
    | none => s
    | some c =>
      let (n, c') := taskStep s.node c
      { s with node := n, tasks := s.tasks.set i c' }

/-! ## What an event does -/

/-- The stores that applies and deletions work on. -/
structure Stores (H : Type) where
  owners : Table String Bytes
  providers : Option (Table String (Table String String))
  registry : Option (RuntimeRegistry H)
  host : H

def Node.stores (n : Node H) : Stores H :=
  ⟨n.manifestOwners, n.localProviders, n.registry, n.host⟩

section Frames

variable {n n' : Node H} (h : n'.stores = n.stores)

include h

theorem owner_of_stores (m : String) : n'.owner m = n.owner m := by
  have howners : n'.manifestOwners = n.manifestOwners := congrArg Stores.owners h
  rw [Node.owner, Node.owner, howners]

theorem provider_of_stores (m : String) : n'.provider m = n.provider m := by
  rw [Node.provider, Node.provider,
    show n'.localProviders = n.localProviders from congrArg Stores.providers h]

theorem host_of_stores : n'.host = n.host := congrArg Stores.host h

end Frames

/-- Receiving an apply changes none of the stores, and starts a call at its beginning. -/
theorem receiveApply_spec (P : NodePlatform) (n : Node H) (peer : String) (request : Bytes) :
    (receiveApply P n peer request).1.stores = n.stores ∧
      ∀ c ∈ (receiveApply P n peer request).2, c.stage = .decrypt := by
  have hstores : (verifyEnvelopeAndCheckNonceForPeer P n request peer).2.stores = n.stores := rfl
  unfold receiveApply
  cases hverify : verifyEnvelopeAndCheckNonceForPeer P n request peer with
  | mk verdict n' =>
    rw [hverify] at hstores
    cases verdict with
    | error e => exact ⟨hstores, by simp⟩
    | ok parts =>
      simp only
      split
      · exact ⟨hstores, by simp⟩
      · split
        · exact ⟨hstores, by simp⟩
        · split_ifs
          · exact ⟨hstores, by simp⟩
          · exact ⟨hstores, by simp⟩
          · exact ⟨hstores, by simp⟩

theorem receiveSelfApply_spec (P : NodePlatform) (n : Node H) (manifest : Bytes) :
    ∀ c ∈ receiveSelfApply P n manifest, c.stage = .decrypt := by
  intro c hc
  unfold receiveSelfApply at hc
  split at hc
  · exact nomatch hc
  · obtain ⟨manifestJson, -, rfl⟩ := Option.map_eq_some_iff.mp hc
    rfl

theorem deleteMessage_stores (P : NodePlatform) (n : Node H) (peer : String) (request : Bytes) :
    (deleteMessage P n peer request).node.stores = n.stores := by
  have hstores : (verifySignedMessage P n request peer).2.stores = n.stores := by
    rw [verifySignedMessage_snd]
    rfl
  unfold deleteMessage
  cases hverify : verifySignedMessage P n request peer with
  | mk parts n' =>
    rw [hverify] at hstores
    cases parts with
    | none => exact hstores
    | some parts =>
      simp only
      split <;> exact hstores

/-- What an event can do: nothing to the stores and the calls; start an apply, or a delete task;
record an owner for the REST interface; and take a step of a call. -/
inductive Happens (s : System H) : Event → System H → Prop
  | quiet (e : Event) (n : Node H) (hstores : n.stores = s.node.stores) :
      Happens s e { s with node := n }
  | starts (e : Event) (n : Node H) (hstores : n.stores = s.node.stores) (hfree : s.busy = false)
      (call : Option ApplyCall) (hcall : ∀ c ∈ call, c.stage = .decrypt) :
      Happens s e { s with node := n, apply := call }
  | creates (metadata : EnvelopeMetadata) (m : String) :
      Happens s (.createTask metadata m)
        { s with node := s.node.recordOwner m metadata.signingPubkey }
  | begins (e : Event) (n : Node H) (hstores : n.stores = s.node.stores) (task : DeleteTask) :
      Happens s e { s with node := n, tasks := s.tasks ++ [{ task := task }] }
  | applies {c c' : ApplyCall} (happly : s.apply = some c) {n : Node H}
      (hstep : Applies s.node c (n, c')) :
      Happens s .applyStep { s with node := n, apply := some c' }
  | deletes {i : ℕ} {c c' : TaskCall H} (htask : s.tasks[i]? = some c) {n : Node H}
      (hstep : Deletes s.node c (n, c')) :
      Happens s (.taskStep i) { s with node := n, tasks := s.tasks.set i c' }

/-- **The events, by cases.** -/
theorem step_happens (P : NodePlatform) (s : System H) (e : Event) : Happens s e (s.step P e) := by
  cases e with
  | applyMessage peer bytes =>
    simp only [System.step]
    cases hbusy : s.busy with
    | true => exact .quiet _ s.node rfl
    | false =>
      obtain ⟨hstores, hcall⟩ := receiveApply_spec P s.node peer bytes
      exact .starts _ _ hstores hbusy _ hcall
  | selfApply manifest =>
    simp only [System.step]
    cases hbusy : s.busy with
    | true => exact .quiet _ s.node rfl
    | false => exact .starts _ s.node rfl hbusy _ (receiveSelfApply_spec P s.node manifest)
  | createTask metadata m => exact .creates metadata m
  | deleteMessage peer bytes =>
    simp only [System.step]
    split_ifs
    · exact .quiet _ s.node rfl
    · exact .quiet _ _ (deleteMessage_stores P s.node peer bytes)
  | beginTask i =>
    simp only [System.step]
    split
    · exact .quiet _ s.node rfl
    · exact .begins _ { s.node with deleteTasks := s.node.deleteTasks.eraseIdx i } rfl _
  | applyStep =>
    simp only [System.step]
    split
    · exact .quiet _ s.node rfl
    · rename_i c happly
      exact .applies happly (applyStep_applies P s.node c)
  | taskStep i =>
    simp only [System.step]
    split
    · exact .quiet _ s.node rfl
    · rename_i c htask
      exact .deletes htask (taskStep_deletes s.node c)

end Beemesh

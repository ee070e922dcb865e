import Beemesh.Node.Books

/-!
# How long a reservation is held

A reservation is written under its request id for one full duration, and refreshed under the same
id only. Until it expires no action of the node takes it away, so the reservation check of an apply
request passes for that long. What a node says is tied to that: it sends a capacity reply only when
it has reserved, and forwards only what a peer has sent it.

## Main definitions

* `Written`: an entry was written by an action
* `Kept`: the reservations are labelled by their ids and held for no longer than a full duration
* `HeldUntil`: a reservation is held for a manifest until a deadline
* `Node.Reserves`: a reservation is held for a manifest and covers a request
* `Node.standing`: what no handler changes
* `Node.fixed`: what nothing changes

## Main results

* `step_lookup`, `step_lookup_of_unexpired`: what an action leaves under a request id
* `Kept.active_until`: over every run a reservation is active until it expires
* `step_capacityReply`, `step_forward`: when a node replies, and what it forwards
* `step_standing`, `step_fixed`: no action changes what is set at the start, and which queries wait
  only where these start or end
-/

namespace Beemesh

variable {H : Type} {P : NodePlatform}

/-! ## What is written -/

/-- A grant writes one entry, with the amounts of the one it refreshes or those of the request. -/
theorem pruned_reserveCapacity_written {v v' : ResourceVerifier} {now : Instant} {id m : String}
    {request : ResourceRequest}
    (h : (v.pruned now).reserveCapacity (.at now) id (some m) request = (.ok (), v')) :
    ∃ e : CapacityReservation,
      v'.reservations = (pruneExpiredReservations now v.reservations).insert id e ∧
        e.manifestId = some m ∧ e.expiresAt = now + reservationHoldDuration ∧
        ((∃ e', v.reservations.lookup id = some e' ∧ e.toAmounts = e'.toAmounts) ∨
          e.toAmounts = request.totals) := by
  have hpruned : pruneExpiredReservations now (v.pruned now).reservations =
      pruneExpiredReservations now v.reservations := prune_prune le_rfl _
  have hcases := reserveCapacity_cases (v.pruned now) (.at now) id (some m) request
  simp only [Readings.at, hpruned] at hcases
  obtain ⟨e, he, hrefresh⟩ | ⟨err, -, -, hrefuse⟩ | ⟨hnone, -, hinsert⟩ := hcases
  · obtain rfl := (Prod.ext_iff.mp (h.symm.trans hrefresh)).2
    exact ⟨_, rfl, rfl, rfl, .inl ⟨e, (lookup_prune_eq_some.mp he).1, rfl⟩⟩
  · cases h.symm.trans hrefuse
  · obtain rfl := (Prod.ext_iff.mp (h.symm.trans hinsert)).2
    exact ⟨_, rfl, rfl, rfl, .inr rfl⟩

variable (P) in
/-- The entry was written by the action, on a request under its id. -/
structure Written (n : Node H) (a : Action H) (id : String) (e : CapacityReservation) : Prop where
  manifestId : ∃ m, extractManifestIdFromRequestId id = some m ∧ e.manifestId = some m
  expiresAt : e.expiresAt = n.now + reservationHoldDuration
  amounts : ∃ req, a.asks P n = some req ∧ req.requestId.getD "" = id ∧
    ((∃ e', n.verifier.reservations.lookup id = some e' ∧ e.toAmounts = e'.toAmounts) ∨
      e.toAmounts = req.resources.totals)

/-- **What is under an id after an action** was there before, or is written. -/
theorem step_lookup {n : Node H} {a : Action H} {id : String} {e : CapacityReservation}
    (h : (step P n a).node.verifier.reservations.lookup id = some e) :
    n.verifier.reservations.lookup id = some e ∨ Written P n a id e := by
  cases step_verifier P n a with
  | keeps hact hverifier =>
    rcases hverifier with hverifier | hverifier
    · exact .inl (hverifier ▸ h)
    · rw [hverifier] at h
      exact .inl (lookup_prune_eq_some.mp h).1
  | grants req id' m hasked hid hm hact hroom hcall =>
    obtain ⟨e', hreservations, hmanifest, hexpires, hamounts⟩ :=
      pruned_reserveCapacity_written hcall
    rw [hreservations] at h
    rcases eq_or_ne id id' with rfl | hne
    · rw [AList.lookup_insert, Option.some.injEq] at h
      subst h
      exact .inr ⟨⟨m, hm, hmanifest⟩, hexpires, req, hasked, hid, hamounts⟩
    · rw [AList.lookup_insert_ne hne] at h
      exact .inl (lookup_prune_eq_some.mp h).1

/-- **What is unexpired under an id** stays there, or is written again. -/
theorem step_lookup_of_unexpired {n : Node H} {id : String} {e : CapacityReservation}
    (h : n.verifier.reservations.lookup id = some e) (hnow : n.now < e.expiresAt) (a : Action H) :
    ∃ e', (step P n a).node.verifier.reservations.lookup id = some e' ∧
      (e' = e ∨ Written P n a id e') := by
  have hpruned : (pruneExpiredReservations n.now n.verifier.reservations).lookup id = some e :=
    lookup_prune_eq_some.mpr ⟨h, hnow⟩
  cases step_verifier P n a with
  | keeps hact hverifier =>
    rcases hverifier with hverifier | hverifier
    · exact ⟨e, by rwa [hverifier], .inl rfl⟩
    · refine ⟨e, ?_, .inl rfl⟩
      rw [hverifier]
      exact hpruned
  | grants req id' m hasked hid hm hact hroom hcall =>
    obtain ⟨e', hreservations, hmanifest, hexpires, hamounts⟩ :=
      pruned_reserveCapacity_written hcall
    rw [hreservations]
    rcases eq_or_ne id id' with rfl | hne
    · exact ⟨e', AList.lookup_insert _, .inr ⟨⟨m, hm, hmanifest⟩, hexpires, req, hasked, hid,
        hamounts⟩⟩
    · exact ⟨e, by rwa [AList.lookup_insert_ne hne], .inl rfl⟩

/-! ## Until it expires -/

/-- The reservations of the node are labelled by their ids, and held for no longer than a full
duration. -/
structure Kept (n : Node H) : Prop where
  labels : Labelled n.verifier.reservations
  timely : ∀ id e, n.verifier.reservations.lookup id = some e →
    e.expiresAt ≤ n.now + reservationHoldDuration

theorem Kept.of_empty {n : Node H} (h : n.verifier.reservations = ∅) : Kept n := by
  have hnone (id : String) : n.verifier.reservations.lookup id = none := by
    rw [h]
    exact AList.lookup_empty id
  refine ⟨fun id e he => ?_, fun id e he => ?_⟩
  · cases (hnone id).symm.trans he
  · cases (hnone id).symm.trans he

theorem Kept.step {n : Node H} (hn : Kept n) (a : Action H) : Kept (step P n a).node := by
  have hnow : n.now ≤ (Beemesh.step P n a).node.now :=
    (Nat.le_add_right _ _).trans_eq (step_now P n a).symm
  refine ⟨fun id e he => ?_, fun id e he => ?_⟩
  · rcases step_lookup he with hold | hwritten
    · exact hn.labels id e hold
    · obtain ⟨m, hm, hmanifest⟩ := hwritten.manifestId
      exact hmanifest.trans hm.symm
  · rcases step_lookup he with hold | hwritten
    · exact (hn.timely id e hold).trans (Nat.add_le_add_right hnow _)
    · rw [hwritten.expiresAt]
      exact Nat.add_le_add_right hnow _

/-- An entry of the manifest is found while it is unexpired. -/
theorem hasActiveReservationForManifest_of_lookup {v : ResourceVerifier} {now : Instant}
    {id m : String} {e : CapacityReservation} (h : v.reservations.lookup id = some e)
    (hnow : now < e.expiresAt) (hm : e.manifestId = some m) :
    (v.hasActiveReservationForManifest now m).1 = true := by
  have hpruned := lookup_prune_eq_some.mpr ⟨h, hnow⟩
  refine List.any_eq_true.mpr ⟨⟨id, e⟩, AList.mem_lookup_iff.mp hpruned, ?_⟩
  simp [hm]

/-- A node, action after action. -/
def nodeStep (P : NodePlatform) (n : Node H) (a : Action H) : Node H := (step P n a).node

/-- Before the deadline there is, under the id, an entry of the manifest that expires no sooner. -/
structure HeldUntil (id m : String) (deadline : Instant) (n : Node H) : Prop where
  kept : Kept n
  held : n.now < deadline → ∃ e, n.verifier.reservations.lookup id = some e ∧
    deadline ≤ e.expiresAt ∧ e.manifestId = some m

theorem HeldUntil.step {id m : String} {deadline : Instant} {n : Node H}
    (hn : HeldUntil id m deadline n) (a : Action H) :
    HeldUntil id m deadline (nodeStep P n a) := by
  refine ⟨hn.kept.step a, fun hnow => ?_⟩
  have hbefore : n.now < deadline :=
    ((Nat.le_add_right _ _).trans_eq (step_now P n a).symm).trans_lt hnow
  obtain ⟨e, he, hexpires, hm⟩ := hn.held hbefore
  obtain ⟨e', he', rfl | hwritten⟩ :=
    step_lookup_of_unexpired (P := P) he (hbefore.trans_le hexpires) a
  · exact ⟨e', he', hexpires, hm⟩
  · -- Written again: for a full duration, and for the manifest that its id names.
    obtain ⟨m', hid, hmanifest⟩ := hwritten.manifestId
    have hlabel : some m' = some m := hid.symm.trans ((hn.kept.labels id e he).symm.trans hm)
    refine ⟨e', he', ?_, hmanifest.trans hlabel⟩
    rw [hwritten.expiresAt]
    exact hexpires.trans (hn.kept.timely id e he)

/-- **A reservation is active until it expires**, over every run of the node. -/
theorem Kept.active_until {n : Node H} (hn : Kept n) {id m : String} {e : CapacityReservation}
    (he : n.verifier.reservations.lookup id = some e) (hm : e.manifestId = some m)
    (acts : List (Action H)) :
    let n' := Run.run (nodeStep P) n acts
    n'.now < e.expiresAt → (n'.verifier.hasActiveReservationForManifest n'.now m).1 = true := by
  intro n' hnow
  have hstart : HeldUntil id m e.expiresAt n := ⟨hn, fun _ => ⟨e, he, le_rfl, hm⟩⟩
  have hend : HeldUntil id m e.expiresAt n' :=
    Run.run_invariant (fun _ a hn => hn.step a) acts hstart
  obtain ⟨e', he', hexpires, hm'⟩ := hend.held hnow
  exact hasActiveReservationForManifest_of_lookup he' (hnow.trans_le hexpires) hm'

/-- The node holds an unexpired reservation for the manifest that covers the request. -/
def Node.Reserves (n : Node H) (manifestId : String) (request : ResourceRequest) : Prop :=
  ∃ id e, n.verifier.reservations.lookup id = some e ∧ n.now < e.expiresAt ∧
    e.manifestId = some manifestId ∧ e.Covers request

/-! ## What a node says -/

/-- A reply is sent on a reservation only. -/
theorem answerCapacityRequest_capacityReply {n : Node H} {req : CapacityRequest}
    {params : CapacityReplyParams}
    (h : (answerCapacityRequest n req).response = some (.capacityReply params)) :
    ∃ m, (answerCapacityRequest n req).act = some (.reserve params.requestId m) := by
  rw [answerCapacityRequest] at h ⊢
  cases hm : extractManifestIdFromRequestId (req.requestId.getD "") with
  | none =>
    rw [hm] at h
    cases h
  | some m =>
    simp only [hm] at h ⊢
    split_ifs at h ⊢ with hroom
    split at h
    · obtain rfl := Response.capacityReply.inj (Option.some.inj h)
      exact ⟨m, rfl⟩
    · cases h

theorem notifyCapacityObservers_response (n : Node H) (requestId payload : String) :
    (notifyCapacityObservers n requestId payload).response = none := by
  unfold notifyCapacityObservers
  split <;> rfl

theorem applyRequest_response (n : Node H) (request ownerPubkey : Bytes)
    (params : CapacityReplyParams) :
    (applyRequest P n request ownerPubkey).response ≠ some (.capacityReply params) := by
  unfold applyRequest
  split
  · simp
  · split
    · simp
    · simp only
      split_ifs
      · simp
      · unfold deploymentHandled
        split <;> simp
      · simp

theorem processDeleteRequest_response (n : Node H) (task : DeleteTask)
    (params : CapacityReplyParams) :
    (processDeleteRequest n task).response ≠ some (.capacityReply params) := by
  unfold processDeleteRequest
  cases removeWorkloadsByManifestId n task.manifestId with
  | mk result n' =>
    cases verifyDeleteOwnership n task.manifestId task.envelopePubkey with
    | «match» => cases result <;> simp
    | mismatch => cases task.force <;> cases result <;> simp
    | unknown => simp

theorem dispatch_capacityReply {n : Node H} {handler : Handler} {wallMs : U64} {peer : String}
    {bytes : Bytes} {params : CapacityReplyParams}
    (h : (dispatch P n handler wallMs peer bytes).response = some (.capacityReply params)) :
    ∃ m, (dispatch P n handler wallMs peer bytes).act = some (.reserve params.requestId m) := by
  simp only [dispatch] at h ⊢
  cases handler with
  | schedulerRequest =>
    simp only [schedulerRequest] at h ⊢
    split_ifs at h ⊢
    split at h
    · cases h
    · split at h
      · split_ifs at h ⊢
        exact answerCapacityRequest_capacityReply h
      · cases h
  | schedulerResponse =>
    simp only [schedulerResponse] at h
    split at h
    · cases (notifyCapacityObservers_response _ _ _).symm.trans h
    · cases h
  | gossipsub =>
    simp only [gossipsubMessage] at h ⊢
    split at h
    · cases h
    · split at h
      · split_ifs at h ⊢
        exact answerCapacityRequest_capacityReply h
      · split at h
        · cases (notifyCapacityObservers_response _ _ _).symm.trans h
        · cases h
  | apply =>
    simp only [handleApplyMessage] at h
    split at h
    · exact absurd h (applyRequest_response _ _ _ _)
    · cases h
  | delete =>
    simp only [deleteMessage] at h
    split at h
    · cases h
    · split at h <;> cases h

/-- **A reply** is sent on a reservation only, under the id of the request. -/
theorem step_capacityReply {n : Node H} {a : Action H} {params : CapacityReplyParams}
    (h : (step P n a).response = some (.capacityReply params)) :
    ∃ m, (step P n a).act = some (.reserve params.requestId m) := by
  cases a with
  | deliver handler wallMs peer bytes => exact dispatch_capacityReply h
  | selfApply manifest =>
    rw [step] at h
    rcases processEnhancedSelfApplyRequest_cases P n manifest with hnone | ⟨req, json, hdeployed⟩
    · rw [hnone] at h
      cases h
    · rw [hdeployed] at h
      cases h
  | runDelete i =>
    simp only [step] at h
    split at h
    · cases h
    · exact absurd h (processDeleteRequest_response _ _ _)
  | localDelete manifestId =>
    simp only [step] at h
    split at h <;> cases h
  | tick d => cases h
  | verify peer bytes => cases h
  | queries pending => cases h
  | world host => cases h

/-- An apply request at most deploys. -/
theorem applyRequest_act {n : Node H} {request ownerPubkey : Bytes} {act : Act}
    (h : (applyRequest P n request ownerPubkey).act = some act) : ∃ m w, act = .deploy m w := by
  rw [applyRequest] at h
  split at h
  · cases h
  · split at h
    · cases h
    · simp only at h
      split_ifs at h
      obtain ⟨w, hdeploy⟩ := deploymentHandled_act h
      exact ⟨_, w, hdeploy⟩

theorem notifyCapacityObservers_forward {n : Node H} {requestId requestId' payload payload' : String}
    {observers : List ℕ} (h : (notifyCapacityObservers n requestId' payload').act =
      some (.forward requestId payload observers)) :
    requestId = requestId' ∧ payload = payload' := by
  obtain ⟨observers', hact⟩ := notifyCapacityObservers_act h
  exact ⟨(Act.forward.inj hact).1, (Act.forward.inj hact).2.1⟩

theorem dispatch_forward {n : Node H} {handler : Handler} {wallMs : U64} {peer : String}
    {bytes : Bytes} {requestId payload : String} {observers : List ℕ}
    (h : (dispatch P n handler wallMs peer bytes).act =
      some (.forward requestId payload observers)) :
    (handler = .schedulerResponse ∧ ∃ reply, P.rootAsCapacityReply bytes = .ok reply ∧
        requestId = reply.requestId.getD "" ∧
        payload = peer ++ ":" ++ reply.kemPubkey.getD "") ∨
      handler = .gossipsub ∧ payload = peer := by
  cases handler with
  | schedulerResponse =>
    simp only [dispatch, schedulerResponse] at h
    split at h
    · next reply hreply =>
      exact .inl ⟨rfl, reply, hreply, notifyCapacityObservers_forward h⟩
    · cases h
  | gossipsub =>
    simp only [dispatch, gossipsubMessage] at h
    split at h
    · cases h
    · split at h
      · split_ifs at h
        obtain ⟨id, m, hact⟩ := answerCapacityRequest_act h
        cases hact
      · split at h
        · exact .inr ⟨rfl, (notifyCapacityObservers_forward h).2⟩
        · cases h
  | schedulerRequest =>
    simp only [dispatch, schedulerRequest] at h
    split_ifs at h
    split at h
    · cases h
    · split at h
      · split_ifs at h
        obtain ⟨id, m, hact⟩ := answerCapacityRequest_act h
        cases hact
      · cases h
  | apply =>
    simp only [dispatch, handleApplyMessage] at h
    split at h
    · obtain ⟨m, w, hdeploy⟩ := applyRequest_act h
      cases hdeploy
    · cases h
  | delete =>
    simp only [dispatch, deleteMessage] at h
    split at h
    · cases h
    · split at h <;> cases h

/-- **What a node forwards** is the answer of the peer that sent it, with its key when it came as a
scheduler response. -/
theorem step_forward {n : Node H} {a : Action H} {requestId payload : String} {observers : List ℕ}
    (h : (step P n a).act = some (.forward requestId payload observers)) :
    ∃ handler wallMs peer bytes, a = .deliver handler wallMs peer bytes ∧
      ((handler = .schedulerResponse ∧ ∃ reply, P.rootAsCapacityReply bytes = .ok reply ∧
          requestId = reply.requestId.getD "" ∧
          payload = peer ++ ":" ++ reply.kemPubkey.getD "") ∨
        handler = .gossipsub ∧ payload = peer) := by
  cases a with
  | deliver handler wallMs peer bytes =>
    exact ⟨handler, wallMs, peer, bytes, rfl, dispatch_forward h⟩
  | selfApply manifest =>
    rw [step] at h
    rcases processEnhancedSelfApplyRequest_cases P n manifest with hnone | ⟨req, json, hdeployed⟩
    · rw [hnone] at h
      cases h
    · rw [hdeployed] at h
      obtain ⟨w, hdeploy⟩ := deploymentHandled_act h
      cases hdeploy
  | runDelete i =>
    simp only [step] at h
    split at h
    · cases h
    · obtain ⟨removed, hdelete⟩ := processDeleteRequest_act h
      cases hdelete
  | localDelete manifestId =>
    simp only [step] at h
    split at h <;> cases h
  | tick d => cases h
  | verify peer bytes => cases h
  | queries pending => cases h
  | world host => cases h

/-! ## What no handler changes -/

/-- Who the node is, whether it schedules, its key, its engines, and which queries wait. -/
def Node.standing (n : Node H) :
    String × Bool × Bytes × Option (RuntimeRegistry H) × Table String (List ℕ) :=
  (n.localPeer, n.schedulingDisabled, n.signingPubkey, n.registry, n.pendingQueries)

theorem received_standing (n : Node H) (handler : Handler) (peer : String) (bytes : Bytes) :
    (received P n handler peer bytes).standing = n.standing := by
  rw [received_eq]
  rfl

theorem Dispatched.standing {n : Node H} {handler : Handler} {wallMs : U64} {peer : String}
    {bytes : Bytes} {h : Handled H} (hd : Dispatched P n wallMs peer bytes handler h) :
    h.node.standing = n.standing := by
  cases hd with
  | quiet handler response => exact received_standing n _ _ _
  | answer hhandler hparts hreq hfresh =>
    obtain ⟨verifier, hframe⟩ := answerCapacityRequest_frame (received P n handler peer bytes) _
    rw [hframe]
    exact received_standing n _ _ _
  | forwardResponse hreply requestId payload =>
    rw [notifyCapacityObservers_node, received_standing]
  | forward hparts hreq hreply requestId payload =>
    rw [notifyCapacityObservers_node, received_standing]
  | apply hparts =>
    obtain ⟨verifier, owners, providers, host, hframe⟩ :=
      applyRequest_frame P (received P n .apply peer bytes) _ _
    rw [hframe]
    exact received_standing n _ _ _
  | delete hparts hreq task htask response => exact received_standing n _ _ _

/-- Only an action that starts or ends queries changes what stands. -/
theorem step_standing (n : Node H) (a : Action H) (ha : ∀ pending, a ≠ .queries pending) :
    (step P n a).node.standing = n.standing := by
  cases a with
  | tick d => rfl
  | verify peer bytes => rfl
  | queries pending => exact absurd rfl (ha pending)
  | world host => rfl
  | deliver handler wallMs peer bytes =>
    exact (dispatch_dispatched P n handler wallMs peer bytes).standing
  | selfApply manifest =>
    rw [step]
    rcases processEnhancedSelfApplyRequest_cases P n manifest with hnone | ⟨req, json, hdeployed⟩
    · rw [hnone]
    · rw [hdeployed]
      obtain ⟨owners, providers, host, hframe⟩ :=
        processManifestDeployment_frame P n req json n.signingPubkey
      simp only [deploymentHandled_node, hframe]
      rfl
  | runDelete i =>
    simp only [step]
    split
    · rfl
    · next task _ =>
      obtain ⟨owners, providers, host, hframe⟩ :=
        processDeleteRequest_frame { n with deleteTasks := n.deleteTasks.eraseIdx i } task
      rw [hframe]
      rfl
  | localDelete manifestId =>
    obtain ⟨owners, providers, host, hframe⟩ := removeWorkloadsByManifestId_frame n manifestId
    have hremoves : (removeWorkloadsByManifestId n manifestId).2.standing = n.standing := by
      rw [hframe]
      rfl
    simp only [step]
    split <;> next hresult => rwa [hresult] at hremoves

/-- Who the node is, whether it schedules, its key and its engines. -/
def Node.fixed (n : Node H) : String × Bool × Bytes × Option (RuntimeRegistry H) :=
  (n.localPeer, n.schedulingDisabled, n.signingPubkey, n.registry)

/-- **What is set at the start stays**: no action gives a node an engine, or changes who it is. -/
theorem step_fixed (n : Node H) (a : Action H) : (step P n a).node.fixed = n.fixed := by
  by_cases ha : ∃ pending, a = .queries pending
  · obtain ⟨pending, rfl⟩ := ha
    rfl
  · push Not at ha
    exact congrArg (fun s => (s.1, s.2.1, s.2.2.1, s.2.2.2.1)) (step_standing n a ha)

theorem step_localPeer (n : Node H) (a : Action H) :
    (step P n a).node.localPeer = n.localPeer :=
  congrArg Prod.fst (step_fixed n a)

end Beemesh

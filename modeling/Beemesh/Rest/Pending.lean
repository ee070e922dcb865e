import Beemesh.Rest.Backing

/-!
# Who waits for the answers to a query

`get_candidates` hands its query to the event loop with a channel for the answers. The loop keeps
the channel under the request id and sends on it whatever comes under this id. When the call returns
nobody tells the loop: the channel stays, and with it the entry of the request id.

## Main definitions

* `QueryLoop`, `QueryAction`, `queryStep`: the event loop, and the calls that ask it
* `Action.reply`, `Handled.reply`: the answers to queries that reach the loop, or that it gives
* `QueryLoop.Clean`: no query is stale, and what was sent is every answer to all who wait for it
* `QueryAction.Waits`: the call of a query that the loop has does not return

## Main results

* `step_deliveries`, `handleQueryCapacityWithPayload_deliveries`: whom an answer is sent to
* `QueryLoop.books_run`: in every run the loop keeps, under each request id, all queries it was
  handed, and sends each answer to these
* `clean_iff_waits`: the runs in which no query is stale
-/

namespace Beemesh

variable {H : Type} (P : NodePlatform)

/-! ## Answers -/

/-- The answer to a query in what happens to a node: its request id, and what the query is told. -/
def Action.reply (n : Node H) : Action H → Option (String × String)
  | .deliver .schedulerResponse _ peer bytes =>
    match P.rootAsCapacityReply bytes with
    | .ok reply => some (reply.requestId.getD "", peer ++ ":" ++ reply.kemPubkey.getD "")
    | .error _ => none
  | .deliver .gossipsub _ peer bytes =>
    match verifiedParts P n .gossipsub peer bytes with
    | none => none
    | some parts =>
      match P.rootAsCapacityRequest parts.payload with
      | .ok _ => none
      | .error _ =>
        match P.rootAsCapacityReply parts.payload with
        | .ok reply => some (reply.requestId.getD "", peer)
        | .error _ => none
  | _ => none

/-- The answer that a node gives to a query of its own. -/
def Handled.reply (h : Handled H) (key : Option String) : Option (String × String) :=
  match h.response with
  | some (.capacityReply params) => some (params.requestId, h.node.localPeer ++ ":" ++ key.getD "")
  | _ => none

/-- What an outcome tells the queries, by observer. -/
def Handled.deliveries (h : Handled H) : List (ℕ × String) :=
  match h.act with
  | some (.forward _ payload observers) => observers.map fun observer => (observer, payload)
  | _ => []

/-! ## The loop and its callers -/

/-- A call of `get_candidates`. -/
structure CandidatesCall where
  requestId : String
  payload : Bytes

/-- An answer, and the queries that waited for it as it came. -/
structure CapacityAnswer where
  requestId : String
  payload : String
  registered : List ℕ

/-- What an answer has to tell, by observer. -/
def CapacityAnswer.deliveries (r : CapacityAnswer) : List (ℕ × String) :=
  r.registered.map fun observer => (observer, r.payload)

/-- The event loop, the calls that have asked it, and what it has told them. -/
structure QueryLoop (H : Type) where
  node : Node H
  calls : List CandidatesCall := []
  /-- The queries that the loop has been handed, under their request ids. -/
  registered : List (String × ℕ) := []
  /-- The calls that have returned. -/
  returned : List ℕ := []
  answers : List CapacityAnswer := []
  sent : List (ℕ × String) := []

/-- The calls of which the loop has the query. -/
def QueryLoop.handled (s : QueryLoop H) : List ℕ := s.registered.map Prod.snd

/-- What happens to the loop. Queries start and end through the calls only. -/
inductive QueryAction (H : Type)
  /-- A call starts, and its query is on its way to the loop. -/
  | getCandidates (taskId uuid : String) (payload : Bytes)
  /-- The loop handles the query of the `i`-th call. -/
  | handle (i : ℕ) (broadcast : Except String ℕ) (key : Option String)
  /-- The `i`-th call has its candidates, or has waited long enough. -/
  | returns (i : ℕ)
  | act (a : Action H) (ha : ∀ pending, a ≠ .queries pending)

/-- The loop after an outcome, with an answer to those who wait for it by now. -/
def QueryLoop.after (s : QueryLoop H) (registered : List (String × ℕ))
    (reply : Option (String × String)) (h : Handled H) : QueryLoop H :=
  { s with
    node := h.node
    registered := registered
    answers := s.answers ++
      reply.toList.map fun r => ⟨r.1, r.2, AList.under registered r.1⟩
    sent := s.sent ++ h.deliveries }

def queryStep (s : QueryLoop H) : QueryAction H → QueryLoop H
  | .getCandidates taskId uuid payload =>
    { s with calls := s.calls ++ [⟨candidatesRequestId taskId uuid, payload⟩] }
  | .handle i broadcast key =>
    match s.calls[i]? with
    | none => s
    | some call =>
      if i ∈ s.handled then s
      else
        let h := handleQueryCapacityWithPayload P s.node call.requestId i call.payload broadcast key
        s.after (s.registered ++ [(call.requestId, i)]) (h.reply key) h
  | .returns i => if i < s.calls.length then { s with returned := s.returned ++ [i] } else s
  | .act a _ => s.after s.registered (a.reply P s.node) (step P s.node a)

/-- The loop as it starts: nobody waits. -/
def QueryLoop.start (n : Node H) : QueryLoop H := { node := { n with pendingQueries := ∅ } }

/-- No query is stale, and what was sent is every answer to all who wait for it. -/
structure QueryLoop.Clean (s : QueryLoop H) : Prop where
  fresh : ∀ requestId i, (requestId, i) ∈ s.registered → i ∈ s.returned →
    s.node.pendingQueries.lookup requestId = none
  sent : s.sent = s.answers.flatMap CapacityAnswer.deliveries

/-- The call of a query that the loop has does not return. -/
def QueryAction.Waits (s : QueryLoop H) : QueryAction H → Prop
  | .handle i _ _ => i ∉ s.returned
  | .returns i => i ∉ s.handled
  | _ => True

variable {P}

/-! ## Whom an answer is sent to -/

/-- What an answer tells those who wait for it at a node, by observer. -/
def Node.tells (n : Node H) (r : String × String) : List (ℕ × String) :=
  ((n.pendingQueries.lookup r.1).getD []).map fun observer => (observer, r.2)

theorem notifyCapacityObservers_deliveries (n : Node H) (requestId payload : String) :
    (notifyCapacityObservers n requestId payload).deliveries = n.tells (requestId, payload) := by
  unfold notifyCapacityObservers Node.tells
  cases n.pendingQueries.lookup requestId <;> rfl

/-- An outcome that forwards nothing tells the queries nothing. -/
theorem Handled.deliveries_eq_nil {h : Handled H}
    (hact : ∀ requestId payload observers, h.act ≠ some (.forward requestId payload observers)) :
    h.deliveries = [] := by
  unfold Handled.deliveries
  split
  · next heq => exact absurd heq (hact _ _ _)
  · rfl

/-- Messages on other paths than those of the answers tell the queries nothing. -/
theorem step_deliveries_eq_nil {n : Node H} {a : Action H}
    (ha : ∀ wallMs peer bytes, a ≠ .deliver .schedulerResponse wallMs peer bytes ∧
      a ≠ .deliver .gossipsub wallMs peer bytes) : (step P n a).deliveries = [] := by
  refine Handled.deliveries_eq_nil fun requestId payload observers hact => ?_
  obtain ⟨handler, wallMs, peer, bytes, rfl, ⟨rfl, -⟩ | ⟨rfl, -⟩⟩ := step_forward hact
  · exact (ha wallMs peer bytes).1 rfl
  · exact (ha wallMs peer bytes).2 rfl

theorem schedulerResponse_deliveries (n : Node H) (wallMs : U64) (peer : String) (bytes : Bytes) :
    (schedulerResponse P n peer bytes).deliveries =
      ((Action.deliver (H := H) .schedulerResponse wallMs peer bytes).reply P n).toList.flatMap
        n.tells := by
  simp only [schedulerResponse, Action.reply]
  cases P.rootAsCapacityReply bytes with
  | error e => rfl
  | ok reply => simp [notifyCapacityObservers_deliveries]

theorem gossipsubMessage_deliveries (n : Node H) (wallMs : U64) (peer : String) (bytes : Bytes) :
    (gossipsubMessage P n wallMs peer bytes).deliveries =
      ((Action.deliver (H := H) .gossipsub wallMs peer bytes).reply P n).toList.flatMap
        n.tells := by
  -- The nonce of the message is noted, and nobody else waits.
  have hwaits : (received P n .gossipsub peer bytes).pendingQueries = n.pendingQueries :=
    congrArg (·.2.2.2.2) (received_standing n .gossipsub peer bytes)
  simp only [gossipsubMessage, Action.reply]
  rw [verifySignedMessage_of_verifies P .gossipsub rfl]
  cases verifiedParts P n .gossipsub peer bytes with
  | none => rfl
  | some parts =>
    simp only
    cases P.rootAsCapacityRequest parts.payload with
    | ok req =>
      -- A capacity request, which the node answers itself.
      refine Handled.deliveries_eq_nil fun requestId payload observers hact => ?_
      split_ifs at hact
      obtain ⟨id, m, hreserve⟩ := answerCapacityRequest_act hact
      cases hreserve
    | error e =>
      cases P.rootAsCapacityReply parts.payload with
      | error e => rfl
      | ok reply => simp [notifyCapacityObservers_deliveries, Node.tells, hwaits]

/-- **An answer that reaches a node** goes to all who wait for it, and nothing else goes to them. -/
theorem step_deliveries (n : Node H) (a : Action H) :
    (step P n a).deliveries = (a.reply P n).toList.flatMap n.tells := by
  by_cases ha : ∀ wallMs peer bytes, a ≠ .deliver .schedulerResponse wallMs peer bytes ∧
    a ≠ .deliver .gossipsub wallMs peer bytes
  · have hreply : a.reply P n = none := by
      unfold Action.reply
      split
      · exact absurd rfl (ha _ _ _).1
      · exact absurd rfl (ha _ _ _).2
      · rfl
    rw [step_deliveries_eq_nil ha, hreply]
    rfl
  · push Not at ha
    obtain ⟨wallMs, peer, bytes, ha⟩ := ha
    by_cases hresponse : a = .deliver .schedulerResponse wallMs peer bytes
    · rw [hresponse]
      exact schedulerResponse_deliveries n wallMs peer bytes
    · rw [ha hresponse]
      exact gossipsubMessage_deliveries n wallMs peer bytes

/-- **The answer of a node to its own query** goes to all who wait for it, the query among them. -/
theorem handleQueryCapacityWithPayload_deliveries (n : Node H) (requestId : String) (observer : ℕ)
    (payload : Bytes) (broadcast : Except String ℕ) (key : Option String) :
    let h := handleQueryCapacityWithPayload P n requestId observer payload broadcast key
    h.deliveries = (h.reply key).toList.flatMap h.node.tells := by
  intro h
  have hnode : h.node = _ :=
    handleQueryCapacityWithPayload_node n requestId observer payload broadcast key
  rcases handleQueryCapacityWithPayload_cases (P := P) n requestId observer payload broadcast key
    with ⟨hresponse, hact⟩ | ⟨-, -, ⟨params, hresponse, hid⟩, hact⟩
  · change h.response = none at hresponse
    change h.act = none at hact
    rw [Handled.deliveries, Handled.reply, hresponse, hact]
    rfl
  · change h.response = _ at hresponse
    change h.act = _ at hact
    rw [Handled.deliveries, Handled.reply, hresponse, hact]
    simp [Node.tells, hnode, hid]

/-! ## Every run -/

/-- The entries of the loop are all queries it was ever handed, and what was sent is every answer to
all who waited for it. -/
structure QueryLoop.Books (s : QueryLoop H) : Prop where
  pending : s.node.pendingQueries.Collects s.registered
  sent : s.sent = s.answers.flatMap CapacityAnswer.deliveries

/-- An answer to all who wait for it keeps the books. -/
theorem QueryLoop.Books.after {s : QueryLoop H} (hs : s.Books) {registered : List (String × ℕ)}
    {reply : Option (String × String)} {h : Handled H}
    (hpending : h.node.pendingQueries.Collects registered)
    (hdeliveries : h.deliveries = reply.toList.flatMap h.node.tells) :
    (s.after registered reply h).Books := by
  refine ⟨hpending, ?_⟩
  have htells : h.node.tells = fun r =>
      CapacityAnswer.deliveries ⟨r.1, r.2, AList.under registered r.1⟩ := by
    funext r
    rw [Node.tells, hpending.getD, CapacityAnswer.deliveries]
  rw [QueryLoop.after, hs.sent, hdeliveries, List.flatMap_append, List.flatMap_map, htells]

theorem QueryLoop.books_start (n : Node H) : (QueryLoop.start n).Books :=
  ⟨AList.collects_empty, rfl⟩

/-- **Every action keeps the books.** -/
theorem queryStep_books {s : QueryLoop H} (hs : s.Books) (a : QueryAction H) :
    (queryStep P s a).Books := by
  cases a with
  | getCandidates taskId uuid payload => exact ⟨hs.pending, hs.sent⟩
  | returns i =>
    rw [queryStep]
    split_ifs
    · exact ⟨hs.pending, hs.sent⟩
    · exact hs
  | handle i broadcast key =>
    rw [queryStep]
    split
    · exact hs
    · split_ifs
      · exact hs
      · refine hs.after ?_ (handleQueryCapacityWithPayload_deliveries ..)
        rw [handleQueryCapacityWithPayload_node]
        exact hs.pending.insert _ _
  | act a ha =>
    have hwaits : (step P s.node a).node.pendingQueries = s.node.pendingQueries :=
      congrArg (·.2.2.2.2) (step_standing s.node a ha)
    refine hs.after (hwaits ▸ hs.pending) ?_
    rw [step_deliveries]
    unfold Node.tells
    rw [hwaits]

/-- **In every run** the loop keeps all queries it was handed, and each answer is sent to all that
wait for it and to nobody else. -/
theorem QueryLoop.books_run (n : Node H) (acts : List (QueryAction H)) :
    (Run.run (queryStep P) (QueryLoop.start n) acts).Books := by
  have hstep (s : QueryLoop H) (a : QueryAction H) (hs : s.Books) : (queryStep P s a).Books :=
    queryStep_books hs a
  exact Run.run_invariant hstep acts (books_start n)

/-! ## Stale queries -/

/-- The books, and no query that the loop has is one whose call has returned. -/
structure QueryLoop.Inv (s : QueryLoop H) : Prop where
  books : s.Books
  called : ∀ i ∈ s.handled, i < s.calls.length
  known : ∀ i ∈ s.returned, i < s.calls.length
  waits : ∀ i ∈ s.handled, i ∉ s.returned

theorem QueryLoop.inv_start (n : Node H) : (QueryLoop.start n).Inv :=
  ⟨books_start n, nofun, nofun, nofun⟩

theorem QueryLoop.Inv.clean {s : QueryLoop H} (hs : s.Inv) : s.Clean where
  fresh _ i hi hreturned := absurd hreturned (hs.waits i (List.mem_map_of_mem hi))
  sent := hs.books.sent

/-- An action by which no call of a query returns keeps the invariant. -/
theorem QueryLoop.Inv.kept {s : QueryLoop H} (hs : s.Inv) {a : QueryAction H}
    (ha : a.Waits s) : (queryStep P s a).Inv := by
  have hbooks := queryStep_books (P := P) hs.books a
  cases a with
  | act a hq => exact ⟨hbooks, hs.called, hs.known, hs.waits⟩
  | getCandidates taskId uuid payload =>
    have hlonger : s.calls.length ≤ (s.calls ++ [CandidatesCall.mk
        (candidatesRequestId taskId uuid) payload]).length := by
      simp
    exact ⟨hbooks, fun i hi => (hs.called i hi).trans_le hlonger,
      fun i hi => (hs.known i hi).trans_le hlonger, hs.waits⟩
  | returns i =>
    rw [queryStep] at hbooks ⊢
    split_ifs at hbooks ⊢ with hi
    · refine ⟨hbooks, hs.called, fun j hj => ?_, fun j hj hreturned => ?_⟩
      · rcases List.mem_append.mp hj with hj | hj
        · exact hs.known j hj
        · rwa [List.mem_singleton.mp hj]
      · rcases List.mem_append.mp hreturned with hreturned | hreturned
        · exact hs.waits j hj hreturned
        · exact ha (List.mem_singleton.mp hreturned ▸ hj)
    · exact hs
  | handle i broadcast key =>
    rw [queryStep] at hbooks ⊢
    split at hbooks
    · exact hs
    · next call hcall =>
      split_ifs at hbooks ⊢ with hi
      · exact hs
      · have hhandled (j : ℕ) (hj : j ∈ (s.registered ++ [(call.requestId, i)]).map Prod.snd) :
            j ∈ s.handled ∨ j = i := by
          simpa [QueryLoop.handled] using hj
        refine ⟨hbooks, fun j hj => ?_, hs.known, fun j hj => ?_⟩
        · rcases hhandled j hj with hj | rfl
          · exact hs.called j hj
          · exact (List.getElem?_eq_some_iff.mp hcall).1
        · rcases hhandled j hj with hj | rfl
          · exact hs.waits j hj
          · exact ha

/-- A query that the loop has is stale once its call has returned. -/
theorem QueryLoop.Books.not_clean {s : QueryLoop H} (hs : s.Books) {requestId : String} {i : ℕ}
    (hi : (requestId, i) ∈ s.registered) (hreturned : i ∈ s.returned) : ¬ s.Clean :=
  fun hclean => hs.pending.lookup_ne_none hi (hclean.fresh requestId i hi hreturned)

/-- An action by which the call of a query returns leaves the query stale. -/
theorem QueryLoop.Inv.not_clean {s : QueryLoop H} (hs : s.Inv) {a : QueryAction H}
    (ha : ¬ a.Waits s) : ¬ (queryStep P s a).Clean := by
  have hbooks := queryStep_books (P := P) hs.books a
  cases a with
  | getCandidates taskId uuid payload => exact absurd trivial ha
  | act a hq => exact absurd trivial ha
  | returns i =>
    -- The loop has the query, and keeps it.
    have hi : i ∈ s.handled := not_not.mp ha
    obtain ⟨⟨requestId, j⟩, hregistered, rfl : j = i⟩ := List.mem_map.mp hi
    have hstep : queryStep P s (.returns j) = { s with returned := s.returned ++ [j] } :=
      if_pos (hs.called j hi)
    rw [hstep] at hbooks ⊢
    exact hbooks.not_clean hregistered (List.mem_append_right _ (List.mem_singleton_self j))
  | handle i broadcast key =>
    -- The call has returned, and the loop gets its query after that.
    have hreturned : i ∈ s.returned := not_not.mp ha
    obtain ⟨call, hcall⟩ : ∃ call, s.calls[i]? = some call :=
      ⟨_, List.getElem?_eq_getElem (hs.known i hreturned)⟩
    have hnew : i ∉ s.handled := fun hi => hs.waits i hi hreturned
    simp only [queryStep, hcall, if_neg hnew] at hbooks ⊢
    exact hbooks.not_clean (List.mem_append_right _ (List.mem_singleton_self _)) hreturned

/-- **When no query is stale, and every answer goes to whom it is for**: as long as no call returns
of which the loop has the query, and the loop gets no query of a call that has returned. -/
theorem clean_iff_waits (n : Node H) (acts : List (QueryAction H)) :
    Run.Always (queryStep P) QueryLoop.Clean (QueryLoop.start n) acts ↔
      Run.Guarded (queryStep P) (fun s a => a.Waits s) (QueryLoop.start n) acts :=
  Run.always_iff_guarded (fun _ => QueryLoop.Inv.clean) (fun _ _ hs ha => hs.kept ha)
    (fun _ _ _ hs ha => hs.not_clean ha) (fun _ _ => trivial) (QueryLoop.inv_start n)

/-- A call that asks, is answered and returns. -/
def askAndReturn : List (QueryAction Pods) :=
  [.getCandidates "task" "1" (capacityRequestCodec.write capacityQuery),
    .handle 0 (.ok 0) (some "key"), .returns 0]

/-- Its query is stale. -/
theorem query_stale :
    ¬ Run.Always (queryStep trusting) QueryLoop.Clean (QueryLoop.start referenceNode)
      askAndReturn := by
  intro halways
  have hregistered : (taskRequestId, 0) ∈
      (Run.run (queryStep trusting) (QueryLoop.start referenceNode) askAndReturn).registered :=
    .head _
  exact (QueryLoop.books_run _ _).not_clean hregistered (.head _) halways.last

end Beemesh

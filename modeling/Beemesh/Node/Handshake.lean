import Beemesh.Node.Reference

/-!
# Handshakes, and what a node does unasked

A node also runs a handshake with its peers, and receives the answers to what it sent. Here the
receive paths of all its protocols stand side by side. Each but one verifies an envelope before it
looks inside: the answer to a scheduler request is read as it comes.

## Main definitions

* `MachinePlatform`: the external operations of the machine outside its handlers
* `signWithNodeKeys`, `signPayloadDefault`: envelopes signed by the node
* `handshakeRequest`, `handshakeResponse`: the handlers of `handshake_message.rs`
* `Machine`, `Channel`, `receive`: a node with its handshakes, and its receive paths
* `Authentic`: an envelope whose signature verifies
* `Unaffected`: what unauthenticated content must leave

## Main results

* `unauthenticated_unaffected_iff`: unauthenticated content has no effect, but for the answers to
  capacity queries
-/

namespace Beemesh

/-- The operations outside the repository that the machine calls, besides those of the handlers. -/
structure MachinePlatform extends NodePlatform where
  /-- Whether the bytes are a `Handshake` table. No field of it is read. -/
  rootAsHandshake : Bytes → Except String Unit
  buildHandshake : U32 → U64 → String → String → Bytes
  /-- `build_delete_request`: manifest id, operation id, origin peer and force. -/
  buildDeleteRequest : String → String → String → Bool → Bytes
  /-- `PeerId::from_str`, to the peer's own spelling. -/
  parsePeerId : String → Except String String
  /-- The debug format of a list of strings. -/
  debugStrings : List String → String

/-! ## Signing with the keys of the node -/

/-- `make_nonce`, on a random word. -/
def makeNonce (noncePrefix : Option String) (random : U32) : String :=
  noncePrefix.getD "nonce" ++ "_" ++ toString random.toNat

namespace Platform

variable (P : Platform)

/-- `sign_with_node_keys`, on what `ensure_keypair_on_disk` returns. -/
def signWithNodeKeys (keypair : Except String (Bytes × Bytes)) (uuid : String) (nowMs : U64)
    (payload : Bytes) (payloadType : String) (config : SignEnvelopeConfig) :
    Except AnyhowError SignedEnvelope := do
  let (pubBytes, skBytes) ← anyhow keypair
  P.signWithExistingKeypair uuid nowMs payload payloadType config pubBytes skBytes

/-- `sign_payload_default`. The nonce and the time are in the configuration, so that nothing is
filled in for them. -/
def signPayloadDefault (keypair : Except String (Bytes × Bytes)) (random : U32) (nowMs : U64)
    (payload : Bytes) (payloadType : String) (noncePrefix : Option String) :
    Except AnyhowError Bytes := do
  let config : SignEnvelopeConfig :=
    { nonce := some (makeNonce noncePrefix random), timestamp := some nowMs }
  let signed ← withContext "failed to sign payload with node keys"
    (P.signWithNodeKeys keypair "" nowMs payload payloadType config)
  return signed.bytes

end Platform

/-! ## Handshakes -/

structure HandshakeState where
  attempts : U8
  /-- In nanoseconds of the monotonic clock; it can lie before the clock's start. -/
  lastAttempt : ℤ
  confirmed : Bool

/-- A node and its handshakes. -/
structure Machine (H : Type) where
  node : Node H
  handshakeStates : Table String HandshakeState

/-- What a handler finds around it: the wall clock, random words and the keys on disk. -/
structure Surroundings where
  wallMs : U64
  random : U32
  nonceRandom : U32
  keypair : Except String (Bytes × Bytes)

variable {H : Type} (P : MachinePlatform)

/-- `ensure_handshake_state` and the confirmation every caller makes: an entry that is new is due at
once. -/
def confirmHandshake (now : Instant) (states : Table String HandshakeState) (peer : String) :
    Table String HandshakeState :=
  let state := (states.lookup peer).getD ⟨0, (now : ℤ) - Duration.fromSecs 3, false⟩
  states.insert peer { state with confirmed := true }

/-- `handshake_request`, with the bytes it sends back. -/
def handshakeRequest (env : Surroundings) (s : Machine H) (peer : String) (request : Bytes) :
    Machine H × Bytes :=
  let errorResponse := P.buildHandshake 0 0 "" ""
  match verifySignedMessage P.toNodePlatform s.node request peer with
  | (none, n) => ({ s with node := n }, errorResponse)
  | (some verified, n) =>
    match P.rootAsHandshake verified.payload with
    | .ok () =>
      let response := P.buildHandshake env.random env.wallMs "beemesh/1.0" peer
      let config : SignEnvelopeConfig :=
        { nonce := some ("handshake_resp_" ++ toString env.nonceRandom.toNat)
          timestamp := some env.wallMs }
      let s' : Machine H := ⟨n, confirmHandshake n.now s.handshakeStates peer⟩
      match P.signWithNodeKeys env.keypair "" env.wallMs response "handshake" config with
      | .ok signed => (s', signed.bytes)
      | .error _ => (s', errorResponse)
    | .error _ => ({ s with node := n }, errorResponse)

/-- `handshake_response`. -/
def handshakeResponse (s : Machine H) (peer : String) (response : Bytes) : Machine H :=
  match verifySignedMessage P.toNodePlatform s.node response peer with
  | (none, n) => { s with node := n }
  | (some verified, n) =>
    match P.rootAsHandshake verified.payload with
    | .ok () => ⟨n, confirmHandshake n.now s.handshakeStates peer⟩
    | .error _ => { s with node := n }

/-! ## Receiving -/

/-- Where a message comes in. -/
inductive Channel
  | handler (handler : Handler)
  | handshakeRequest
  | handshakeResponse
  /-- The answer to an apply or a delete request, which is logged and nothing else. -/
  | applyResponse
  | deleteResponse
  deriving DecidableEq

/-- What comes of a message. -/
structure Received (H : Type) where
  machine : Machine H
  act : Option Act := none

def receive (env : Surroundings) (s : Machine H) (channel : Channel) (peer : String)
    (bytes : Bytes) : Received H :=
  match channel with
  | .handler handler =>
    let handled := dispatch P.toNodePlatform s.node handler env.wallMs peer bytes
    { machine := { s with node := handled.node }, act := handled.act }
  | .handshakeRequest => { machine := (handshakeRequest P env s peer bytes).1 }
  | .handshakeResponse => { machine := handshakeResponse P s peer bytes }
  | .applyResponse | .deleteResponse => { machine := s }

/-- What is sent to the waiting capacity queries. -/
def Received.sent (r : Received H) : List (ℕ × String) :=
  match r.act with
  | some (.forward _ payload observers) => observers.map fun observer => (observer, payload)
  | _ => []

/-! ## Unauthenticated content -/

/-- The bytes are an envelope whose signature verifies, seen before or not. -/
def Platform.Authentic (P : Platform) (bytes : Bytes) : Prop :=
  ∃ o, P.openEnvelope bytes = .ok o ∧ P.checkSignature o = .ok ()

/-- A message left the machine's reservations, workloads, owners, providers and handshakes, spawned
no task, and told the waiting queries nothing. -/
structure Unaffected (s : Machine H) (r : Received H) : Prop where
  reservations : r.machine.node.verifier = s.node.verifier
  workloads : r.machine.node.host = s.node.host
  deleteTasks : r.machine.node.deleteTasks = s.node.deleteTasks
  owners : r.machine.node.manifestOwners = s.node.manifestOwners
  providers : r.machine.node.localProviders = s.node.localProviders
  handshakes : r.machine.handshakeStates = s.handshakeStates
  sent : r.sent = []

/-- The bytes answer a capacity query that waits for them. -/
def AnswersQuery (P : NodePlatform) (n : Node H) (bytes : Bytes) : Prop :=
  ∃ reply observers, P.rootAsCapacityReply bytes = .ok reply ∧
    n.pendingQueries.lookup (reply.requestId.getD "") = some observers ∧ observers ≠ []

/-- What verifies is authentic. -/
theorem authentic_of_verified {P : Platform} {store : NonceStore} {now : Instant} {bytes : Bytes}
    {window : Duration} {peer : String} {parts : VerifiedEnvelopeParts}
    (h : (P.verifyFlatbufferEnvelopeForPeer store now bytes window peer).1 = .ok parts) :
    P.Authentic bytes := by
  obtain ⟨o, hopen, -, hsig, -⟩ := verify_ok_iff.mp h
  exact ⟨o, hopen, hsig⟩

/-- A change of the nonce store alone, with nothing done, leaves a machine unaffected. -/
theorem Unaffected.of_nonceStore (s : Machine H) (store : NonceStore) {act : Option Act}
    (hact : act = none) :
    Unaffected s ⟨{ s with node := { s.node with nonceStore := store } }, act⟩ := by
  subst hact
  exact ⟨rfl, rfl, rfl, rfl, rfl, rfl, rfl⟩

/-- Verifying what is not authentic fails, and leaves the nonce store at most. -/
theorem verifySignedMessage_of_not_authentic {P : NodePlatform} {n : Node H} {bytes : Bytes}
    (h : ¬ P.Authentic bytes) (peer : String) :
    ∃ store, verifySignedMessage P n bytes peer = (none, { n with nonceStore := store }) := by
  refine ⟨_, Prod.ext ?_ (verifySignedMessage_snd P n bytes peer)⟩
  cases hparts : (verifySignedMessage P n bytes peer).1 with
  | none => rfl
  | some parts =>
    exact absurd (authentic_of_verified ((verifySignedMessage_eq_some_iff P).mp hparts)) h

theorem verifiedParts_of_not_authentic {P : NodePlatform} {n : Node H} {bytes : Bytes}
    (h : ¬ P.Authentic bytes) (handler : Handler) (peer : String) :
    verifiedParts P n handler peer bytes = none := by
  obtain ⟨store, hverify⟩ := verifySignedMessage_of_not_authentic (n := n) h peer
  rw [verifiedParts, hverify]
  exact ite_self none

/-- The handlers that verify do nothing with what is not authentic. -/
theorem Dispatched.of_not_authentic {P : NodePlatform} {n : Node H} {wallMs : U64} {peer : String}
    {bytes : Bytes} {handler : Handler} {h : Handled H}
    (hd : Dispatched P n wallMs peer bytes handler h) (hunsigned : ¬ P.Authentic bytes)
    (hhandler : handler ≠ .schedulerResponse) :
    h.act = none ∧ ∃ store, h.node = { n with nonceStore := store } := by
  have hnone := verifiedParts_of_not_authentic (n := n) hunsigned handler peer
  cases hd with
  | quiet handler response => exact ⟨rfl, _, received_eq P n handler peer bytes⟩
  | forwardResponse hreply requestId payload => exact absurd rfl hhandler
  | answer hhandler hparts hreq hfresh => exact nomatch hnone.symm.trans hparts
  | forward hparts hreq hreply requestId payload => exact nomatch hnone.symm.trans hparts
  | apply hparts => exact nomatch hnone.symm.trans hparts
  | delete hparts hreq task htask response => exact nomatch hnone.symm.trans hparts

/-- A scheduler response changes nothing, and tells the queries something when it answers one. -/
theorem receive_schedulerResponse (env : Surroundings) (s : Machine H) (peer : String)
    (bytes : Bytes) :
    (receive P env s (.handler .schedulerResponse) peer bytes).machine = s ∧
      ((receive P env s (.handler .schedulerResponse) peer bytes).sent = [] ↔
        ¬ AnswersQuery P.toNodePlatform s.node bytes) := by
  simp only [receive, dispatch, schedulerResponse, AnswersQuery, Received.sent]
  cases P.rootAsCapacityReply bytes with
  | error e => simp
  | ok reply =>
    simp only [notifyCapacityObservers, Except.ok.injEq, exists_and_left, exists_eq_left']
    cases s.node.pendingQueries.lookup (reply.requestId.getD "") with
    | none => simp
    | some observers => simp

/-- **Unauthenticated content has no effect**, on every path but one: the answer to a scheduler
request is told to the queries that wait for it, whoever made it up. -/
theorem unauthenticated_unaffected_iff (env : Surroundings) (s : Machine H) (channel : Channel)
    (peer : String) (bytes : Bytes) (h : ¬ P.Authentic bytes) :
    Unaffected s (receive P env s channel peer bytes) ↔
      ¬ (channel = .handler .schedulerResponse ∧
        AnswersQuery P.toNodePlatform s.node bytes) := by
  by_cases hchannel : channel = .handler .schedulerResponse
  · subst hchannel
    obtain ⟨hmachine, hsent⟩ := receive_schedulerResponse P env s peer bytes
    simp only [true_and, ← hsent]
    refine ⟨Unaffected.sent, fun hnothing => ?_⟩
    constructor <;> first | exact hnothing | rw [hmachine]
  · simp only [hchannel, false_and, not_false_eq_true, iff_true]
    obtain ⟨store, hverify⟩ :=
      verifySignedMessage_of_not_authentic (P := P.toNodePlatform) (n := s.node) h peer
    cases channel with
    | handler handler =>
      obtain ⟨hact, store', hnode⟩ :=
        (dispatch_dispatched P.toNodePlatform s.node handler env.wallMs peer bytes).of_not_authentic
          h fun hhandler => hchannel (hhandler ▸ rfl)
      simp only [receive, hnode]
      exact .of_nonceStore s store' hact
    | handshakeRequest =>
      simp only [receive, handshakeRequest, hverify]
      exact .of_nonceStore s store rfl
    | handshakeResponse =>
      simp only [receive, handshakeResponse, hverify]
      exact .of_nonceStore s store rfl
    | applyResponse => exact ⟨rfl, rfl, rfl, rfl, rfl, rfl, rfl⟩
    | deleteResponse => exact ⟨rfl, rfl, rfl, rfl, rfl, rfl, rfl⟩

/-! ## On the reference node -/

def handshakeCodec : Codec (U32 × U64 × String × String) :=
  (Codec.bitVec 32).prod ((Codec.bitVec 64).prod (Codec.string.prod Codec.string))

/-- A platform of the machine over one of the node: tables field by field, peers under any name that
is not empty. -/
def referenceMachine (P : NodePlatform) : MachinePlatform where
  toNodePlatform := P
  rootAsHandshake bs := (readOr "invalid flatbuffer" (handshakeCodec.read bs)).map fun _ => ()
  buildHandshake nonce timestamp version signature :=
    handshakeCodec.write (nonce, timestamp, version, signature)
  buildDeleteRequest manifestId operationId originPeer force :=
    -- A first byte that no envelope starts with.
    0xFF :: (deleteRequestCodec.prod Codec.string).write
      (⟨some manifestId, some operationId, force⟩, originPeer)
  parsePeerId peer := if peer = "" then .error "empty peer id" else .ok peer
  debugStrings strings :=
    "[" ++ ", ".intercalate (strings.map fun s => "\"" ++ s ++ "\"") ++ "]"

/-- Where nobody has signed anything, nothing is authentic. -/
theorem not_authentic_of_no_signatures (bytes : Bytes) :
    ¬ (referencePlatform fun _ _ => false).Authentic bytes := by
  rintro ⟨o, -, hsig⟩
  rw [checkSignature_ok_iff, referencePlatform_verifyEnvelope] at hsig
  exact nomatch hsig

/-- A quiet moment at the start of the epoch, with the keys of the node on disk. -/
def quietSurroundings : Surroundings := ⟨0, 0, 0, .ok ([7], [7])⟩

/-- The reference node with a query that waits for answers to request `q`. -/
def queryingMachine : Machine Pods where
  node := { referenceNode with pendingQueries := (∅ : Table String (List ℕ)).insert "q" [0] }
  handshakeStates := ∅

/-- An answer to request `q`, signed by nobody. -/
def unsignedReply : Bytes := capacityReplyCodec.write ⟨some "q", some "key"⟩

/-- Sent as gossip, the unsigned answer has no effect. -/
theorem unauthenticated_unaffected_gossipsub :
    let P := referenceMachine (referenceNodePlatform fun _ _ => false)
    ¬ P.Authentic unsignedReply ∧
      Unaffected queryingMachine
        (receive P quietSurroundings queryingMachine (.handler .gossipsub) "p" unsignedReply) :=
  have hunsigned := not_authentic_of_no_signatures unsignedReply
  ⟨hunsigned, (unauthenticated_unaffected_iff (referenceMachine
    (referenceNodePlatform fun _ _ => false)) quietSurroundings queryingMachine
    (.handler .gossipsub) "p" unsignedReply hunsigned).mpr fun h => by cases h.1⟩

/-- Sent as a scheduler response, it reaches the waiting query. -/
theorem unauthenticated_response_sent :
    let P := referenceMachine (referenceNodePlatform fun _ _ => false)
    let received := receive P quietSurroundings queryingMachine (.handler .schedulerResponse) "p"
      unsignedReply
    ¬ P.Authentic unsignedReply ∧ received.sent = [(0, "p:key")] ∧
      ¬ Unaffected queryingMachine received := by
  intro P received
  have hreply : P.rootAsCapacityReply unsignedReply = .ok ⟨some "q", some "key"⟩ :=
    referenceNodePlatform_rootAsCapacityReply _ _
  have hquery : queryingMachine.node.pendingQueries.lookup "q" = some [0] := rfl
  have hsent : received.sent = [(0, "p:key")] := by
    simp only [received, receive, dispatch, schedulerResponse, hreply, Option.getD_some,
      notifyCapacityObservers, hquery, Received.sent]
    decide
  refine ⟨not_authentic_of_no_signatures unsignedReply, hsent, ?_⟩
  intro h
  exact absurd (hsent.symm.trans h.sent) (List.cons_ne_nil _ _)

end Beemesh

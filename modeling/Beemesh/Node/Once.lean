import Beemesh.Envelope.Replay
import Beemesh.Node.Trace

/-!
# Acting on a message once

Replay protection is kept for each peer that delivers a message and for a window of time, and only
capacity requests are looked at for their age. A message that comes back through another peer, or
after the window, is acted on again. Within these limits a node acts on a message once, over every
run and on whichever handlers it is delivered.

## Main definitions

* `Trace.uses`: the acts on a message, and the delete tasks waiting for it
* `Ignores`: a handler does nothing with a message, whoever delivers it
* `Remembered`: the node has accepted a message for a peer within the window
* `Shielded`: a delivery of a message in use is ignored or remembered

## Main results

* `acted_at_most_once`: in a run whose deliveries are shielded a node acts on a message once
-/

namespace Beemesh

variable {H : Type} (P : NodePlatform)

/-- The acts on a message so far, and the delete tasks waiting for it. -/
def Trace.uses (s : Trace H) (e : Bytes) : ℕ :=
  s.log.countP (·.cause = some e) + s.node.deleteTasks.countP (·.request = e)

/-- The handler does nothing with the message, whoever delivers it: it does not schedule, the
message is not for it, or is a capacity request too old by the wall clock. -/
def Ignores (n : Node H) (wallMs : U64) (bytes : Bytes) : Handler → Prop
  | .schedulerRequest => n.schedulingDisabled = true ∨
    ∀ e req, P.rootAsEnvelope bytes = .ok e →
      P.rootAsCapacityRequest e.content.payload = .ok req → stale wallMs e.content.ts = true
  | .schedulerResponse => ∀ reply, P.rootAsCapacityReply bytes ≠ .ok reply
  | .gossipsub => ∀ e, P.rootAsEnvelope bytes = .ok e →
    match P.rootAsCapacityRequest e.content.payload with
    | .ok _ => stale wallMs e.content.ts = true
    | .error _ => ∀ reply, P.rootAsCapacityReply e.content.payload ≠ .ok reply
  | .apply => ∀ e req, P.rootAsEnvelope bytes = .ok e →
    P.rootAsApplyRequest e.content.payload ≠ .ok req
  | .delete => ∀ e req, P.rootAsEnvelope bytes = .ok e →
    P.rootAsDeleteRequest e.content.payload ≠ .ok req

/-- The message has a nonce, and the node has accepted it for the peer within the window. -/
def Remembered (s : Trace H) (e : Bytes) (peer : String) : Prop :=
  (∀ env, P.rootAsEnvelope e = .ok env → env.content.nonce ≠ "") ∧
    ∃ acc ∈ s.accepted, acc.bytes = e ∧ acc.peer = peer ∧ s.node.now ≤ acc.time + nonceWindow

/-- When the action delivers a message that is in use, its handler ignores it, or verifies it and it
is remembered for the peer. -/
def Shielded (e : Bytes) (s : Trace H) (a : Action H) : Prop :=
  ∀ handler wallMs peer, a = .deliver handler wallMs peer e → 0 < s.uses e →
    Ignores P s.node wallMs e handler ∨ handler.verifies s.node = true ∧ Remembered P s e peer

/-! ## Inert deliveries -/

/-- The outcome has no act and spawned no task. -/
structure Inert (n : Node H) (h : Handled H) : Prop where
  act : h.act = none
  deleteTasks : h.node.deleteTasks = n.deleteTasks

variable {P} {n : Node H} {handler : Handler} {wallMs : U64} {peer : String} {bytes : Bytes}
  {h : Handled H}

/-- What is not verified is not acted on, by a handler that verifies. -/
theorem Dispatched.inert_of_unverified (hd : Dispatched P n wallMs peer bytes handler h)
    (hverifies : handler.verifies n = true)
    (hnone : verifiedParts P n handler peer bytes = none) : Inert n h := by
  cases hd with
  | quiet handler response => exact ⟨rfl, received_deleteTasks P n _ _ _⟩
  | answer hhandler hparts hreq hfresh => exact nomatch hnone.symm.trans hparts
  | forwardResponse hreply requestId payload => exact nomatch hverifies
  | forward hparts hreq hreply requestId payload => exact nomatch hnone.symm.trans hparts
  | apply hparts => exact nomatch hnone.symm.trans hparts
  | delete hparts hreq task htask response => exact nomatch hnone.symm.trans hparts

/-- The envelope of verified parts. -/
theorem verifiedParts_envelope {parts : VerifiedEnvelopeParts}
    (hparts : verifiedParts P n handler peer bytes = some parts) :
    handler.verifies n = true ∧ ∃ e, P.rootAsEnvelope bytes = .ok e ∧
      e.content.payload = parts.payload ∧ e.content.ts = parts.timestampMs := by
  obtain ⟨hverifies, hok⟩ := (verifiedParts_eq_some_iff P).mp hparts
  obtain ⟨o, hopen, -, -, rfl⟩ := verify_ok_iff.mp hok
  exact ⟨hverifies, o.envelope, (openEnvelope_ok_iff.mp hopen).1, rfl, rfl⟩

theorem applyRequest_inert {n : Node H} {request ownerPubkey : Bytes}
    (h : ∀ req, P.rootAsApplyRequest request ≠ .ok req) :
    (applyRequest P n request ownerPubkey).act = none ∧
      (applyRequest P n request ownerPubkey).node = n := by
  rw [applyRequest]
  cases hreq : P.rootAsApplyRequest request with
  | error e => exact ⟨rfl, rfl⟩
  | ok req => exact absurd hreq (h req)

/-- What the handler ignores is not acted on. -/
theorem Dispatched.inert_of_ignores (hd : Dispatched P n wallMs peer bytes handler h)
    (hignores : Ignores P n wallMs bytes handler) : Inert n h := by
  cases hd with
  | quiet handler response => exact ⟨rfl, received_deleteTasks P n _ _ _⟩
  | answer hhandler hparts hreq hfresh =>
    obtain ⟨hverifies, e, he, hpayload, hts⟩ := verifiedParts_envelope hparts
    rw [← hpayload] at hreq
    rw [← hts] at hfresh
    rcases hhandler with rfl | rfl
    · rcases hignores with hdisabled | hstale
      · simp [Handler.verifies, hdisabled] at hverifies
      · exact absurd (hfresh.symm.trans (hstale e _ he hreq)) Bool.false_ne_true
    · have hstale := hignores e he
      rw [hreq] at hstale
      exact absurd (hfresh.symm.trans hstale) Bool.false_ne_true
  | forwardResponse hreply requestId payload => exact absurd hreply (hignores _)
  | forward hparts hreq hreply requestId payload =>
    obtain ⟨-, e, he, hpayload, -⟩ := verifiedParts_envelope hparts
    have hnone := hignores e he
    rw [hpayload, hreq] at hnone
    exact absurd hreply (hnone _)
  | apply hparts =>
    obtain ⟨-, e, he, hpayload, -⟩ := verifiedParts_envelope hparts
    obtain ⟨hact, hnode⟩ := applyRequest_inert (n := received P n .apply peer bytes)
      fun req hreq => hignores e req he (hpayload ▸ hreq)
    exact ⟨hact, (congrArg Node.deleteTasks hnode).trans (received_deleteTasks P n _ _ _)⟩
  | delete hparts hreq task htask response =>
    obtain ⟨-, e, he, hpayload, -⟩ := verifiedParts_envelope hparts
    exact absurd hreq (hpayload ▸ hignores e _ he)

/-! ## Uses -/

section Uses

variable {s : Trace H} {e : Bytes}

/-- The uses after a step: its record, the uses in the log, and the tasks that wait. -/
theorem uses_traceStep (s : Trace H) (a : Action H) (e : Bytes) :
    (traceStep P s a).uses e =
      (if a.cause s.node = some e ∧ (step P s.node a).act.isSome then 1 else 0) +
        s.log.countP (·.cause = some e) +
        (step P s.node a).node.deleteTasks.countP (·.request = e) := by
  simp only [Trace.uses, traceStep, Action.record, List.countP_append]
  cases (step P s.node a).act with
  | none => simp
  | some act => by_cases hcause : a.cause s.node = some e <;> simp [hcause]

/-- A delivery uses its own message at most once more. -/
theorem uses_deliver_le (handler : Handler) (wallMs : U64) (peer : String) (bytes : Bytes) :
    (traceStep P s (.deliver handler wallMs peer bytes)).uses e ≤
      s.uses e + if bytes = e then 1 else 0 := by
  have hd := (dispatch_dispatched P s.node handler wallMs peer bytes).delivered
  have hcause : (Action.deliver (H := H) handler wallMs peer bytes).cause s.node = some bytes := rfl
  rw [uses_traceStep, hcause, Trace.uses]
  simp only [Option.some.injEq, step]
  rcases hd.deleteTasks with htasks | ⟨hact, task, rfl, htasks⟩
  · rw [htasks]
    by_cases he : bytes = e
    · simp only [he, true_and, if_true]
      split_ifs <;> omega
    · simp [he]
  · -- A spawned task waits for the message, and the handler has not acted.
    rw [htasks, hact, List.countP_append]
    by_cases he : task.request = e <;> simp [he]
    omega

/-- An inert delivery uses nothing. -/
theorem uses_deliver_of_inert {wallMs : U64}
    (hi : Inert s.node (dispatch P s.node handler wallMs peer bytes)) :
    (traceStep P s (.deliver handler wallMs peer bytes)).uses e = s.uses e := by
  rw [uses_traceStep, Trace.uses]
  simp only [step, hi.act, hi.deleteTasks]
  simp

/-- Running a task turns the task into at most one act. -/
theorem uses_runDelete_le (i : ℕ) : (traceStep P s (.runDelete i)).uses e ≤ s.uses e := by
  have hcore := congrArg Core.deleteTasks (step_core P s.node (.runDelete i) (by simp))
  rw [uses_traceStep, Trace.uses,
    show (step P s.node (.runDelete i)).node.deleteTasks = _ from hcore]
  cases htask : s.node.deleteTasks[i]? with
  | none =>
    have hlen := List.getElem?_eq_none_iff.mp htask
    simp [Action.cause, htask, List.eraseIdx_of_length_le hlen]
  | some task =>
    obtain ⟨hlt, hget⟩ := List.getElem?_eq_some_iff.mp htask
    -- The task leaves the list and at most its act enters the log.
    have hperm := (List.getElem_cons_eraseIdx_perm hlt).countP_eq (·.request = e)
    rw [hget, List.countP_cons] at hperm
    simp only [Action.cause, htask, Option.map_some, Option.some.injEq]
    by_cases he : task.request = e
    · simp only [he, decide_true, if_true] at hperm
      split_ifs <;> omega
    · simp only [he, decide_false, Bool.false_eq_true, if_false] at hperm
      simp only [he, false_and, if_false]
      omega

/-- An action that is no delivery uses no message more. -/
theorem uses_traceStep_le (a : Action H)
    (ha : ∀ handler wallMs peer bytes, a ≠ .deliver handler wallMs peer bytes) :
    (traceStep P s a).uses e ≤ s.uses e := by
  have hcore := step_core P s.node a ha
  cases a with
  | deliver handler wallMs peer bytes => exact absurd rfl (ha _ _ _ _)
  | runDelete i => exact uses_runDelete_le i
  | _ =>
    rw [uses_traceStep, Trace.uses,
      show (step P s.node _).node.deleteTasks = _ from congrArg Core.deleteTasks hcore]
    simp [Action.cause, Node.core]

end Uses

/-! ## Nonces -/

section Nonces

variable {s : Trace H}

/-- A nonce that is live until a deadline stays so. -/
theorem liveUntil_traceStep {peer nonce : String} {deadline : Instant} (a : Action H)
    (hlive : LiveUntil nonceWindow peer nonce deadline ⟨s.node.nonceStore, s.node.now⟩) :
    LiveUntil nonceWindow peer nonce deadline
      ⟨(traceStep P s a).node.nonceStore, (traceStep P s a).node.now⟩ := by
  have hnow : s.node.now ≤ (step P s.node a).node.now :=
    (Nat.le_add_right _ _).trans_eq (step_now P s.node a).symm
  rw [traceStep]
  -- The store is as it was, or a message was verified on it.
  rcases step_nonceStore P s.node a with hstore | ⟨bytes, peer', hstore⟩
  · rw [hstore]
    intro now' hle huntil
    exact hlive now' (hnow.trans hle) huntil
  · rw [hstore]
    exact hlive.verify le_rfl hnow bytes peer'

/-- A message just accepted has its nonce live for the whole window. -/
theorem liveUntil_accepts {a : Action H} {acc : Acceptance} (h : a.accepts P s.node = some acc)
    {env : Envelope} (henv : P.rootAsEnvelope acc.bytes = .ok env)
    (hnonce : env.content.nonce ≠ "") :
    LiveUntil nonceWindow acc.peer env.content.nonce (acc.time + nonceWindow)
      ⟨(traceStep P s a).node.nonceStore, (traceStep P s a).node.now⟩ := by
  obtain ⟨parts, hok, hstore, htime, hnow⟩ := accepts_spec P h
  rw [htime, traceStep, hstore]
  exact liveUntil_of_accepted hok henv hnonce hnow.ge

end Nonces

/-! ## At most once -/

variable (P) in
/-- A message is in use at most once, and as long as it is remembered for a peer its nonce is live
for that peer. -/
structure Once (e : Bytes) (s : Trace H) : Prop where
  uses : s.uses e ≤ 1
  live : ∀ acc ∈ s.accepted, acc.bytes = e → ∀ env, P.rootAsEnvelope e = .ok env →
    env.content.nonce ≠ "" →
      LiveUntil nonceWindow acc.peer env.content.nonce (acc.time + nonceWindow)
        ⟨s.node.nonceStore, s.node.now⟩

/-- A message that is remembered for a peer does not verify for it. -/
theorem Once.unverified {e : Bytes} {s : Trace H} (hs : Once P e s) {peer : String}
    (hremembered : Remembered P s e peer) (handler : Handler) :
    verifiedParts P s.node handler peer e = none := by
  obtain ⟨hnonce, acc, hacc, hbytes, rfl, hwindow⟩ := hremembered
  cases hparts : verifiedParts P s.node handler acc.peer e with
  | none => rfl
  | some parts =>
    obtain ⟨-, hok⟩ := (verifiedParts_eq_some_iff P).mp hparts
    obtain ⟨o, hopen, -⟩ := verify_ok_iff.mp hok
    have henv := (openEnvelope_ok_iff.mp hopen).1
    have hne := hnonce _ henv
    have hlive := hs.live acc hacc hbytes _ henv hne _ le_rfl hwindow
    exact absurd hok (not_accepted_of_live henv hne hlive parts)

/-- **A shielded step keeps a message in use at most once.** -/
theorem once_traceStep {e : Bytes} {s : Trace H} {a : Action H} (hguard : Shielded P e s a)
    (hs : Once P e s) : Once P e (traceStep P s a) := by
  refine ⟨?_, fun acc hacc hbytes env henv hnonce => ?_⟩
  · have hone := hs.uses
    by_cases ha : ∃ handler wallMs peer, a = .deliver handler wallMs peer e
    · obtain ⟨handler, wallMs, peer, rfl⟩ := ha
      have hd := dispatch_dispatched P s.node handler wallMs peer e
      rcases Nat.eq_zero_or_pos (s.uses e) with hzero | hpos
      · -- The first use.
        have hle := uses_deliver_le (P := P) (s := s) (e := e) handler wallMs peer e
        rw [if_pos rfl] at hle
        omega
      · -- In use already: the delivery is inert.
        have hinert : Inert s.node (dispatch P s.node handler wallMs peer e) := by
          rcases hguard handler wallMs peer rfl hpos with hignores | ⟨hverifies, hremembered⟩
          · exact hd.inert_of_ignores hignores
          · exact hd.inert_of_unverified hverifies (hs.unverified hremembered handler)
        exact (uses_deliver_of_inert hinert).trans_le hone
    · push Not at ha
      refine le_trans ?_ hone
      cases a with
      | deliver handler wallMs peer bytes =>
        have hle := uses_deliver_le (P := P) (s := s) (e := e) handler wallMs peer bytes
        have hne : bytes ≠ e := fun heq => ha handler wallMs peer (heq ▸ rfl)
        rwa [if_neg hne] at hle
      | _ => exact uses_traceStep_le _ (by simp)
  -- An acceptance of this step, or an earlier one.
  · simp only [traceStep, List.mem_append, Option.mem_toList] at hacc
    rcases hacc with hnew | hold
    · subst hbytes
      exact liveUntil_accepts hnew henv hnonce
    · exact liveUntil_traceStep a (hs.live acc hold hbytes env henv hnonce)

/-- **At most once**: over every run of a node in which the deliveries of a message are shielded
once it is in use, the node acts on it at most once. -/
theorem acted_at_most_once (n : Node H) (htasks : n.deleteTasks = []) (e : Bytes)
    {acts : List (Action H)}
    (hguard : Run.Guarded (traceStep P) (Shielded P e) ⟨n, [], []⟩ acts) :
    (Run.run (traceStep P) ⟨n, [], []⟩ acts).log.countP (·.cause = some e) ≤ 1 := by
  have hinit : Once P e (⟨n, [], []⟩ : Trace H) := by
    refine ⟨?_, fun acc hacc => nomatch hacc⟩
    simp [Trace.uses, htasks]
  have hrun := hguard.invariant (fun s a hg hs => once_traceStep hg hs) hinit
  exact (Nat.le_add_right _ _).trans hrun.uses

/-! ## On the reference node -/

/-- The message of the bid. -/
def bidMessage : Bytes := capacityMessage (bid "m" 1800) "a"

theorem bidMessage_nonce {env : Envelope} (henv : trusting.rootAsEnvelope bidMessage = .ok env) :
    env.content.nonce = "a" := by
  have hread := referencePlatform_envelopeRoundTrip (fun key _ => key == [7])
  obtain rfl := Except.ok.inj ((hread _).symm.trans henv)
  rfl

/-- The bid has been accepted for the peer that delivered it. -/
theorem bidTrace_accepted : ⟨bidMessage, "p", 0⟩ ∈ bidTrace.accepted := by
  have hnonce : ¬ referenceNode.nonceStore.Live 0 nonceWindow "p" "a" := by decide
  have hverifies : Handler.gossipsub.verifies referenceNode = true := rfl
  obtain ⟨parts, hparts⟩ := verifiedParts_sealed hverifies hnonce
    (capacityRequestCodec.write (bid "m" 1800))
  have haccepts : bidAction.accepts trusting referenceNode = some ⟨bidMessage, "p", 0⟩ := by
    rw [bidAction, Action.accepts, capacityMessage, hparts]
    rfl
  exact List.mem_append_left _ (Option.mem_toList.mpr haccepts)

/-- The bid comes again from the same peer, within the window. -/
theorem acted_at_most_once_reference :
    let acts := [bidAction, .tick (Duration.fromSecs 299), bidAction]
    Run.Guarded (traceStep trusting) (Shielded trusting bidMessage) ⟨referenceNode, [], []⟩ acts ∧
      (Run.run (traceStep trusting) ⟨referenceNode, [], []⟩ acts).log.countP
        (·.cause = some bidMessage) ≤ 1 := by
  intro acts
  let s := traceStep trusting bidTrace (.tick (Duration.fromSecs 299))
  have hremembered : ∃ acc ∈ s.accepted, acc.bytes = bidMessage ∧ acc.peer = "p" ∧
      s.node.now ≤ acc.time + nonceWindow := by
    have hnow : s.node.now = bidNode.now + Duration.fromSecs 299 :=
      (node_traceStep bidTrace_node).symm ▸ rfl
    refine ⟨⟨bidMessage, "p", 0⟩, mem_accepted_of_mem _ bidTrace_accepted, rfl, rfl, ?_⟩
    rw [hnow]
    decide
  have hguard : Run.Guarded (traceStep trusting) (Shielded trusting bidMessage)
      ⟨referenceNode, [], []⟩ acts := by
    refine ⟨?_, ?_, ?_, trivial⟩
    · intro handler wallMs peer ha hpos
      exact absurd hpos (by decide)
    · intro handler wallMs peer ha
      exact nomatch ha
    · intro handler wallMs peer ha hpos
      obtain ⟨rfl, -, rfl, -⟩ := Action.deliver.inj ha
      exact .inr ⟨rfl, fun env henv => bidMessage_nonce henv ▸ (by decide), hremembered⟩
  exact ⟨hguard, acted_at_most_once referenceNode rfl bidMessage hguard⟩

/-- The bid comes again from another peer, and the node acts on it again. -/
theorem acted_twice :
    (Run.run (traceStep trusting) ⟨referenceNode, [], []⟩
      [.deliver .gossipsub 0 "p" bidMessage, .deliver .gossipsub 0 "q" bidMessage]).log.countP
        (·.cause = some bidMessage) = 2 := by
  have hstep : step trusting bidNode (.deliver .gossipsub 0 "q" bidMessage) =
      answerCapacityRequest (bidNode.noted "q" "a") (bid "m" 1800) :=
    step_capacityMessage (by decide) _
  obtain ⟨hact, -⟩ := answerCapacityRequest_granted (bidNode.noted "q" "a") (bid "m" 1800)
    "beemesh-free-capacity:m:1" "m" rfl (by decide) (by decide) (by decide)
  rw [← hstep] at hact
  have hrun : Run.run (traceStep trusting) ⟨referenceNode, [], []⟩
      [.deliver .gossipsub 0 "p" bidMessage, .deliver .gossipsub 0 "q" bidMessage] =
        traceStep trusting bidTrace (.deliver .gossipsub 0 "q" bidMessage) := rfl
  have hcause : bidAction.cause referenceNode = some bidMessage := rfl
  have hcause' : (Action.deliver .gossipsub 0 "q" bidMessage).cause bidNode = some bidMessage := rfl
  rw [hrun, log_traceStep bidTrace_node hact, bidTrace_log, hcause, hcause']
  simp

end Beemesh

import Beemesh.Node.Reference

/-!
# Runs of a node, with what it did

A run keeps a log of the acts of the node, with the message each was for and its time, and of the
envelopes it accepted. From the log it is read off what a deployment rests on: an apply request
deploys under a reservation that was granted for its manifest less than the hold duration before.
One grant can serve any number of them.

## Main definitions

* `Record`, `Acceptance`, `Trace`, `traceStep`: the log and the run that writes it
* `Granted`: every reservation held is one that the log says was granted

## Main results

* `deploy_backed`: a deployment by message comes after a grant for its manifest, in time
-/

namespace Beemesh

/-- An act of the node, the message it was for and its time. -/
structure Record where
  cause : Option Bytes
  act : Act
  time : Instant

/-- A message that verified for the peer that delivered it, and when. -/
structure Acceptance where
  bytes : Bytes
  peer : String
  time : Instant

/-- A node with its log and the messages it accepted, the latest first. -/
structure Trace (H : Type) where
  node : Node H
  log : List Record := []
  accepted : List Acceptance := []

variable {H : Type} (P : NodePlatform)

/-- The message that an action makes the node accept. -/
def Action.accepts (n : Node H) : Action H → Option Acceptance
  | .deliver handler _ peer bytes =>
    (verifiedParts P n handler peer bytes).map fun _ => ⟨bytes, peer, n.now⟩
  | .verify peer bytes =>
    (verifySignedMessage P n bytes peer).1.map fun _ => ⟨bytes, peer, n.now⟩
  | _ => none

/-- The record of an action, if the node acted. -/
def Action.record (n : Node H) (a : Action H) : Option Record :=
  (step P n a).act.map fun act => ⟨a.cause n, act, n.now⟩

/-- An accepted message has verified, and its nonce has been recorded. -/
theorem accepts_spec {n : Node H} {a : Action H} {acc : Acceptance}
    (h : a.accepts P n = some acc) :
    ∃ parts,
      (P.verifyFlatbufferEnvelopeForPeer n.nonceStore n.now acc.bytes nonceWindow acc.peer).1 =
          .ok parts ∧
        (step P n a).node.nonceStore =
          (P.verifyFlatbufferEnvelopeForPeer n.nonceStore n.now acc.bytes nonceWindow acc.peer).2 ∧
        acc.time = n.now ∧ (step P n a).node.now = n.now := by
  cases a with
  | deliver handler wallMs peer bytes =>
    obtain ⟨parts, hparts, rfl⟩ := Option.map_eq_some_iff.mp h
    obtain ⟨hverifies, hok⟩ := (verifiedParts_eq_some_iff P).mp hparts
    have hd := (dispatch_dispatched P n handler wallMs peer bytes).delivered
    refine ⟨parts, hok, hd.nonceStore.trans ?_, rfl, hd.now⟩
    rw [received, if_pos hverifies, verifySignedMessage_snd]
  | verify peer bytes =>
    obtain ⟨parts, hparts, rfl⟩ := Option.map_eq_some_iff.mp h
    exact ⟨parts, (verifySignedMessage_eq_some_iff P).mp hparts, rfl, rfl, rfl⟩
  | _ => cases h

def traceStep (s : Trace H) (a : Action H) : Trace H where
  node := (step P s.node a).node
  log := (a.record P s.node).toList ++ s.log
  accepted := (a.accepts P s.node).toList ++ s.accepted

/-! ## Deployments and grants -/

/-- The record grants a reservation for the manifest, which is held at `now`. -/
def Record.Grants (g : Record) (m : String) (now : Instant) : Prop :=
  (∃ id, g.act = .reserve id m) ∧ g.time ≤ now ∧ now < g.time + reservationHoldDuration

/-- Every reservation of the node is one that was granted and logged. -/
def Granted (s : Trace H) : Prop :=
  ∀ id e, s.node.verifier.reservations.lookup id = some e →
    ∃ g ∈ s.log, (∃ id m, g.act = .reserve id m ∧ e.manifestId = some m) ∧
      g.time ≤ s.node.now ∧ e.expiresAt = g.time + reservationHoldDuration

/-- Every deployment for a message stands in the log after a grant for its manifest that was still
held. -/
def Backing (log : List Record) : Prop :=
  ∀ later r earlier, log = later ++ r :: earlier → ∀ bytes m w, r.cause = some bytes →
    r.act = .deploy m w → ∃ g ∈ earlier, g.Grants m r.time

/-- What the log of a run says. -/
structure LogSound (s : Trace H) : Prop where
  granted : Granted s
  backing : Backing s.log

variable {P}

theorem mem_log_of_mem {s : Trace H} {g : Record} (a : Action H) (h : g ∈ s.log) :
    g ∈ (traceStep P s a).log := List.mem_append_right _ h

theorem mem_accepted_of_mem {s : Trace H} {acc : Acceptance} (a : Action H)
    (h : acc ∈ s.accepted) : acc ∈ (traceStep P s a).accepted := List.mem_append_right _ h

/-- An active reservation for the manifest has its grant in the log. -/
theorem Granted.grants {s : Trace H} (hs : Granted s) {m : String}
    (h : (s.node.verifier.hasActiveReservationForManifest s.node.now m).1 = true) :
    ∃ g ∈ s.log, g.Grants m s.node.now := by
  -- The check found an unexpired entry of the manifest; its grant is in the log.
  obtain ⟨⟨id, e⟩, hentry, hmanifest⟩ := List.any_eq_true.mp h
  obtain ⟨hlookup, hheld⟩ := lookup_prune_eq_some.mp (AList.mem_entries_iff.mp hentry)
  obtain ⟨g, hg, ⟨id', m', hact, hm'⟩, hle, hexpires⟩ := hs id e hlookup
  have hm : m' = m := Option.some.inj (hm'.symm.trans (beq_iff_eq.mp hmanifest))
  subst hm
  exact ⟨g, hg, ⟨id', hact⟩, hle, hexpires ▸ hheld⟩

/-- A step keeps every reservation it holds in the log. -/
theorem granted_traceStep {s : Trace H} (a : Action H) (hs : Granted s) :
    Granted (traceStep P s a) := by
  have hnow : s.node.now ≤ (traceStep P s a).node.now :=
    (Nat.le_add_right _ _).trans_eq (step_now P s.node a).symm
  -- A reservation that was there before has its grant in the log already.
  have hold {id : String} {e : CapacityReservation}
      (he : s.node.verifier.reservations.lookup id = some e) :
      ∃ g ∈ (traceStep P s a).log, (∃ id m, g.act = .reserve id m ∧ e.manifestId = some m) ∧
        g.time ≤ (traceStep P s a).node.now ∧ e.expiresAt = g.time + reservationHoldDuration := by
    obtain ⟨g, hg, hact, hle, hexpires⟩ := hs id e he
    exact ⟨g, mem_log_of_mem a hg, hact, hle.trans hnow, hexpires⟩
  intro id e he
  cases step_verifier P s.node a with
  | keeps hact hverifier =>
    rcases hverifier with hverifier | hverifier
    · exact hold (hverifier ▸ he)
    · have hpruned : (s.node.verifier.pruned s.node.now).reservations.lookup id = some e :=
        hverifier ▸ he
      exact hold (lookup_prune_eq_some.mp hpruned).1
  | grants req id' m hasked hid hm hact hroom hcall =>
    rcases reserveCapacity_granted hcall he with ⟨-, hmanifest, hexpires⟩ | hpruned
    · -- The reservation just granted: its record is the newest.
      refine ⟨⟨a.cause s.node, .reserve id' m, s.node.now⟩, ?_, ⟨id', m, rfl, hmanifest⟩, hnow,
        hexpires⟩
      exact List.mem_append_left _ (by simp [Action.record, hact])
    · exact hold (lookup_prune_eq_some.mp hpruned).1

/-- A step keeps every deployment backed. -/
theorem backing_traceStep {s : Trace H} (a : Action H) (hs : Granted s) (hb : Backing s.log) :
    Backing (traceStep P s a).log := by
  intro later r earlier hlog bytes m w hcause hact
  -- The record of this step, if it made one, is the first of the log.
  simp only [traceStep, Action.record] at hlog
  cases hstep : (step P s.node a).act with
  | none =>
    rw [hstep] at hlog
    exact hb later r earlier hlog bytes m w hcause hact
  | some act =>
    rw [hstep] at hlog
    cases later with
    | nil =>
      -- The deployment is the one of this step.
      obtain ⟨rfl, rfl⟩ := List.cons.inj hlog
      have hdeploy : (step P s.node a).act = some (.deploy m w) := hstep.trans (congrArg _ hact)
      exact hs.grants (step_deploy P hcause hdeploy)
    | cons r' later => exact hb later r earlier (List.cons.inj hlog).2 bytes m w hcause hact

/-- **Deployments are backed**: over every run of a node that starts without reservations, an apply
request deploys a manifest only after a grant for it, less than the hold duration later. The grant
may be the same for several of them. -/
theorem deploy_backed (n : Node H) (hempty : n.verifier.reservations = ∅) (acts : List (Action H))
    {later earlier : List Record} {r : Record}
    (hlog : (Run.run (traceStep P) ⟨n, [], []⟩ acts).log = later ++ r :: earlier) {bytes : Bytes}
    (hcause : r.cause = some bytes) {m w : String} (hact : r.act = .deploy m w) :
    ∃ g ∈ earlier, g.Grants m r.time := by
  have hinit : LogSound (⟨n, [], []⟩ : Trace H) := by
    refine ⟨fun id e he => ?_, fun later r earlier hnil => ?_⟩
    · rw [hempty] at he
      exact nomatch he
    · exact absurd hnil (by simp)
  have hstep (s : Trace H) (a : Action H) (hs : LogSound s) : LogSound (traceStep P s a) :=
    ⟨granted_traceStep a hs.granted, backing_traceStep a hs.granted hs.backing⟩
  have hrun : LogSound (Run.run (traceStep P) ⟨n, [], []⟩ acts) :=
    Run.run_invariant hstep acts hinit
  exact hrun.backing later r earlier hlog bytes m w hcause hact

/-! ## On the reference node -/

/-- A step that acts writes its record. -/
theorem log_traceStep {s : Trace H} {n : Node H} {a : Action H} {act : Act} (hs : s.node = n)
    (h : (step P n a).act = some act) :
    (traceStep P s a).log = ⟨a.cause n, act, n.now⟩ :: s.log := by
  subst hs
  simp [traceStep, Action.record, h]

theorem node_traceStep {s : Trace H} {n : Node H} {a : Action H} (hs : s.node = n) :
    (traceStep P s a).node = (step P n a).node := by
  subst hs
  rfl

/-- The reference node after it granted a bid for manifest `m`. -/
def bidTrace : Trace Pods := traceStep trusting ⟨referenceNode, [], []⟩ bidAction

theorem bidTrace_node : bidTrace.node = bidNode := (node_traceStep rfl).trans step_bidAction.2

theorem bidTrace_log :
    bidTrace.log =
      [⟨bidAction.cause referenceNode, .reserve "beemesh-free-capacity:m:1" "m", 0⟩] :=
  log_traceStep rfl step_bidAction.1

/-- The reference node after it also deployed it. -/
def deployedTrace : Trace Pods := traceStep trusting bidTrace (applyAction "b")

theorem deployedTrace_log :
    deployedTrace.log =
      ⟨(applyAction "b").cause bidNode, .deploy "m" "beemesh-m", 0⟩ :: bidTrace.log := by
  have hnonce : ¬ bidNode.nonceStore.Live 0 nonceWindow "p" "b" := by decide
  exact log_traceStep bidTrace_node (step_applyAction "b" rfl rfl hnonce).1

/-- The deployment on the reference node is backed by the bid. -/
theorem deploy_backed_reference :
    referenceNode.verifier.reservations = ∅ ∧
      (∃ bytes, deployedTrace.log = ⟨some bytes, .deploy "m" "beemesh-m", 0⟩ :: bidTrace.log) ∧
      ∃ g ∈ bidTrace.log, g.Grants "m" 0 := by
  have hrun : Run.run (traceStep trusting) ⟨referenceNode, [], []⟩ [bidAction, applyAction "b"] =
      deployedTrace := rfl
  have hlog : (Run.run (traceStep trusting) ⟨referenceNode, [], []⟩
      [bidAction, applyAction "b"]).log =
        [] ++ ⟨(applyAction "b").cause bidNode, .deploy "m" "beemesh-m", 0⟩ :: bidTrace.log := by
    rw [hrun, deployedTrace_log]
    rfl
  exact ⟨rfl, ⟨_, deployedTrace_log⟩, deploy_backed referenceNode rfl _ hlog rfl rfl⟩

/-- The act grants a reservation for the manifest. -/
def Act.reserves (m : String) : Act → Bool
  | .reserve _ m' => m' == m
  | _ => false

/-- The act deploys the manifest. -/
def Act.deploys (m : String) : Act → Bool
  | .deploy m' _ => m' == m
  | _ => false

/-- One grant serves two deployments, a second apply request under another nonce being enough. -/
theorem one_grant_two_deployments :
    let log := (Run.run (traceStep trusting) ⟨referenceNode, [], []⟩
      [bidAction, applyAction "b", applyAction "c"]).log
    log.countP (·.act.reserves "m") = 1 ∧ log.countP (·.act.deploys "m") = 2 := by
  have hnonce : ¬ bidNode.nonceStore.Live 0 nonceWindow "p" "b" := by decide
  obtain ⟨-, hcore, hregistry⟩ := step_applyAction (n := bidNode) "b" rfl rfl hnonce
  obtain ⟨happly, -, -⟩ := step_applyAction "c" hcore hregistry (by decide)
  have hnode : deployedTrace.node = (step trusting bidNode (applyAction "b")).node :=
    node_traceStep bidTrace_node
  intro log
  have hlog : log = _ :: deployedTrace.log := log_traceStep hnode happly
  rw [hlog, deployedTrace_log, bidTrace_log]
  decide

end Beemesh

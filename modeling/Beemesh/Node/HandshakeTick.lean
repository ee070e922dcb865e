import Beemesh.Node.Handshake
import Beemesh.Lib.Run

/-!
# The handshake tick

Once a second a node goes over its handshakes: it asks the peers that have not confirmed again, up
to three times, and gives them up after that. Yet a handshake comes into the table only through a
handler of a handshake message, which confirms it at once. So the tick never finds anything to do,
and since nobody else sends a request, no handshake ever takes place.

## Main definitions

* `handshakeRequestBytes`, `handshakeTick`: the branch of the node's loop
* `MachineAction`, `machineStep`: what bears on the handshakes of one node
* `Network`, `networkStep`: nodes and the handshake messages between them

## Main results

* `Machine.Settled.step`: every handshake in the table is confirmed
* `handshakeTick_of_settled`: the tick changes and sends nothing
* `handshakes_never_start`: in a network of any size, no handshake message is ever exchanged
-/

namespace Beemesh

open Run

variable {H : Type} (P : MachinePlatform)

/-! ## The tick -/

/-- The signed handshake request of a tick. -/
def handshakeRequestBytes (env : Surroundings) (localPeer : String) :
    Except AnyhowError Bytes := do
  let (pubBytes, skBytes) ← anyhow env.keypair
  let request := P.buildHandshake env.random env.wallMs "beemesh/1.0" localPeer
  let nonce := "handshake_req_" ++ toString env.random.toNat
  let canonical := P.buildEnvelopeCanonical request "handshake" nonce env.wallMs "ml-dsa-65" none
  let (sigB64, pubB64) ← P.signEnvelope skBytes pubBytes canonical
  return P.buildEnvelopeSigned request "handshake" nonce env.wallMs "ml-dsa-65" "ml-dsa-65" sigB64
    pubB64 none

/-- What a tick does: the machine it leaves, the requests it sends and the peers it gives up, which
stop being explicit peers of the gossip, too. -/
structure Ticked (H : Type) where
  machine : Machine H
  sent : List (String × Bytes) := []
  removed : List String := []

/-- The loop body of the tick, for one handshake. -/
def Ticked.entry (env : String → Surroundings) (t : Ticked H)
    (e : Sigma fun _ : String => HandshakeState) : Ticked H :=
  let now := t.machine.node.now
  if e.2.confirmed then t
  else if 3 ≤ e.2.attempts then { t with removed := t.removed ++ [e.1] }
  else if (Duration.fromSecs 2 : ℤ) ≤ (now : ℤ) - e.2.lastAttempt then
    match handshakeRequestBytes P (env e.1) t.machine.node.localPeer with
    | .ok bytes =>
      let state := { e.2 with attempts := e.2.attempts + 1, lastAttempt := now }
      let states := t.machine.handshakeStates.insert e.1 state
      { t with
        machine := { t.machine with handshakeStates := states }
        sent := t.sent ++ [(e.1, bytes)] }
    -- Without keys nothing is sent, and the attempt does not count.
    | .error _ => t
  else t

/-- The `handshake_interval` branch of the loop. -/
def handshakeTick (env : String → Surroundings) (s : Machine H) : Ticked H :=
  let t := s.handshakeStates.entries.foldl (Ticked.entry P env) { machine := s }
  let states := t.removed.foldl (fun states peer => states.erase peer) t.machine.handshakeStates
  { t with machine := { t.machine with handshakeStates := states } }

/-! ## One node -/

/-- What bears on the handshakes of a node: whatever it receives, on whatever path, the tick, and
time. -/
inductive MachineAction
  | receive (env : Surroundings) (channel : Channel) (peer : String) (bytes : Bytes)
  | tick (env : String → Surroundings)
  | elapse (d : Duration)

def Machine.elapse (s : Machine H) (d : Duration) : Machine H :=
  { s with node := { s.node with now := s.node.now + d } }

def machineStep (s : Machine H) : MachineAction → Machine H
  | .receive env channel peer bytes => (receive P env s channel peer bytes).machine
  | .tick env => (handshakeTick P env s).machine
  | .elapse d => s.elapse d

/-- Every handshake in the table is confirmed. -/
def Machine.Settled (s : Machine H) : Prop :=
  ∀ peer state, s.handshakeStates.lookup peer = some state → state.confirmed = true

variable {P} {s : Machine H}

/-- A handler confirms the handshake it adds. -/
theorem Machine.Settled.confirm (hs : s.Settled) (n : Node H) (now : Instant) (peer : String) :
    (⟨n, confirmHandshake now s.handshakeStates peer⟩ : Machine H).Settled := by
  intro peer' state hstate
  rcases eq_or_ne peer' peer with rfl | hne
  · rw [confirmHandshake, AList.lookup_insert] at hstate
    obtain rfl := Option.some.inj hstate
    rfl
  · exact hs peer' state ((AList.lookup_insert_ne hne).symm.trans hstate)

theorem Machine.Settled.handshakeRequest (hs : s.Settled) (env : Surroundings) (peer : String)
    (request : Bytes) : (handshakeRequest P env s peer request).1.Settled := by
  unfold Beemesh.handshakeRequest
  split
  · exact hs
  · next verified n _ =>
    split
    · -- Whether the answer can be signed does not matter.
      extract_lets
      split <;> exact hs.confirm n n.now peer
    · exact hs

theorem Machine.Settled.handshakeResponse (hs : s.Settled) (peer : String) (response : Bytes) :
    (handshakeResponse P s peer response).Settled := by
  unfold Beemesh.handshakeResponse
  split
  · exact hs
  · next verified n _ =>
    split
    · exact hs.confirm n n.now peer
    · exact hs

/-- **The tick has nothing to do**: where every handshake is confirmed, it changes nothing and sends
nothing. -/
theorem handshakeTick_of_settled (hs : s.Settled) (env : String → Surroundings) :
    handshakeTick P env s = { machine := s } := by
  have hentries : ∀ e ∈ s.handshakeStates.entries, e.2.confirmed = true := fun e he =>
    hs e.1 e.2 (AList.mem_entries_iff.mp he)
  have hloop : s.handshakeStates.entries.foldl (Ticked.entry P env) { machine := s } =
      { machine := s } := by
    generalize s.handshakeStates.entries = entries at hentries
    induction entries with
    | nil => rfl
    | cons e entries ih =>
      have hentry : Ticked.entry P env { machine := s } e = { machine := s } :=
        if_pos (hentries e List.mem_cons_self)
      rw [List.foldl_cons, hentry]
      exact ih fun e' he' => hentries e' (List.mem_cons_of_mem e he')
  rw [handshakeTick, hloop]
  rfl

/-- **Every handshake stays confirmed.** -/
theorem Machine.Settled.step (hs : s.Settled) (a : MachineAction) :
    (machineStep P s a).Settled := by
  cases a with
  | receive env channel peer bytes =>
    cases channel with
    | handler handler => exact hs
    | handshakeRequest => exact hs.handshakeRequest env peer bytes
    | handshakeResponse => exact hs.handshakeResponse peer bytes
    | applyResponse => exact hs
    | deleteResponse => exact hs
  | tick env =>
    rw [machineStep, handshakeTick_of_settled hs]
    exact hs
  | elapse d => exact hs

/-! ## A network -/

/-- A handshake request or response, between a node and a peer id. -/
structure HandshakeMessage (ι : Type) where
  sender : ι
  receiver : String
  request : Bool
  bytes : Bytes
  deriving DecidableEq

/-- Nodes, the handshake messages on their way between them, and all that were ever sent. -/
structure Network (ι H : Type) where
  machines : ι → Machine H
  inFlight : List (HandshakeMessage ι)
  exchanged : List (HandshakeMessage ι)

inductive NetworkAction (ι : Type)
  | tick (i : ι) (env : String → Surroundings)
  /-- A message on its way comes in at the node with the peer id it is for. -/
  | deliver (i : ι) (env : Surroundings) (message : HandshakeMessage ι)
  | lose (message : HandshakeMessage ι)
  /-- A message of another protocol comes in, from whomever. -/
  | receive (i : ι) (env : Surroundings) (handler : Handler) (peer : String) (bytes : Bytes)
  | elapse (i : ι) (d : Duration)

section Network

variable {ι : Type} [DecidableEq ι] (P) (peerId : ι → String)

namespace Network

def setMachine (net : Network ι H) (i : ι) (s : Machine H) : Network ι H :=
  { net with machines := Function.update net.machines i s }

def send (net : Network ι H) (messages : List (HandshakeMessage ι)) : Network ι H :=
  { net with inFlight := net.inFlight ++ messages, exchanged := net.exchanged ++ messages }

/-- A node handles a handshake message; a request is answered. -/
def handle (net : Network ι H) (i : ι) (env : Surroundings) (message : HandshakeMessage ι) :
    Network ι H :=
  let net := { net with inFlight := net.inFlight.erase message }
  let sender := peerId message.sender
  if message.request then
    let (machine, answer) := handshakeRequest P env (net.machines i) sender message.bytes
    (net.setMachine i machine).send [⟨i, sender, false, answer⟩]
  else net.setMachine i (handshakeResponse P (net.machines i) sender message.bytes)

end Network

def networkStep (net : Network ι H) : NetworkAction ι → Network ι H
  | .tick i env =>
    let t := handshakeTick P env (net.machines i)
    let requests := t.sent.map fun request => ⟨i, request.1, true, request.2⟩
    (net.setMachine i t.machine).send requests
  | .deliver i env message =>
    if message ∈ net.inFlight ∧ message.receiver = peerId i then net.handle P peerId i env message
    else net
  | .lose message => { net with inFlight := net.inFlight.erase message }
  | .receive i env handler peer bytes =>
    net.setMachine i (receive P env (net.machines i) (.handler handler) peer bytes).machine
  | .elapse i d => net.setMachine i ((net.machines i).elapse d)

variable {P} {peerId}

/-- Every handshake is confirmed, and no handshake message was ever sent. -/
structure Network.Quiet (net : Network ι H) : Prop where
  settled : ∀ i, (net.machines i).Settled
  inFlight : net.inFlight = []
  exchanged : net.exchanged = []

theorem Network.Quiet.setMachine {net : Network ι H} (hnet : net.Quiet) (i : ι) {s : Machine H}
    (hs : s.Settled) : (net.setMachine i s).Quiet where
  settled j := by
    change (Function.update net.machines i s j).Settled
    rcases eq_or_ne j i with rfl | hne
    · rw [Function.update_self]
      exact hs
    · rw [Function.update_of_ne hne]
      exact hnet.settled j
  inFlight := hnet.inFlight
  exchanged := hnet.exchanged

/-- **A quiet network stays quiet**: nobody asks, so nobody answers. -/
theorem Network.Quiet.step {net : Network ι H} (hnet : net.Quiet) (a : NetworkAction ι) :
    (networkStep P peerId net a).Quiet := by
  cases a with
  | tick i env =>
    rw [networkStep, handshakeTick_of_settled (hnet.settled i)]
    obtain ⟨hsettled, hinFlight, hexchanged⟩ := hnet.setMachine i (hnet.settled i)
    exact ⟨hsettled, by simpa [Network.send] using hinFlight,
      by simpa [Network.send] using hexchanged⟩
  | deliver i env message =>
    rw [networkStep, if_neg]
    · exact hnet
    · rw [hnet.inFlight]
      exact fun h => List.not_mem_nil h.1
  | lose message =>
    refine ⟨hnet.settled, ?_, hnet.exchanged⟩
    rw [networkStep, hnet.inFlight]
    rfl
  | receive i env handler peer bytes =>
    exact hnet.setMachine i ((hnet.settled i).step (.receive env (.handler handler) peer bytes))
  | elapse i d => exact hnet.setMachine i (hnet.settled i)

end Network

/-- **No handshake ever takes place.** A node that starts without handshakes has only confirmed ones
after any sequence of messages and ticks; the next tick keeps every one of them and sends nothing.
So in a network of such nodes, of any size, no handshake message is ever sent. -/
theorem handshakes_never_start (P : MachinePlatform) (n : Node H) (acts : List MachineAction)
    {ι : Type} [DecidableEq ι] (peerId : ι → String) (nodes : ι → Node H)
    (netActs : List (NetworkAction ι)) :
    let s := run (machineStep P) ⟨n, ∅⟩ acts
    (∀ peer state, s.handshakeStates.lookup peer = some state → state.confirmed = true) ∧
      (∀ env, (handshakeTick P env s).machine = s ∧ (handshakeTick P env s).sent = [] ∧
        (handshakeTick P env s).removed = []) ∧
      (run (networkStep P peerId) ⟨fun i => ⟨nodes i, ∅⟩, [], []⟩ netActs).exchanged = [] := by
  intro s
  have hempty (n : Node H) : (⟨n, ∅⟩ : Machine H).Settled := fun _ _ h => by
    rw [AList.lookup_empty] at h
    cases h
  have hstep (s : Machine H) (a : MachineAction) (hs : s.Settled) :
      (machineStep P s a).Settled := hs.step a
  have hsettled := run_invariant hstep acts (hempty n)
  refine ⟨hsettled, fun env => ?_, ?_⟩
  · rw [handshakeTick_of_settled hsettled env]
    exact ⟨rfl, rfl, rfl⟩
  · have hnetStep (net : Network ι H) (a : NetworkAction ι) (hnet : net.Quiet) :
        (networkStep P peerId net a).Quiet := hnet.step a
    exact (run_invariant hnetStep netActs ⟨fun i => hempty (nodes i), rfl, rfl⟩).exchanged

end Beemesh

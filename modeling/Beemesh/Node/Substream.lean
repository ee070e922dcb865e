import Beemesh.Lib.Transfers
import Beemesh.Lib.Wire
import Beemesh.Node.System

/-!
# Substreams

A request goes over a substream of its own, and its response comes back over it. `ByteCodec` writes
a message behind its length in four bytes, and the stream between the two peers takes and gives the
bytes piece by piece.

## Main definitions

* `ByteCodec.write`, `ByteCodec.read`: the codec, for requests and for responses
* `Substream`: a request, what the handler makes of it, and its response
* `substreamStep`: what happens on a substream, piece by piece

## Main results

* `ByteCodec.eval_read_eq_some_iff`: what the codec reads is a field behind its length
* `ByteCodec.received_write`, `ByteCodec.received_whole_iff`: which messages come through a stream
* `substream_exchange`: over every run, what the handler is given and what the requester gets
-/

namespace Beemesh

open Transfers Run Wire

/-! ## The codec -/

namespace ByteCodec

/-- A length in four bytes, and as many bytes as it says. -/
def read : Reads Bytes :=
  .readExact 4 fun lenBuf => .readExact (ofBe lenBuf) .done

/-- `len as u32` keeps the low four bytes of a length. -/
def write (message : Bytes) : Bytes :=
  toBe 4 message.length ++ message

def readRequest : Reads Bytes := read

def readResponse : Reads Bytes := read

def writeRequest (req : Bytes) : Bytes := write req

def writeResponse (res : Bytes) : Bytes := write res

/-- The length that stands before a message. -/
def writtenLength (message : Bytes) : ℕ := message.length % 2 ^ 32

theorem writtenLength_le (message : Bytes) : writtenLength message ≤ message.length :=
  Nat.mod_le _ _

theorem writtenLength_eq_iff (message : Bytes) :
    writtenLength message = message.length ↔ message.length < 2 ^ 32 :=
  ⟨fun h => h ▸ Nat.mod_lt _ (by decide), Nat.mod_eq_of_lt⟩

/-- **What the codec reads** is a field behind its length. -/
theorem eval_read_eq_some_iff {bytes message rest : Bytes} :
    read.eval bytes = some (message, rest) ↔ Prefixed 4 bytes message rest := by
  constructor
  · intro h
    simp only [read, Reads.eval] at h
    split_ifs at h with hlen hfield
    obtain ⟨rfl, rfl⟩ := Prod.mk.inj (Option.some.inj h)
    refine ⟨bytes.take 4, ?_, ?_, ?_⟩
    · rw [List.length_take, Nat.min_eq_left hlen]
    · rw [List.length_take, Nat.min_eq_left hfield]
    · rw [List.take_append_drop, List.take_append_drop]
  · rintro ⟨len, hlen, hfield, rfl⟩
    have htake : (len ++ (message ++ rest)).take 4 = len := List.take_left' hlen
    have hdrop : (len ++ (message ++ rest)).drop 4 = message ++ rest := List.drop_left' hlen
    simp only [read, Reads.eval, htake, hdrop, hfield, List.length_append]
    rw [if_pos (by omega), if_pos (by omega), List.take_left, List.drop_left]

/-- What has been written begins with the field that it says. -/
theorem prefixed_write (message : Bytes) :
    Prefixed 4 (write message) (message.take (writtenLength message))
      (message.drop (writtenLength message)) := by
  refine ⟨toBe 4 message.length, length_toBe 4 _, ?_, ?_⟩
  · rw [ofBe_toBe, List.length_take, Nat.min_eq_left (writtenLength_le message)]
    rfl
  · rw [List.take_append_drop]
    rfl

theorem eval_read_write (message : Bytes) :
    read.eval (write message) =
      some (message.take (writtenLength message), message.drop (writtenLength message)) :=
  eval_read_eq_some_iff.mpr (prefixed_write message)

/-- A front of what has been written is enough where it has the field. -/
theorem eval_read_eq_none_iff {message sent unsent : Bytes} (h : sent ++ unsent = write message) :
    read.eval sent = none ↔ sent.length < 4 + writtenLength message := by
  have hlength : (write message).length = 4 + message.length := by
    rw [write, List.length_append, length_toBe]
  constructor
  · intro hnone
    by_contra hlong
    -- The front has the length and the field behind it.
    have hsent : Prefixed 4 sent (message.take (writtenLength message))
        ((message.drop (writtenLength message)).take
          (sent.length - (4 + writtenLength message))) := by
      obtain ⟨len, hlen, hfield, hwrite⟩ := prefixed_write message
      refine ⟨len, hlen, hfield, ?_⟩
      have htaken : (message.take (writtenLength message)).length = writtenLength message := by
        rw [List.length_take, Nat.min_eq_left (writtenLength_le message)]
      calc sent = (write message).take sent.length := by rw [← h, List.take_left]
        _ = _ := by
          rw [hwrite, List.take_append, List.take_append, List.take_of_length_le (by omega),
            List.take_of_length_le (by omega), hlen, htaken, Nat.sub_sub]
    exact nomatch hnone.symm.trans (eval_read_eq_some_iff.mpr hsent)
  · intro hshort
    cases heval : read.eval sent with
    | none => rfl
    | some result =>
      obtain ⟨field, rest⟩ := result
      have hmore := Reads.eval_append heval unsent
      rw [h, eval_read_write] at hmore
      have hlen := (eval_read_eq_some_iff.mp heval).length_eq
      obtain ⟨rfl, -⟩ := Prod.mk.inj (Option.some.inj hmore)
      rw [List.length_take, Nat.min_eq_left (writtenLength_le message)] at hlen
      omega

/-! ### Through a stream -/

/-- A transfer of a message by the codec. -/
def transfer (message : Bytes) (events : List TransferEvent) : Transfer Bytes :=
  run transferStep (Transfer.start (write message) read) events

/-- What comes through a stream is what the written length lets through. -/
theorem received_of_follows {message taken : Bytes} {s : Transfer Bytes}
    (h : s.Follows (write message) read taken) {got : Bytes} (hgot : s.received = some got) :
    got = message.take (writtenLength message) := by
  have heval := h.eval_of_received hgot
  rw [eval_read_write] at heval
  exact (Prod.mk.inj (Option.some.inj heval)).1.symm

/-- **A message is read whole or not at all**, as far as its written length goes: a reader that is
over has failed exactly where the writer went away before the end of it. -/
theorem received_write (message : Bytes) (events : List TransferEvent) :
    let s := transfer message events
    (∀ got, s.received = some got → got = message.take (writtenLength message)) ∧
      (s.Over → (s.reader = .broken ↔
        (write message).length - s.unsent.length < 4 + writtenLength message)) := by
  intro s
  obtain ⟨taken, h⟩ : ∃ taken, s.Follows (write message) read taken :=
    Transfer.follows_run (write message) read events
  refine ⟨fun got hgot => received_of_follows h hgot, fun hover => ?_⟩
  have hall : (taken ++ s.underWay) ++ s.unsent = write message := by
    rw [List.append_assoc]
    exact h.all
  have hsent : (write message).length - s.unsent.length = (taken ++ s.underWay).length := by
    rw [← hall, List.length_append, Nat.add_sub_cancel]
  rw [h.broken_iff hover, eval_read_eq_none_iff hall, hsent]

/-- Where all is sent, it can all be read. -/
theorem exists_received (message : Bytes) :
    ∃ events, (transfer message events).received = some (message.take (writtenLength message)) := by
  have hlength : (write message).length = 4 + message.length := by
    rw [write, List.length_append, length_toBe]
  -- All at once, and then byte by byte.
  let sending : List TransferEvent := [.send (write message).length, .close]
  let polls : List ℕ := List.replicate ((write message).length + 1) 1
  have hsent : (transfer message sending).unsent = [] := List.drop_length
  have hunderWay : (transfer message sending).underWay = write message := by
    calc (transfer message sending).underWay
        = [] ++ (write message).take (write message).length := rfl
      _ = write message := by rw [List.nil_append, List.take_length]
  refine ⟨sending ++ polls.map .poll, ?_⟩
  have hover : (transfer message (sending ++ polls.map .poll)).Over := by
    rw [transfer, run_append]
    refine Transfer.over_of_polls (Transfer.follows_run _ _ sending) rfl ?_ ?_
    · intro k hk
      rw [List.eq_of_mem_replicate hk]
      exact Nat.one_pos
    · rw [List.length_replicate]
      exact (congrArg List.length hunderWay).trans_lt (Nat.lt_succ_self _)
  obtain ⟨hgot, hbroken⟩ := received_write message (sending ++ polls.map .poll)
  have hunsent : (transfer message (sending ++ polls.map .poll)).unsent = [] := by
    rw [transfer, run_append]
    exact hsent ▸ Transfer.unsent_polls _ polls
  have hnot : (transfer message (sending ++ polls.map .poll)).reader ≠ .broken := by
    rw [Ne, hbroken hover, hunsent, hlength]
    have := writtenLength_le message
    simp only [List.length_nil]
    omega
  obtain ⟨got, hreceived⟩ := Option.ne_none_iff_exists'.mp (hover.resolve_right hnot)
  rw [hreceived, hgot got hreceived]

/-- **Which messages come through**: those whose length has room in four bytes. Of a longer one the
reader takes a front for the whole, as long as the four bytes say. -/
theorem received_whole_iff (message : Bytes) :
    ((∀ events got, (transfer message events).received = some got → got = message) ↔
      message.length < 2 ^ 32) ∧
    (∀ events got, (transfer message events).received = some got →
      got = message.take (message.length % 2 ^ 32)) ∧
    ∃ events, (transfer message events).received =
      some (message.take (message.length % 2 ^ 32)) := by
  have hfront events got (hgot : (transfer message events).received = some got) :
      got = message.take (writtenLength message) :=
    (received_write message events).1 got hgot
  refine ⟨?_, hfront, exists_received message⟩
  rw [← writtenLength_eq_iff]
  constructor
  · intro h
    obtain ⟨events, hgot⟩ := exists_received message
    have hlength := congrArg List.length (h events _ hgot)
    rwa [List.length_take, Nat.min_eq_left (writtenLength_le message)] at hlength
  · intro hshort events got hgot
    rw [hfront events got hgot, hshort, List.take_length]

end ByteCodec

/-! ## Substreams -/

open ByteCodec

/-- A request on its way to a handler, the handler's answer to what it was given, and the response
on its way back. -/
structure Substream where
  request : Transfer Bytes
  handled : Option (Bytes × Bytes)
  response : Transfer Bytes

inductive SubstreamEvent
  | request (event : TransferEvent)
  | response (event : TransferEvent)
  /-- The handler is given the request, and sends a response. -/
  | handle (response : Bytes)

def substreamStep (s : Substream) : SubstreamEvent → Substream
  | .request event => { s with request := transferStep s.request event }
  | .response event => { s with response := transferStep s.response event }
  | .handle response =>
    match s.request.received, s.handled with
    | some request, none =>
      { s with
        handled := some (request, response)
        response := s.response.write (writeResponse response) }
    | _, _ => s

/-- A substream that a requester opens. It waits for a response from the start. -/
def Substream.start (req : Bytes) : Substream where
  request := .start (writeRequest req) readRequest
  handled := none
  response := .start [] readResponse

/-- What has been written for the requester. -/
def Substream.answer (s : Substream) : Bytes := (s.handled.map fun h => writeResponse h.2).getD []

structure Substream.Keeps (req : Bytes) (s : Substream) : Prop where
  request : ∃ taken, s.request.Follows (writeRequest req) readRequest taken
  response : ∃ taken, s.response.Follows s.answer readResponse taken
  handled : ∀ h, s.handled = some h → h.1 = req.take (writtenLength req)

theorem Substream.keeps_start (req : Bytes) : (Substream.start req).Keeps req where
  request := ⟨[], Transfer.follows_start _ _⟩
  response := ⟨[], Transfer.follows_start _ _⟩
  handled _ h := nomatch h

/-- **What a substream keeps**, with every piece in either direction. -/
theorem Substream.Keeps.step {req : Bytes} {s : Substream} (h : s.Keeps req)
    (event : SubstreamEvent) : (substreamStep s event).Keeps req := by
  cases event with
  | request event => exact ⟨h.request.elim fun _ hf => hf.step event, h.response, h.handled⟩
  | response event => exact ⟨h.request, h.response.elim fun _ hf => hf.step event, h.handled⟩
  | handle response =>
    rw [substreamStep]
    split
    next request hreceived hhandled =>
      obtain ⟨_, hrequest⟩ := h.request
      obtain ⟨taken, hresponse⟩ := h.response
      refine ⟨h.request, ⟨taken, ?_⟩, ?_⟩
      · -- Nothing has been written for the requester before.
        have hanswer : s.answer = [] := by
          rw [Substream.answer, hhandled, Option.map_none, Option.getD_none]
        have hwritten := hresponse.write (writeResponse response)
        rw [hanswer] at hwritten
        exact hwritten
      · intro handled hsome
        obtain rfl := Option.some.inj hsome
        exact received_of_follows hrequest hreceived
    next => exact h

theorem Substream.keeps_run (req : Bytes) (events : List SubstreamEvent) :
    (run substreamStep (Substream.start req) events).Keeps req :=
  run_invariant (fun _ event h => h.step event) events (Substream.keeps_start req)

/-- **The exchange over a substream**: in every run the handler is given the request, as far as its
written length goes, and the requester gets what the handler has answered to it. -/
theorem substream_exchange (req : Bytes) (events : List SubstreamEvent) :
    let s := run substreamStep (Substream.start req) events
    (∀ given res, s.handled = some (given, res) → given = req.take (writtenLength req)) ∧
      ∀ got, s.response.received = some got →
        ∃ res, s.handled = some (req.take (writtenLength req), res) ∧
          got = res.take (writtenLength res) := by
  intro s
  have hs : s.Keeps req := Substream.keeps_run req events
  refine ⟨fun given res hhandled => hs.handled _ hhandled, fun got hgot => ?_⟩
  obtain ⟨taken, hfollows⟩ := hs.response
  cases hhandled : s.handled with
  | none =>
    -- Without an answer there is nothing to read.
    have hempty : s.answer = [] := by
      rw [Substream.answer, hhandled, Option.map_none, Option.getD_none]
    have heval := hfollows.eval_of_received hgot
    rw [hempty] at heval
    exact nomatch heval
  | some handled =>
    obtain ⟨given, res⟩ := handled
    have hanswer : s.answer = writeResponse res := by
      rw [Substream.answer, hhandled, Option.map_some, Option.getD_some]
    rw [hanswer] at hfollows
    have hgiven : given = req.take (writtenLength req) := hs.handled _ hhandled
    exact ⟨res, by rw [hgiven], received_of_follows hfollows hgot⟩

/-! ## At a machine -/

variable {H : Type}

/-- The machine, when its handler has been given what came over a substream. -/
def Substream.deliver (Q : NodePlatform) (n : Node H) (handler : Handler) (wallMs : U64)
    (peer : String) (s : Substream) : Node H :=
  match s.handled with
  | none => n
  | some (given, _) => (step Q n (.deliver handler wallMs peer given)).node

/-- **A delivery is one step** of the machine: it has the whole of a request, or nothing. -/
theorem Substream.deliver_eq (Q : NodePlatform) (n : Node H) (handler : Handler) (wallMs : U64)
    (peer : String) {req : Bytes} (hreq : req.length < 2 ^ 32) (events : List SubstreamEvent) :
    let s := run substreamStep (Substream.start req) events
    s.deliver Q n handler wallMs peer = n ∨
      s.deliver Q n handler wallMs peer = (step Q n (.deliver handler wallMs peer req)).node := by
  intro s
  cases hhandled : s.handled with
  | none => exact .inl (by rw [Substream.deliver, hhandled])
  | some handled =>
    obtain ⟨given, res⟩ := handled
    have hgiven : given = req.take (writtenLength req) :=
      (Substream.keeps_run req events).handled _ hhandled
    rw [(writtenLength_eq_iff req).mpr hreq, List.take_length] at hgiven
    exact .inr (by rw [Substream.deliver, hhandled, hgiven])

end Beemesh

import Beemesh.Basic
import Beemesh.Lib.Document
import Beemesh.Lib.Run
import Beemesh.Lib.Table

/-!
# Requests between workloads

A replica asks another one on a stream of its own: `SendRequest` writes a JSON frame and reads the
answer, the stream handler reads a frame, runs it and writes the answer. Each side reads until the
other one ends its half of the stream, or until a mebibyte has come. `SendRequest` ends its half
when it returns, and not before.

Bytes take their time, in parts of any size, and every write and every read can fail: at its
deadline, or because the stream was reset. What the two sides do is one event after the other, in
any order.

## Main definitions

* `RPCRequest`, `RPCResponse`, `Frames`: the frames, and the JSON they are written in
* `RPCCall`, `RPCCall.step`: a stream with its two sides, and what happens to it
* `RPCCall.Phase`: how far a call has got

## Main results

* `RPCCall.phase_step`: an event takes a call from one phase to another
* `sendRequest_answered_iff`: the requests that can be answered, and their answers
* `handled_late`: when the handler runs a request
-/

namespace Beemesh.Workplane

open Run

/-! ## Frames -/

/-- `map[string]interface{}`. -/
abbrev Body := Table String Json

structure RPCRequest where
  method : String
  body : Option Body := none

structure RPCResponse where
  ok : Bool
  error : String := ""
  body : Option Body := none

/-- `maxMessageSize`, of a mebibyte. -/
def maxMessageSize : ℕ := 1 <<< 20

/-- The JSON library, on the two frames. -/
structure Frames where
  marshalRequest : RPCRequest → Except String Bytes
  unmarshalRequest : Bytes → Except String RPCRequest
  marshalResponse : RPCResponse → Except String Bytes
  unmarshalResponse : Bytes → Except String RPCResponse

/-- A frame is a JSON object: nothing is read of one that is not there to its closing brace. -/
structure Frames.Delimited (J : Frames) : Prop where
  request : ∀ req bytes, J.marshalRequest req = .ok bytes →
    ∀ front, front <+: bytes → front ≠ bytes → ∀ req', J.unmarshalRequest front ≠ .ok req'
  response : ∀ resp bytes, J.marshalResponse resp = .ok bytes →
    ∀ front, front <+: bytes → front ≠ bytes → ∀ resp', J.unmarshalResponse front ≠ .ok resp'
  empty : ∀ resp, J.unmarshalResponse [] ≠ .ok resp

/-- `writeJSON`: what there is to be written. A frame that cannot be marshalled leaves nothing. -/
def Frames.written (J : Frames) (resp : RPCResponse) : Bytes :=
  match J.marshalResponse resp with
  | .ok bytes => bytes
  | .error _ => []

/-- The handler that `NewWorkload` registers. -/
def healthHandler (remote : String) (req : RPCRequest) : RPCResponse :=
  match req.method with
  | "healthz" => { ok := true, body := some ((∅ : Body).insert "remote" (.string remote)) }
  | _ => { ok := false, error := "unknown method" }

/-! ## A call -/

/-- One direction of a stream: the bytes in it that nobody has read, and whether it has ended. -/
structure Pipe where
  unread : Bytes := []
  ended : Bool := false

/-- Where `SendRequest` is. -/
inductive Client
  | writing (rest : Bytes)
  | reading (data : Bytes)
  | returned (result : Except String RPCResponse)

/-- Where the stream handler is. -/
inductive Server
  | reading (data : Bytes)
  | writing (rest : Bytes)
  | closed

/-- A stream that has been opened, with its two sides, and the requests that the handler was run
on. -/
structure RPCCall where
  toServer : Pipe := {}
  toClient : Pipe := {}
  client : Client
  server : Server := .reading []
  handled : List RPCRequest := []

/-- What happens to a call. A number is how many bytes a write or a read gets through. -/
inductive StreamEvent
  | clientWrites (n : ℕ)
  | clientWriteFails (error : String)
  | clientReads (n : ℕ)
  | clientEnd
  | clientReadFails (error : String)
  | serverReads (n : ℕ)
  | serverEnd
  | serverReadFails
  | serverWrites (n : ℕ)
  | serverWriteFails

variable (J : Frames) (fn : RPCRequest → RPCResponse)

namespace RPCCall

/-- `SendRequest` returns, and closes the stream. -/
def give (c : RPCCall) (result : Except String RPCResponse) : RPCCall :=
  { c with client := .returned result, toServer := { c.toServer with ended := true } }

/-- The handler returns, and closes the stream. -/
def hangUp (c : RPCCall) : RPCCall :=
  { c with server := .closed, toClient := { c.toClient with ended := true } }

/-- `SendRequest`, once it has read what there is. -/
def receive (c : RPCCall) (data : Bytes) : RPCCall :=
  match J.unmarshalResponse data with
  | .ok resp => c.give (.ok resp)
  | .error e => c.give (.error ("decode: " ++ e))

/-- What the handler writes on `data`, and the request it is run on. -/
def answer (data : Bytes) : Bytes × List RPCRequest :=
  match J.unmarshalRequest data with
  | .ok req => (J.written (fn req), [req])
  | .error _ => (J.written { ok := false, error := "bad request" }, [])

/-- The stream handler, once it has read what there is. -/
def serve (c : RPCCall) (data : Bytes) : RPCCall :=
  { c with
    server := .writing (answer J fn data).1
    handled := c.handled ++ (answer J fn data).2 }

def step (c : RPCCall) : StreamEvent → RPCCall
  | .clientWrites n =>
    match c.client with
    | .writing rest =>
      { c with
        toServer := { c.toServer with unread := c.toServer.unread ++ rest.take n }
        client := if rest.drop n = [] then .reading [] else .writing (rest.drop n) }
    | _ => c
  | .clientWriteFails e =>
    match c.client with
    | .writing _ => c.give (.error ("write: " ++ e))
    | _ => c
  | .clientReads n =>
    match c.client with
    | .reading data =>
      -- `io.LimitReader` lets no more through than there is room for, and then reports an end.
      let k := min n (maxMessageSize - data.length)
      let data := data ++ c.toClient.unread.take k
      let c := { c with toClient := { c.toClient with unread := c.toClient.unread.drop k } }
      if data.length = maxMessageSize then c.receive J data else { c with client := .reading data }
    | _ => c
  | .clientEnd =>
    match c.client with
    | .reading data =>
      if c.toClient.unread = [] ∧ c.toClient.ended then c.receive J data else c
    | _ => c
  | .clientReadFails e =>
    match c.client with
    | .reading _ => c.give (.error ("read: " ++ e))
    | _ => c
  | .serverReads n =>
    match c.server with
    | .reading data =>
      let k := min n (maxMessageSize - data.length)
      let data := data ++ c.toServer.unread.take k
      let c := { c with toServer := { c.toServer with unread := c.toServer.unread.drop k } }
      if data.length = maxMessageSize then c.serve J fn data else { c with server := .reading data }
    | _ => c
  | .serverEnd =>
    match c.server with
    | .reading data =>
      if c.toServer.unread = [] ∧ c.toServer.ended then c.serve J fn data else c
    | _ => c
  | .serverReadFails =>
    match c.server with
    | .reading _ => c.hangUp
    | _ => c
  | .serverWrites n =>
    match c.server with
    | .writing rest =>
      let c := { c with
        toClient := { c.toClient with unread := c.toClient.unread ++ rest.take n } }
      if rest.drop n = [] then c.hangUp else { c with server := .writing (rest.drop n) }
    | _ => c
  | .serverWriteFails =>
    match c.server with
    | .writing _ => c.hangUp
    | _ => c

end RPCCall

/-- `SendRequest` on a stream that has been opened, with the request as it is written. -/
def sendRequest (frame : Bytes) : RPCCall := { client := .writing frame }

/-! ## Phases -/

/-- The client has read `got` of an answer, and has `rest` of its request to write first. -/
inductive Client.Waits : Bytes → Bytes → Client → Prop
  | writing (rest : Bytes) : Waits [] rest (.writing rest)
  | reading {got : Bytes} (hroom : got.length < maxMessageSize) : Waits got [] (.reading got)

/-- What the handler writes on as much of a request as it reads. -/
abbrev RPCCall.fullAnswer (frame : Bytes) : Bytes × List RPCRequest :=
  RPCCall.answer J fn (frame.take maxMessageSize)

/-- The response to a request: it takes a mebibyte to be read, and what is written on it has to be
read by the client. -/
structure RPCCall.Answered (frame : Bytes) (resp : RPCResponse) : Prop where
  long : maxMessageSize ≤ frame.length
  short : (RPCCall.fullAnswer J fn frame).1.length ≤ maxMessageSize
  read : J.unmarshalResponse (RPCCall.fullAnswer J fn frame).1 = .ok resp

/-- The handler was run on nothing, or on the whole request, of a client that may have given up. -/
def RPCCall.RanLate (frame : Bytes) (handled : List RPCRequest) (gaveUp : Prop) : Prop :=
  handled = [] ∨ ∃ req, handled = [req] ∧ J.unmarshalRequest frame = .ok req ∧
    frame.length ≤ maxMessageSize ∧ (frame.length = maxMessageSize ∨ gaveUp)

/-- How far a call with the request `frame` has got. -/
inductive RPCCall.Phase (frame : Bytes) : RPCCall → Prop
  | asking {data unread rest : Bytes} {client : Client} (hclient : client.Waits [] rest)
      (hframe : data ++ unread ++ rest = frame) (hroom : data.length < maxMessageSize) :
      Phase frame ⟨⟨unread, false⟩, {}, client, .reading data, []⟩
  /-- The client has given up, and the handler does not know yet. -/
  | abandoned {data unread : Bytes} {e : String} (hframe : data ++ unread <+: frame)
      (hroom : data.length < maxMessageSize) :
      Phase frame ⟨⟨unread, true⟩, {}, .returned (.error e), .reading data, []⟩
  | answering {toServer : Pipe} {got unread left rest : Bytes} {ended : Bool} {client : Client}
      {server : Server} (hclient : client.Waits got rest)
      (hlong : maxMessageSize ≤ frame.length)
      (hanswer : got ++ unread ++ left = (RPCCall.fullAnswer J fn frame).1)
      (hserver : server = .writing left ∨ server = .closed) :
      Phase frame
        ⟨toServer, ⟨unread, ended⟩, client, server, (RPCCall.fullAnswer J fn frame).2⟩
  /-- The handler has given up, and the client does not know yet. -/
  | dropped {toServer : Pipe} {rest : Bytes} {client : Client} (hclient : client.Waits [] rest) :
      Phase frame ⟨toServer, ⟨[], true⟩, client, .closed, []⟩
  | ended {toServer toClient : Pipe} {result : Except String RPCResponse} {server : Server}
      {handled : List RPCRequest} (hserver : ∀ data, server ≠ .reading data)
      (hresult : ∀ resp, result = .ok resp → RPCCall.Answered J fn frame resp)
      (hhandled : RPCCall.RanLate J frame handled (∃ e, result = .error e)) :
      Phase frame ⟨toServer, toClient, .returned result, server, handled⟩

namespace RPCCall

variable {J fn} {frame : Bytes}

/-- Of a frame in front of what is written, a response is read when it is all of it. -/
theorem eq_written_of_unmarshal (hJ : J.Delimited) {resp resp' : RPCResponse} {front : Bytes}
    (hfront : front <+: J.written resp) (hread : J.unmarshalResponse front = .ok resp') :
    front = J.written resp := by
  unfold Frames.written at hfront ⊢
  cases hbytes : J.marshalResponse resp with
  | error e =>
    rw [hbytes] at hfront
    obtain rfl := List.prefix_nil.mp hfront
    rfl
  | ok bytes =>
    rw [hbytes] at hfront
    by_contra hne
    exact hJ.response resp bytes hbytes front hfront hne resp' hread

variable (fn) in
/-- What the handler writes is a frame. -/
theorem exists_answer (data : Bytes) : ∃ resp, (answer J fn data).1 = J.written resp := by
  unfold answer
  cases J.unmarshalRequest data with
  | ok req => exact ⟨fn req, rfl⟩
  | error e => exact ⟨_, rfl⟩

variable (fn) in
/-- Of a request in part, nothing is run. -/
theorem answer_handled (hJ : J.Delimited) {req : RPCRequest}
    (hreq : J.marshalRequest req = .ok frame) {data : Bytes} (hdata : data <+: frame) :
    (answer J fn data).2 = [] ∨
      data = frame ∧ ∃ req', (answer J fn data).2 = [req'] ∧ J.unmarshalRequest frame = .ok req' := by
  unfold answer
  cases hread : J.unmarshalRequest data with
  | error e => exact .inl rfl
  | ok req' =>
    have hwhole : data = frame := by
      by_contra hne
      exact hJ.request req frame hreq data hdata hne req' hread
    exact .inr ⟨hwhole, req', rfl, hwhole ▸ hread⟩

/-- What is run on a mebibyte of a request is all of it. -/
theorem ranLate_fullAnswer (hJ : J.Delimited) {req : RPCRequest}
    (hreq : J.marshalRequest req = .ok frame) (hlong : maxMessageSize ≤ frame.length)
    (gaveUp : Prop) : RanLate J frame (fullAnswer J fn frame).2 gaveUp := by
  obtain hnone | ⟨hwhole, req', hrun, hread⟩ :=
    answer_handled fn hJ hreq (List.take_prefix maxMessageSize frame)
  · exact .inl hnone
  · have hle : frame.length ≤ maxMessageSize := by
      rw [← hwhole, List.length_take]
      exact Nat.min_le_left _ _
    exact .inr ⟨req', hrun, hread, hle, .inl (le_antisymm hle hlong)⟩

/-- What is run once the client has given up. -/
theorem ranLate_answer (hJ : J.Delimited) {req : RPCRequest}
    (hreq : J.marshalRequest req = .ok frame) {data : Bytes} (hdata : data <+: frame)
    (hroom : data.length ≤ maxMessageSize) {gaveUp : Prop} (hgaveUp : gaveUp) :
    RanLate J frame (answer J fn data).2 gaveUp := by
  obtain hnone | ⟨rfl, req', hrun, hread⟩ := answer_handled fn hJ hreq hdata
  · exact .inl hnone
  · exact .inr ⟨req', hrun, hread, hroom, .inr hgaveUp⟩

/-! ### Reads -/

/-- A read moves bytes from what is unread to what has been read, as far as there is room. -/
theorem append_take_drop {data : Bytes} (unread : Bytes) (n : ℕ)
    (hroom : data.length < maxMessageSize) :
    let k := min n (maxMessageSize - data.length)
    data ++ unread.take k ++ unread.drop k = data ++ unread ∧
      (data ++ unread.take k).length ≤ maxMessageSize := by
  intro k
  refine ⟨by rw [List.append_assoc, List.take_append_drop], ?_⟩
  have hk : k ≤ maxMessageSize - data.length := Nat.min_le_right _ _
  rw [List.length_append, List.length_take]
  omega

/-- What has been read is the front of what was written. -/
theorem prefix_of_moved {data unread data' unread' : Bytes}
    (hmoved : data' ++ unread' = data ++ unread) (hcut : data ++ unread <+: frame) :
    data' <+: frame :=
  (hmoved ▸ List.prefix_append data' unread').trans hcut

/-- A mebibyte of a request is the one in front. -/
theorem eq_take_of_full {data : Bytes} (hdata : data <+: frame)
    (hfull : data.length = maxMessageSize) :
    maxMessageSize ≤ frame.length ∧ data = frame.take maxMessageSize :=
  ⟨hfull ▸ hdata.length_le, hfull ▸ List.prefix_iff_eq_take.mp hdata⟩

/-- The client ends with what it has read of an answer. -/
theorem phase_receive (hJ : J.Delimited) {req : RPCRequest}
    (hreq : J.marshalRequest req = .ok frame) {toServer toClient : Pipe} {client : Client}
    {got left : Bytes} {server : Server} (hlong : maxMessageSize ≤ frame.length)
    (hanswer : got ++ left = (fullAnswer J fn frame).1) (hroom : got.length ≤ maxMessageSize)
    (hserver : ∀ data, server ≠ .reading data) :
    Phase J fn frame ((RPCCall.mk toServer toClient client server
      (fullAnswer J fn frame).2).receive J got) := by
  unfold receive
  cases hread : J.unmarshalResponse got with
  | error e =>
    exact .ended hserver (fun _ h => nomatch h) (ranLate_fullAnswer hJ hreq hlong _)
  | ok resp =>
    -- What reads is there to its end.
    obtain ⟨resp', hwritten⟩ := exists_answer fn (J := J) (frame.take maxMessageSize)
    have hwhole : got = (fullAnswer J fn frame).1 := by
      rw [fullAnswer, hwritten]
      apply eq_written_of_unmarshal hJ _ hread
      exact ⟨left, hanswer.trans hwritten⟩
    refine .ended hserver ?_ (ranLate_fullAnswer hJ hreq hlong _)
    rintro resp'' h
    obtain rfl := Except.ok.inj h
    exact ⟨hlong, hwhole ▸ hroom, hwhole ▸ hread⟩

/-- The client ends with nothing. -/
theorem phase_receive_nil (hJ : J.Delimited) {toServer toClient : Pipe} {client : Client}
    {server : Server} (hserver : ∀ data, server ≠ .reading data) :
    Phase J fn frame ((RPCCall.mk toServer toClient client server []).receive J []) := by
  unfold receive
  cases hread : J.unmarshalResponse [] with
  | error e => exact .ended hserver (fun _ h => nomatch h) (.inl rfl)
  | ok resp => exact absurd hread (hJ.empty resp)

/-! ### Events -/

/-- While the request is on its way. -/
theorem phase_step_asking {data unread rest : Bytes} {client : Client}
    (hclient : client.Waits [] rest) (hframe : data ++ unread ++ rest = frame)
    (hroom : data.length < maxMessageSize) (event : StreamEvent) :
    Phase J fn frame (step J fn ⟨⟨unread, false⟩, {}, client, .reading data, []⟩ event) := by
  have hcut : data ++ unread <+: frame := ⟨rest, hframe⟩
  have hstay : Phase J fn frame ⟨⟨unread, false⟩, {}, client, .reading data, []⟩ :=
    .asking hclient hframe hroom
  have hgive (e : String) :
      Phase J fn frame ⟨⟨unread, true⟩, {}, .returned (.error e), .reading data, []⟩ :=
    .abandoned hcut hroom
  cases event with
  | clientWrites n =>
    cases hclient with
    | reading => exact hstay
    | writing =>
      have hmoved : data ++ (unread ++ rest.take n) ++ rest.drop n = frame := by
        rw [List.append_assoc, List.append_assoc, List.take_append_drop, ← List.append_assoc]
        exact hframe
      simp only [step]
      split_ifs with hdone
      · rw [hdone] at hmoved
        exact .asking (.reading (by decide)) hmoved hroom
      · exact .asking (.writing _) hmoved hroom
  | clientWriteFails e =>
    cases hclient with
    | reading => exact hstay
    | writing => exact hgive _
  | clientReads n =>
    cases hclient with
    | writing => exact hstay
    | reading =>
      simp only [step, List.take_nil, List.drop_nil, List.append_nil, List.length_nil]
      rw [if_neg (by decide)]
      exact hstay
  | clientEnd =>
    cases hclient with
    | writing => exact hstay
    | reading => exact hstay
  | clientReadFails e =>
    cases hclient with
    | writing => exact hstay
    | reading => exact hgive _
  | serverReads n =>
    obtain ⟨hmoved, hlength⟩ := append_take_drop unread n hroom
    simp only [step]
    split_ifs with hfull
    · -- A mebibyte has come, and the handler runs on it.
      obtain ⟨hlong, hdata⟩ := eq_take_of_full (prefix_of_moved hmoved hcut) hfull
      simp only [serve, List.nil_append, hdata]
      exact .answering hclient hlong rfl (.inl rfl)
    · exact .asking hclient (by rw [hmoved]; exact hframe) (lt_of_le_of_ne hlength hfull)
  | serverEnd =>
    simp only [step, Bool.false_eq_true, and_false, if_false]
    exact hstay
  | serverReadFails => exact .dropped hclient
  | serverWrites n => exact hstay
  | serverWriteFails => exact hstay

/-- Once the client has given up on a request that the handler waits for. -/
theorem phase_step_abandoned (hJ : J.Delimited) {req : RPCRequest}
    (hreq : J.marshalRequest req = .ok frame) {data unread : Bytes} {e : String}
    (hcut : data ++ unread <+: frame) (hroom : data.length < maxMessageSize)
    (event : StreamEvent) :
    Phase J fn frame
      (step J fn ⟨⟨unread, true⟩, {}, .returned (.error e), .reading data, []⟩ event) := by
  have hstay : Phase J fn frame ⟨⟨unread, true⟩, {}, .returned (.error e), .reading data, []⟩ :=
    .abandoned hcut hroom
  -- Whatever the handler does now, the client has its error.
  have hover (toServer toClient : Pipe) {server : Server} {front : Bytes}
      (hserver : ∀ data, server ≠ .reading data) (hfront : front <+: frame)
      (hlength : front.length ≤ maxMessageSize) :
      Phase J fn frame
        ⟨toServer, toClient, .returned (.error e), server, (answer J fn front).2⟩ :=
    .ended hserver (fun _ h => nomatch h) (ranLate_answer hJ hreq hfront hlength ⟨e, rfl⟩)
  cases event with
  | serverReads n =>
    obtain ⟨hmoved, hlength⟩ := append_take_drop unread n hroom
    simp only [step]
    split_ifs with hfull
    · simp only [serve, List.nil_append]
      exact hover _ _ (fun _ => nofun) (prefix_of_moved hmoved hcut) hlength
    · exact .abandoned (hmoved ▸ hcut) (lt_of_le_of_ne hlength hfull)
  | serverEnd =>
    simp only [step]
    split_ifs with hend
    · simp only [serve, List.nil_append]
      exact hover _ _ (fun _ => nofun) ((List.prefix_append _ _).trans hcut) hroom.le
    · exact hstay
  | serverReadFails => exact .ended (fun _ => nofun) (fun _ h => nomatch h) (.inl rfl)
  | _ => exact hstay

/-- While the answer is on its way. -/
theorem phase_step_answering (hJ : J.Delimited) {req : RPCRequest}
    (hreq : J.marshalRequest req = .ok frame) {toServer : Pipe} {got unread left rest : Bytes}
    {ended : Bool} {client : Client} {server : Server} (hclient : client.Waits got rest)
    (hlong : maxMessageSize ≤ frame.length)
    (hanswer : got ++ unread ++ left = (fullAnswer J fn frame).1)
    (hserver : server = .writing left ∨ server = .closed) (event : StreamEvent) :
    Phase J fn frame
      (step J fn ⟨toServer, ⟨unread, ended⟩, client, server, (fullAnswer J fn frame).2⟩ event) := by
  have hstay : Phase J fn frame
      ⟨toServer, ⟨unread, ended⟩, client, server, (fullAnswer J fn frame).2⟩ :=
    .answering hclient hlong hanswer hserver
  have hdone : ∀ data, server ≠ .reading data := by
    rintro data rfl
    simp at hserver
  have hgive (toServer toClient : Pipe) (e : String) : Phase J fn frame
      ⟨toServer, toClient, .returned (.error e), server, (fullAnswer J fn frame).2⟩ :=
    .ended hdone (fun _ h => nomatch h) (ranLate_fullAnswer hJ hreq hlong _)
  cases event with
  | clientWrites n =>
    cases hclient with
    | reading => exact hstay
    | writing =>
      -- What more there is of the request, nobody reads.
      simp only [step]
      split_ifs
      · exact .answering (.reading (by decide)) hlong hanswer hserver
      · exact .answering (.writing _) hlong hanswer hserver
  | clientWriteFails e =>
    cases hclient with
    | reading => exact hstay
    | writing => exact hgive _ _ _
  | clientReads n =>
    cases hclient with
    | writing => exact hstay
    | reading hroom =>
      obtain ⟨hmoved, hlength⟩ := append_take_drop unread n hroom
      simp only [step]
      split_ifs with hfull
      · have hwhole : got ++ unread.take (min n (maxMessageSize - got.length)) ++
            (unread.drop (min n (maxMessageSize - got.length)) ++ left) =
              (fullAnswer J fn frame).1 := by
          rw [← List.append_assoc, hmoved]
          exact hanswer
        exact phase_receive hJ hreq hlong hwhole hlength hdone
      · exact .answering (.reading (lt_of_le_of_ne hlength hfull)) hlong
          (by rw [hmoved]; exact hanswer) hserver
  | clientEnd =>
    cases hclient with
    | writing => exact hstay
    | reading hroom =>
      simp only [step]
      split_ifs with hend
      · obtain ⟨rfl, -⟩ := hend
        rw [List.append_nil] at hanswer
        exact phase_receive hJ hreq hlong hanswer hroom.le hdone
      · exact hstay
  | clientReadFails e =>
    cases hclient with
    | writing => exact hstay
    | reading => exact hgive _ _ _
  | serverReads n =>
    obtain rfl | rfl := hserver <;> exact hstay
  | serverEnd =>
    obtain rfl | rfl := hserver <;> exact hstay
  | serverReadFails =>
    obtain rfl | rfl := hserver <;> exact hstay
  | serverWrites n =>
    obtain rfl | rfl := hserver
    · have hmoved : got ++ (unread ++ left.take n) ++ left.drop n = (fullAnswer J fn frame).1 := by
        rw [List.append_assoc, List.append_assoc, List.take_append_drop, ← List.append_assoc]
        exact hanswer
      simp only [step]
      split_ifs with hrest
      · rw [hrest] at hmoved
        exact .answering hclient hlong hmoved (.inr rfl)
      · exact .answering hclient hlong hmoved (.inl rfl)
    · exact hstay
  | serverWriteFails =>
    obtain rfl | rfl := hserver
    · exact .answering hclient hlong hanswer (.inr rfl)
    · exact hstay

/-- Once the handler has given up on a client that waits. -/
theorem phase_step_dropped (hJ : J.Delimited) {toServer : Pipe} {rest : Bytes} {client : Client}
    (hclient : client.Waits [] rest) (event : StreamEvent) :
    Phase J fn frame (step J fn ⟨toServer, ⟨[], true⟩, client, .closed, []⟩ event) := by
  have hstay : Phase J fn frame ⟨toServer, ⟨[], true⟩, client, .closed, []⟩ := .dropped hclient
  have hgive (toServer : Pipe) (e : String) : Phase J fn frame
      ⟨toServer, ⟨[], true⟩, .returned (.error e), .closed, []⟩ :=
    .ended (fun _ => nofun) (fun _ h => nomatch h) (.inl rfl)
  cases event with
  | clientWrites n =>
    cases hclient with
    | reading => exact hstay
    | writing =>
      simp only [step]
      split_ifs
      · exact .dropped (.reading (by decide))
      · exact .dropped (.writing _)
  | clientWriteFails e =>
    cases hclient with
    | reading => exact hstay
    | writing => exact hgive _ _
  | clientReads n =>
    cases hclient with
    | writing => exact hstay
    | reading =>
      simp only [step, List.take_nil, List.drop_nil, List.append_nil, List.length_nil]
      rw [if_neg (by decide)]
      exact hstay
  | clientEnd =>
    cases hclient with
    | writing => exact hstay
    | reading => exact phase_receive_nil hJ fun _ => nofun
  | clientReadFails e =>
    cases hclient with
    | writing => exact hstay
    | reading => exact hgive _ _
  | _ => exact hstay

/-- Once the client has returned, and the handler reads no more. -/
theorem phase_step_over {toServer toClient : Pipe} {result : Except String RPCResponse}
    {server : Server} {handled : List RPCRequest} (hserver : ∀ data, server ≠ .reading data)
    (hresult : ∀ resp, result = .ok resp → Answered J fn frame resp)
    (hhandled : RanLate J frame handled (∃ e, result = .error e)) (event : StreamEvent) :
    Phase J fn frame
      (step J fn ⟨toServer, toClient, .returned result, server, handled⟩ event) := by
  have hover (toClient : Pipe) {server : Server} (hserver : ∀ data, server ≠ .reading data) :
      Phase J fn frame ⟨toServer, toClient, .returned result, server, handled⟩ :=
    .ended hserver hresult hhandled
  cases server with
  | reading data => exact absurd rfl (hserver data)
  | closed => cases event <;> exact hover _ hserver
  | writing rest =>
    cases event with
    | serverWrites n =>
      simp only [step]
      split_ifs
      · exact hover _ fun _ => nofun
      · exact hover _ fun _ => nofun
    | serverWriteFails => exact hover _ fun _ => nofun
    | _ => exact hover _ hserver

/-- **An event takes a call from one phase to another.** -/
theorem phase_step (hJ : J.Delimited) {req : RPCRequest} (hreq : J.marshalRequest req = .ok frame)
    (c : RPCCall) (event : StreamEvent) (h : Phase J fn frame c) :
    Phase J fn frame (step J fn c event) := by
  cases h with
  | asking hclient hframe hroom => exact phase_step_asking hclient hframe hroom event
  | abandoned hcut hroom => exact phase_step_abandoned hJ hreq hcut hroom event
  | answering hclient hlong hanswer hserver =>
    exact phase_step_answering hJ hreq hclient hlong hanswer hserver event
  | dropped hclient => exact phase_step_dropped hJ hclient event
  | ended hserver hresult hhandled => exact phase_step_over hserver hresult hhandled event

variable (fn) in
/-- Every call is in a phase, whatever has happened to it. -/
theorem phase_run (hJ : J.Delimited) {req : RPCRequest} (hreq : J.marshalRequest req = .ok frame)
    (events : List StreamEvent) : Phase J fn frame (run (step J fn) (sendRequest frame) events) :=
  run_invariant (phase_step hJ hreq) events (.asking (.writing frame) rfl (by decide))

/-! ### Calls that are answered -/

/-- A request of a mebibyte or more can be read, answered and returned from. -/
theorem exists_answered {resp : RPCResponse} (h : Answered J fn frame resp) :
    ∃ events, (run (step J fn) (sendRequest frame) events).client = .returned (.ok resp) := by
  obtain ⟨hlong, hshort, hread⟩ := h
  have htake : (frame.take maxMessageSize).length = maxMessageSize := by
    rw [List.length_take]
    exact Nat.min_eq_left hlong
  -- Everything is written at once, and read at once.
  refine ⟨[.clientWrites frame.length, .serverReads maxMessageSize,
    .serverWrites (fullAnswer J fn frame).1.length,
    .clientReads (fullAnswer J fn frame).1.length, .clientEnd], ?_⟩
  have hwritten : step J fn (sendRequest frame) (.clientWrites frame.length) =
      ⟨⟨frame, false⟩, {}, .reading [], .reading [], []⟩ := by
    simp [step, sendRequest]
  have hserved : step J fn ⟨⟨frame, false⟩, {}, .reading [], .reading [], []⟩
      (.serverReads maxMessageSize) =
      ⟨⟨frame.drop maxMessageSize, false⟩, {}, .reading [], .writing (fullAnswer J fn frame).1,
        (fullAnswer J fn frame).2⟩ := by
    simp [step, htake, serve]
  have hanswered (toServer : Pipe) (left : Bytes) (handled : List RPCRequest) :
      step J fn ⟨toServer, {}, .reading [], .writing left, handled⟩ (.serverWrites left.length) =
        ⟨toServer, ⟨left, true⟩, .reading [], .closed, handled⟩ := by
    simp [step, hangUp]
  have hreceived (c : RPCCall) : c.receive J (fullAnswer J fn frame).1 = c.give (.ok resp) := by
    rw [receive, hread]
  rw [run_cons, hwritten, run_cons, hserved, run_cons, hanswered]
  by_cases hfull : (fullAnswer J fn frame).1.length = maxMessageSize
  · -- The client has read all that it takes, and does not wait for the end.
    have hwhole := List.take_of_length_le hshort
    simp [run, step, hfull, hwhole, hreceived, give]
  · simp [run, step, Nat.min_eq_left hshort, hfull, hreceived, give]

end RPCCall

/-- **The requests that can be answered**: `SendRequest` returns a response, whatever the order of
events, only for a request of a mebibyte or more, and then it is what the handler writes on the
mebibyte in front, where that is no longer than a mebibyte itself. -/
theorem sendRequest_answered_iff (J : Frames) (hJ : J.Delimited)
    (fn : RPCRequest → RPCResponse) (req : RPCRequest) (frame : Bytes)
    (hframe : J.marshalRequest req = .ok frame) (resp : RPCResponse) :
    (∃ events, (run (RPCCall.step J fn) (sendRequest frame) events).client = .returned (.ok resp)) ↔
      RPCCall.Answered J fn frame resp := by
  constructor
  · rintro ⟨events, hreturned⟩
    have hphase := RPCCall.phase_run fn hJ hframe events
    generalize run (RPCCall.step J fn) (sendRequest frame) events = c at hreturned hphase
    cases hphase with
    | ended _ hresult _ => exact hresult resp (Client.returned.inj hreturned)
    | abandoned => exact nomatch Client.returned.inj hreturned
    | asking hclient | answering hclient | dropped hclient =>
      cases hclient <;> exact nomatch hreturned
  · exact RPCCall.exists_answered

/-- **When the handler runs a request**: once at most, the request as it was sent, and of less than
a mebibyte only after `SendRequest` has returned an error. -/
theorem handled_late (J : Frames) (hJ : J.Delimited) (fn : RPCRequest → RPCResponse)
    (req : RPCRequest) (frame : Bytes) (hframe : J.marshalRequest req = .ok frame)
    (events : List StreamEvent) :
    let c := run (RPCCall.step J fn) (sendRequest frame) events
    c.handled = [] ∨ ∃ req', c.handled = [req'] ∧ J.unmarshalRequest frame = .ok req' ∧
      frame.length ≤ maxMessageSize ∧
        (frame.length = maxMessageSize ∨ ∃ e, c.client = .returned (.error e)) := by
  intro c
  have hphase : RPCCall.Phase J fn frame c := RPCCall.phase_run fn hJ hframe events
  generalize c = c' at hphase ⊢
  cases hphase with
  | asking => exact .inl rfl
  | abandoned => exact .inl rfl
  | answering hclient hlong => exact RPCCall.ranLate_fullAnswer hJ hframe hlong _
  | dropped => exact .inl rfl
  | ended _ _ hhandled => simpa [RPCCall.RanLate] using hhandled

/-! ## A request without a body -/

section Reference

/-- Small letters and blanks: what JSON writes as it is. -/
def plainByte (b : UInt8) : Bool := b = 0x20 || (0x61 ≤ b && b ≤ 0x7a)

/-- The bytes of an ASCII text. -/
def asciiBytes (s : String) : Bytes := s.toList.map fun c => UInt8.ofNat c.toNat

/-- A text of such bytes. -/
def plainBytes (s : String) : Option Bytes :=
  if s.toList.all (fun c => c.toNat < 256) ∧ (asciiBytes s).all plainByte then some (asciiBytes s)
  else none

def plainText (bytes : Bytes) : String := String.ofList (bytes.map fun b => Char.ofNat b.toNat)

/-- An object whose last field is a text. -/
def objectBytes (front text : Bytes) : Bytes := front ++ (text ++ [0x22, 0x7d])

/-- The text of such an object. -/
def readObject (front data : Bytes) : Option Bytes :=
  let rest := data.drop front.length
  if front = data.take front.length ∧ rest.dropWhile plainByte = [0x22, 0x7d] then
    some (rest.takeWhile plainByte)
  else none

theorem readObject_eq_some {front data text : Bytes} (h : readObject front data = some text) :
    data = objectBytes front text ∧ text.all plainByte := by
  unfold readObject at h
  dsimp only at h
  split_ifs at h with hobject
  obtain ⟨hfront, hback⟩ := hobject
  obtain rfl := Option.some.inj h
  refine ⟨?_, List.all_takeWhile⟩
  calc data = data.take front.length ++ data.drop front.length :=
        (List.take_append_drop _ _).symm
    _ = front ++ (List.takeWhile plainByte (data.drop front.length) ++
          List.dropWhile plainByte (data.drop front.length)) := by
        rw [← hfront, List.takeWhile_append_dropWhile]
    _ = _ := by rw [hback, objectBytes]

/-- A text ends at its quote. -/
theorem takeWhile_text {text : Bytes} (htext : text.all plainByte) (more : Bytes) :
    (text ++ 0x22 :: more).takeWhile plainByte = text := by
  rw [List.takeWhile_append_of_pos (List.all_eq_true.mp htext),
    List.takeWhile_cons_of_neg (by decide), List.append_nil]

/-- Nothing is read of an object that is not there to its brace. -/
theorem readObject_prefix {front text data text' : Bytes} (htext : text.all plainByte)
    (hdata : data <+: objectBytes front text) (hne : data ≠ objectBytes front text) :
    readObject front data ≠ some text' := by
  intro hread
  obtain ⟨rfl, htext'⟩ := readObject_eq_some hread
  obtain ⟨more, hmore⟩ := hdata
  rw [objectBytes, objectBytes, List.append_assoc, List.append_cancel_left_eq,
    List.append_assoc] at hmore
  -- Both texts end at the first quote.
  have htexts := congrArg (List.takeWhile plainByte) hmore
  rw [takeWhile_text htext, List.cons_append, takeWhile_text htext'] at htexts
  exact hne (by rw [htexts])

/-- What a request begins with, and what a refusal does. -/
def requestFront : Bytes := asciiBytes "\x7b\"method\":\""

def refusalFront : Bytes := asciiBytes "\x7b\"ok\":false,\"error\":\""

/-- JSON, on requests with a plain method and refusals with a plain error. -/
def plainFrames : Frames where
  marshalRequest req :=
    match plainBytes req.method, req.body with
    | some method, none => .ok (objectBytes requestFront method)
    | _, _ => .error "not plain"
  unmarshalRequest data :=
    match readObject requestFront data with
    | some method => .ok ⟨plainText method, none⟩
    | none => .error "not plain"
  marshalResponse resp :=
    match plainBytes resp.error, resp.ok, resp.body with
    | some error, false, none =>
      .ok (objectBytes refusalFront error)
    | _, _, _ => .error "not plain"
  unmarshalResponse data :=
    match readObject refusalFront data with
    | some error => .ok { ok := false, error := plainText error }
    | none => .error "not plain"

theorem plainBytes_all {s : String} {bytes : Bytes} (h : plainBytes s = some bytes) :
    bytes.all plainByte := by
  unfold plainBytes at h
  split_ifs at h with hplain
  exact Option.some.inj h ▸ hplain.2

theorem plainFrames_delimited : plainFrames.Delimited where
  request := by
    intro req bytes hbytes front hfront hne req' hread
    simp only [plainFrames] at hbytes hread
    split at hbytes
    · rename_i method hmethod _
      obtain rfl := Except.ok.inj hbytes
      split at hread
      · exact readObject_prefix (plainBytes_all hmethod) hfront hne ‹_›
      · exact nomatch hread
    · exact nomatch hbytes
  response := by
    intro resp bytes hbytes front hfront hne resp' hread
    simp only [plainFrames] at hbytes hread
    split at hbytes
    · rename_i error herror _ _
      obtain rfl := Except.ok.inj hbytes
      split at hread
      · exact readObject_prefix (plainBytes_all herror) hfront hne ‹_›
      · exact nomatch hread
    · exact nomatch hbytes
  empty := by
    rintro resp ⟨⟩

/-- The handler of a workload, for a peer. -/
abbrev healthz : RPCRequest → RPCResponse := healthHandler "peer"

/-- A ping is a short request. -/
def pingFrame : Bytes := objectBytes requestFront (asciiBytes "ping")

/-- It is never answered, though the handler would know what to say. -/
theorem ping_unanswered : ¬ ∃ resp events,
    (run (RPCCall.step plainFrames healthz) (sendRequest pingFrame) events).client =
      .returned (.ok resp) := by
  rintro ⟨resp, hevents⟩
  have hanswered := (sendRequest_answered_iff plainFrames plainFrames_delimited healthz ⟨"ping", none⟩
    pingFrame rfl resp).mp hevents
  exact absurd hanswered.long (by decide)

/-- And the handler runs it once the caller has left. -/
theorem ping_handled_late :
    let c := run (RPCCall.step plainFrames healthz) (sendRequest pingFrame)
      [.clientWrites 17, .serverReads 9, .clientReadFails "i/o deadline reached",
        .serverReads maxMessageSize, .serverEnd]
    c.handled.length = 1 ∧ ∃ e, c.client = .returned (.error e) := by
  intro c
  have hhandled : c.handled.length = 1 := by decide
  refine ⟨hhandled, ?_⟩
  obtain hnone | ⟨req', -, -, -, hfull | hgaveUp⟩ := handled_late plainFrames plainFrames_delimited
    healthz ⟨"ping", none⟩ pingFrame rfl
      [.clientWrites 17, .serverReads 9, .clientReadFails "i/o deadline reached",
        .serverReads maxMessageSize, .serverEnd]
  · rw [show c.handled = [] from hnone] at hhandled
    exact nomatch hhandled
  · exact absurd hfull (by decide)
  · exact hgaveUp

end Reference

end Beemesh.Workplane

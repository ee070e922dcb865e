import Beemesh.Envelope.Verify
import Beemesh.Node.Runtime

/-!
# Messages of a node

The tables a node reads inside an envelope, the replies it sends, and the pure functions of its
handlers: the manifest id inside a request id and the manifest inside an apply request. The YAML
and KEM operations are taken from the platform.

## Main definitions

* `CapacityRequest`, `CapacityReply`, `ApplyRequest`, `DeleteRequest`, `Response`
* `NodePlatform`: the external operations of the handlers
* `extractManifestIdFromRequestId`, `decryptManifestContent`, `createDeploymentConfig`
-/

namespace Beemesh

/-! ## Tables -/

structure CapacityRequest where
  requestId : Option String
  cpuMilli : U32
  memoryBytes : U64
  storageBytes : U64
  replicas : U32

/-- What a capacity request asks for. -/
def CapacityRequest.resources (req : CapacityRequest) : ResourceRequest :=
  ResourceRequest.new (some req.cpuMilli) (some req.memoryBytes) (some req.storageBytes)
    req.replicas

/-- What a node reads of a `CapacityReply`. -/
structure CapacityReply where
  requestId : Option String
  kemPubkey : Option String

/-- What a node reads of an `ApplyRequest`. -/
structure ApplyRequest where
  replicas : U32
  operationId : Option String
  manifestJson : Option String
  manifestId : Option String

structure DeleteRequest where
  manifestId : Option String
  operationId : Option String
  force : Bool

/-- The operations outside the handlers that they call, besides those of the envelope. -/
structure NodePlatform extends Platform where
  rootAsCapacityRequest : Bytes → Except String CapacityRequest
  rootAsCapacityReply : Bytes → Except String CapacityReply
  rootAsApplyRequest : Bytes → Except String ApplyRequest
  rootAsDeleteRequest : Bytes → Except String DeleteRequest
  /-- `ensure_kem_keypair_on_disk`, its private half. -/
  kemPrivateKey : Except String Bytes
  decryptPayloadFromRecipientBlob : Bytes → Bytes → Except String Bytes
  /-- `modify_manifest_replicas`: a rewriting of the parsed YAML. -/
  modifyManifestReplicas : Bytes → Except String Bytes
  /-- The annotation `beemesh.io/runtime-engine` of the parsed YAML. -/
  runtimeEngineAnnotation : Bytes → Option String

/-! ## Request ids -/

def freeCapacityPrefix : String := "beemesh-free-capacity"

/-- `str::split` at a character. -/
def splitAt (c : Char) (s : String) : List String := (s.toList.splitOn c).map String.ofList

/-- `extract_manifest_id_from_request_id`: `prefix:manifest_id:uuid`, and else the second
dash-separated part of an id that starts with the prefix. -/
def extractManifestIdFromRequestId (requestId : String) : Option String :=
  let legacy :=
    if freeCapacityPrefix.toList.isPrefixOf requestId.toList then
      match splitAt '-' requestId with
      | _ :: part :: _ => if part ≠ "" then some part else none
      | _ => none
    else none
  -- The prefix has dashes itself, so the legacy part of such an id is always `free`.
  match splitAt ':' requestId with
  | head :: manifest :: _ =>
    if head = freeCapacityPrefix ∧ manifest ≠ "" then some manifest else legacy
  | _ => legacy

/-! ## Apply requests -/

/-- `decrypt_manifest_from_envelope`. -/
def NodePlatform.decryptManifestFromEnvelope (P : NodePlatform) (payload : Bytes) :
    Except String Bytes :=
  if payload.head? ≠ some 0x02 then
    .error "unsupported payload format: expected recipient-blob (version byte 0x02)"
  else
    match P.kemPrivateKey with
    | .error e => .error s!"failed to load KEM keypair: {e}"
    | .ok key =>
      match P.decryptPayloadFromRecipientBlob payload key with
      | .error e => .error s!"recipient-blob decryption failed: {e}"
      | .ok plaintext =>
        if (String.fromUTF8? ⟨⟨plaintext⟩⟩).isSome then .ok plaintext
        else .error "decrypted manifest is not valid UTF-8"

/-- `decrypt_manifest_content`: the payload of a `manifest` envelope, decrypted, and else the text
as it is. -/
def NodePlatform.decryptManifestContent (P : NodePlatform) (manifestJson : String) :
    Except String Bytes := do
  let envelopeBytes ← P.base64Decode manifestJson
  let envelope ← P.rootAsEnvelope envelopeBytes
  if envelope.payloadType.getD "" = "manifest" then
    match envelope.payload with
    | some payload =>
      match P.decryptManifestFromEnvelope payload with
      | .ok content => .ok content
      | .error e => .error s!"decryption failed: {e}"
    | none => .error "Missing payload in envelope"
  -- Not a manifest: the text is passed on as it came, base64 and all.
  else .ok manifestJson.toUTF8.data.toList

/-- `create_deployment_config`. -/
def createDeploymentConfig (req : ApplyRequest) : DeploymentConfig where
  replicas := req.replicas
  env := match req.operationId with
    | some operationId => (∅ : Table String String).insert "BEEMESH_OPERATION_ID" operationId
    | none => ∅

/-! ## Replies -/

/-- `CapacityReplyParams`, with the baseline values. -/
structure CapacityReplyParams where
  ok : Bool := true
  cpuMilli : U32 := 1000
  memoryBytes : U64 := 1024 * 1024 * 512
  storageBytes : U64 := 1024 * 1024 * 1024
  requestId : String
  responderPeer : String
  region : String := "local"
  capabilities : List String := ["default"]

/-- What a handler sends back. -/
inductive Response
  | capacityReply (params : CapacityReplyParams)
  | applyResponse (ok : Bool) (operationId message : String)
  | deleteResponse (ok : Bool) (operationId message manifestId : String) (removed : List String)

end Beemesh

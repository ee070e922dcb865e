import Beemesh.Node.Unwrapping
import Beemesh.Rest.Middleware
import Beemesh.Rest.Response

/-!
# Requests of the command line, and the answers to them

`FlatbufferClient` fetches the KEM key of a machine, encrypts its requests for it and signs them;
the middleware of the machine hands the decrypted payload to a handler, with the keys of the client;
and what the handler answers is encrypted for the client. The client decrypts whatever envelope
comes back. It knows no signing key of the machine, and verifies nothing.

## Main definitions

* `FlatbufferClient` with `new`, `fetchMachinePublicKey`, `requestEnvelope`
* `FlatbufferClient.decryptFromMachine`, `FlatbufferClient.readAnswer`: how answers are read
* `getKemPublicKey`: what the machine says of its KEM key

## Main results

* `request_admitted_iff`: the requests that reach their handler as they were made
* `answer_read`: the client reads what was encrypted for it, whoever signed it
* `exchange`: a request and its answer
-/

namespace Beemesh

open Outcome

/-! ## The client -/

structure FlatbufferClient where
  privateKey : Bytes
  publicKey : String
  kemPublicKey : Bytes
  kemPrivateKey : Bytes
  machinePublicKey : Option Bytes

/-- What a request draws: the randomness of its encryption, a nonce and the time. With a known
machine the nonce is a hash of the time, and else sixteen random bytes. -/
structure RequestDraws where
  seed : Bytes
  nonceBytes : Bytes
  timeHash : String
  random : Bytes
  ts : U64

/-- An answer: its status, with the reason that is printed with it, and its body. -/
structure HttpAnswer where
  status : ℕ
  reason : String := ""
  body : Bytes

def HttpAnswer.isSuccess (answer : HttpAnswer) : Bool := 200 ≤ answer.status && answer.status < 300

/-- `get_kem_public_key`. -/
def getKemPublicKey (P : Platform) (kemOnDisk : Except String (Bytes × Bytes)) : String :=
  match kemOnDisk with
  | .ok (kemPubBytes, _) => P.base64Encode kemPubBytes
  | .error e => "ERROR: Failed to get KEM public key: " ++ e

namespace FlatbufferClient

variable (P : CryptoPlatform)

/-- `FlatbufferClient::new`, on the key pairs that are on disk. -/
def new (onDisk kemOnDisk : Except AnyhowError (Bytes × Bytes)) :
    Except AnyhowError FlatbufferClient := do
  anyhow P.ensurePqcInit
  let (publicKeyBytes, privateKey) ← onDisk
  let (kemPubBytes, kemPrivBytes) ← kemOnDisk
  return ⟨privateKey, P.base64Encode publicKeyBytes, kemPubBytes, kemPrivBytes, none⟩

/-- `fetch_machine_public_key`, on the answer of the machine and its text. -/
def fetchMachinePublicKey (client : FlatbufferClient) (answer : HttpAnswer) (text : String) :
    Except AnyhowError FlatbufferClient := do
  let reason := answer.reason
  bailIf (answer.isSuccess = false) s!"Failed to fetch machine pubkey: {reason} - Response: {text}"
  bailIf ("ERROR:".toList.isPrefixOf text.toList) ("Machine returned error: " ++ text)
  let pubkeyBytes ← mapErr ("Failed to decode public key: " ++ ·) (P.base64Decode text)
  return { client with machinePublicKey := some pubkeyBytes }

/-- The key that the client signs with and its advertised key, in an envelope with a peer. -/
def signWithPeer (client : FlatbufferClient) (payload : Bytes) (payloadType nonce : String)
    (ts : U64) : Except AnyhowError Bytes := do
  let kem := some (P.base64Encode client.kemPublicKey)
  let canonical := P.buildEnvelopeCanonicalWithPeer payload payloadType nonce ts "ml-dsa-65"
    "cli-client" kem
  let senderPubkeyBytes ← mapErr ("Failed to decode sender public key: " ++ ·)
    (P.base64Decode client.publicKey)
  let (sigB64, pubB64) ← P.signEnvelope client.privateKey senderPubkeyBytes canonical
  return P.buildEnvelopeSignedWithPeer payload payloadType nonce ts "ml-dsa-65" "ml-dsa-65" sigB64
    pubB64 "cli-client" kem

/-- The envelope that `send_encrypted_request` posts: with `build_encrypted_envelope_with_peer` for
a machine whose key is known, and else in plain. -/
def requestEnvelope (client : FlatbufferClient) (draws : RequestDraws) (payload : Bytes)
    (payloadType : String) : Except AnyhowError Bytes :=
  match client.machinePublicKey with
  | some machinePubkey => do
    let encryptedPayload ← P.encryptPayloadForRecipient draws.seed draws.nonceBytes machinePubkey
      payload
    client.signWithPeer P encryptedPayload payloadType draws.timeHash draws.ts
  | none => client.signWithPeer P payload payloadType (P.base64Encode draws.random) draws.ts

/-- `decrypt_from_machine`. Neither the signature nor the key of the envelope is looked at. -/
def decryptFromMachine (client : FlatbufferClient) (envelopeBytes : Bytes) :
    Outcome AnyhowError Bytes :=
  match P.rootAsEnvelope envelopeBytes with
  | .error e => err ["Failed to parse envelope: " ++ e]
  | .ok envelope =>
    let payloadBytes := envelope.payload.getD []
    if payloadBytes.head? = some 0x02 then
      P.decryptPayloadFromRecipientBlob payloadBytes client.kemPrivateKey
    else ok payloadBytes

/-- What `send_encrypted_request` makes of an answer, and of its text. -/
def readAnswer (client : FlatbufferClient) (answer : HttpAnswer) (text : String) :
    Outcome AnyhowError Bytes :=
  let reason := answer.reason
  if answer.status = 405 then ok text.toUTF8.data.toList
  else if answer.isSuccess = false then err [s!"Request failed: {reason} {text}"]
  else if 100 < answer.body.length ∧ client.machinePublicKey.isSome then
    match P.rootAsEnvelope answer.body with
    | .error _ => ok answer.body
    | .ok _ =>
      match client.decryptFromMachine P answer.body with
      | .ok decrypted => ok decrypted
      -- What does not decrypt is taken for the answer itself.
      | .err _ => ok answer.body
      | .panic => panic
  else ok answer.body

/-- The nonce of a request. -/
def requestNonce (client : FlatbufferClient) (draws : RequestDraws) : String :=
  if client.machinePublicKey.isSome then draws.timeHash else P.base64Encode draws.random

/-- The client signs with this key pair. -/
structure SignsWith (client : FlatbufferClient) (pubBytes skBytes : Bytes) : Prop where
  publicKey : client.publicKey = P.base64Encode pubBytes
  privateKey : client.privateKey = skBytes

/-- What a handler is told of the client. -/
def metadata (client : FlatbufferClient) (pubBytes : Bytes) : RequestMetadata where
  peerId := some "cli-client"
  signingPubkey := pubBytes
  kemPubkey := client.kemPublicKey

end FlatbufferClient

/-! ## Requests -/

section Requests

variable {P : CryptoPlatform} {client : FlatbufferClient} {pubBytes skBytes : Bytes}

/-- A signed envelope of the client opens, and tells of the client. -/
theorem signWithPeer_opens (hround : P.EnvelopeRoundTrip) (hb64 : P.Base64RoundTrip)
    (keys : P.KeyPair pubBytes skBytes) (hsigns : client.SignsWith P pubBytes skBytes)
    (payload : Bytes) (payloadType nonce : String) (ts : U64) :
    ∃ bytes o, client.signWithPeer P payload payloadType nonce ts = .ok bytes ∧
      P.openEnvelope bytes = .ok o ∧ P.checkSignature o = .ok () ∧ o.nonce = nonce ∧
      o.envelope.payload = some payload ∧ o.envelope.peerId = some "cli-client" ∧
      P.requestMetadata o.envelope = client.metadata pubBytes := by
  let table (sig pubkey : String) := Platform.envelopeArgs payload payloadType nonce ts "ml-dsa-65"
    sig pubkey (some (P.base64Encode client.kemPublicKey)) "cli-client"
  -- The key pair signs the table with empty signature and key.
  obtain ⟨sigBytes, hsign, hverify⟩ :=
    keys.verifyEnvelope_signEnvelope (P.finishEnvelope (table "" ""))
  let envelope := table ("ml-dsa-65" ++ ":" ++ P.base64Encode sigBytes) (P.base64Encode pubBytes)
  refine ⟨P.finishEnvelope envelope, ⟨envelope, sigBytes, pubBytes⟩, ?_, ?_, ?_, rfl, rfl, rfl, ?_⟩
  · rw [FlatbufferClient.signWithPeer, hsigns.publicKey, hsigns.privateKey, hb64 pubBytes]
    change P.signEnvelope skBytes pubBytes (P.finishEnvelope (table "" "")) >>= _ = _
    rw [hsign]
    rfl
  · apply openEnvelope_ok_iff.mpr
    exact ⟨hround _, P.normalizeAndDecodeSignature_prefixed hb64 (by decide) sigBytes,
      hb64 pubBytes⟩
  · rw [checkSignature_ok_iff]
    exact hverify
  · change RequestMetadata.mk ⟨some "cli-client", P.decodeKey (some (P.base64Encode pubBytes))⟩
      (P.decodeKey (some (P.base64Encode client.kemPublicKey))) = _
    rw [decodeKey_encode hb64, decodeKey_encode hb64]
    rfl

/-- What is posted as an envelope. -/
def envelopeRequest (route : MutatingRoute) (bytes : Bytes) : HttpRequest :=
  ⟨route, some octetStream.toUTF8.data.toList, some bytes⟩

theorem envelopeRequest_contentType (route : MutatingRoute) (bytes : Bytes) :
    (envelopeRequest route bytes).contentTypeStr = octetStream := by
  change (headerToStr octetStream.toUTF8.data.toList).getD "" = octetStream
  decide

variable {handler : EnvelopeHandler} {store : NonceStore} {now : Instant}

/-- What the middleware makes of a signed envelope of the client. -/
theorem signWithPeer_next_iff (hround : P.EnvelopeRoundTrip) (hb64 : P.Base64RoundTrip)
    (keys : P.KeyPair pubBytes skBytes) (hsigns : client.SignsWith P pubBytes skBytes)
    {sent bytes : Bytes} {payloadType nonce : String} {ts : U64}
    (hbytes : client.signWithPeer P sent payloadType nonce ts = .ok bytes)
    (hfresh : ¬ store.Live now nonceWindow "cli-client" nonce) (route : MutatingRoute)
    (payload : Bytes) :
    (P.envelopeMiddleware handler store now (envelopeRequest route bytes)).1 =
        .next ⟨route, client.metadata pubBytes, some payload⟩ ↔
      P.decryptPayloadFromRecipientBlob sent handler.kemPrivateKey = ok payload := by
  obtain ⟨bytes', o, hbytes', hopen, hsig, hnonce, hsent, hpeer, hmetadata⟩ :=
    signWithPeer_opens hround hb64 keys hsigns sent payloadType nonce ts
  obtain rfl := Except.ok.inj (hbytes.symm.trans hbytes')
  have henvelope : P.rootAsEnvelope bytes = .ok o.envelope := (openEnvelope_ok_iff.mp hopen).1
  have hverify : (P.verifyFlatbufferEnvelopeForPeer store now bytes nonceWindow
      (o.envelope.peerId.getD "global")).1 = .ok o.parts := by
    rw [hpeer]
    exact verify_ok_iff.mpr ⟨o, hopen, .inr (hnonce ▸ hfresh), hsig, rfl⟩
  constructor
  · intro h
    rcases envelopeMiddleware_next h with ⟨_, _, -, -, -, -, hauthentic⟩ | ⟨hother, -, -⟩
    · obtain ⟨bytes', envelope, parts, sent', plain, hbody, hparsed, -, hpayload, hplain, hbodied⟩ :=
        hauthentic
      obtain rfl : bytes = bytes' := Option.some.inj hbody
      obtain rfl := Except.ok.inj (henvelope.symm.trans hparsed)
      obtain rfl : sent = sent' := Option.some.inj (hsent.symm.trans hpayload)
      obtain rfl : payload = plain := Option.some.inj hbodied
      exact hplain
    · -- An envelope in the right content type is not passed on as it came.
      rcases hother with htype | ⟨bytes', e, hbody, herror⟩
      · exact absurd (envelopeRequest_contentType route bytes) htype
      · obtain rfl : bytes = bytes' := Option.some.inj hbody
        rw [henvelope] at herror
        exact nomatch herror
  · intro h
    rw [envelopeMiddleware_of_envelope (envelopeRequest_contentType route bytes) rfl henvelope
      hverify hsent h, hmetadata]
    rfl

/-- A request for a machine whose key the client has fetched reaches its handler as it was made. -/
theorem requestEnvelope_next (hround : P.EnvelopeRoundTrip) (hb64 : P.Base64RoundTrip)
    (haes : P.AesGcmRoundTrip) (keys : P.KeyPair pubBytes skBytes)
    (hsigns : client.SignsWith P pubBytes skBytes) {machinePub : Bytes}
    (kems : P.KemKeyPair machinePub handler.kemPrivateKey)
    (hkey : client.machinePublicKey = some machinePub) {draws : RequestDraws}
    (hdraws : draws.nonceBytes.length = 12) {payload : Bytes}
    (hfits : P.FieldsFit draws.seed draws.nonceBytes machinePub payload)
    {payloadType : String} {bytes : Bytes}
    (hbytes : client.requestEnvelope P draws payload payloadType = .ok bytes)
    (hfresh : ¬ store.Live now nonceWindow "cli-client" draws.timeHash) (route : MutatingRoute) :
    (P.envelopeMiddleware handler store now (envelopeRequest route bytes)).1 =
      .next ⟨route, client.metadata pubBytes, some payload⟩ := by
  simp only [FlatbufferClient.requestEnvelope, hkey] at hbytes
  obtain ⟨blob, hblob, hsigned⟩ := Beemesh.bind_eq_ok_iff.mp hbytes
  rw [signWithPeer_next_iff hround hb64 keys hsigns hsigned hfresh]
  have hdecrypt := (decrypt_encrypt P haes kems hdraws hfits hblob).1 []
  rwa [List.append_nil] at hdecrypt

/-- **The requests that reach their handler as they were made**: those of a client that has fetched
the key of the machine. Without it, nothing that is sent decrypts to itself. -/
theorem request_admitted_iff (hround : P.EnvelopeRoundTrip) (hb64 : P.Base64RoundTrip)
    (haes : P.AesGcmRoundTrip) (hshort : P.DecryptsShorter) (keys : P.KeyPair pubBytes skBytes)
    (hsigns : client.SignsWith P pubBytes skBytes) {machinePub : Bytes}
    (kems : P.KemKeyPair machinePub handler.kemPrivateKey)
    (hkey : ∀ key, client.machinePublicKey = some key → key = machinePub) {draws : RequestDraws}
    (hdraws : draws.nonceBytes.length = 12) {payload : Bytes}
    (hfits : P.FieldsFit draws.seed draws.nonceBytes machinePub payload)
    {payloadType : String} {bytes : Bytes}
    (hbytes : client.requestEnvelope P draws payload payloadType = .ok bytes)
    (hfresh : ¬ store.Live now nonceWindow "cli-client" (client.requestNonce P draws))
    (route : MutatingRoute) :
    (P.envelopeMiddleware handler store now (envelopeRequest route bytes)).1 =
        .next ⟨route, client.metadata pubBytes, some payload⟩ ↔
      client.machinePublicKey.isSome = true := by
  cases hmachine : client.machinePublicKey with
  | none =>
    simp only [FlatbufferClient.requestEnvelope, FlatbufferClient.requestNonce, hmachine,
      Option.isSome_none, Bool.false_eq_true, if_false] at hbytes hfresh
    rw [signWithPeer_next_iff hround hb64 keys hsigns hbytes hfresh]
    refine iff_of_false (fun hplain => ?_) (by simp)
    exact absurd (length_decrypt_lt hshort hplain) (lt_irrefl _)
  | some key =>
    obtain rfl := hkey key hmachine
    simp only [FlatbufferClient.requestNonce, hmachine, Option.isSome_some, if_true] at hfresh
    exact iff_of_true (requestEnvelope_next hround hb64 haes keys hsigns kems hmachine hdraws hfits
      hbytes hfresh route) rfl

end Requests

/-! ## Answers -/

section Answers

variable {P : CryptoPlatform} {client : FlatbufferClient}

/-- The ciphertexts of ML-KEM-512 have 768 bytes. -/
def CryptoPlatform.KemCiphertextSize (P : CryptoPlatform) : Prop :=
  ∀ ct, (P.kemCiphertextToBytes ct).length = 768

/-- A blob is no shorter than the secret that is wrapped in it. -/
theorem length_blob (hsize : P.KemCiphertextSize) {seed nonceBytes pub payload blob : Bytes}
    (hblob : P.encryptPayloadForRecipient seed nonceBytes pub payload = .ok blob) :
    768 < blob.length := by
  simp only [CryptoPlatform.encryptPayloadForRecipient, CryptoPlatform.encapsulateToPubkey,
    Beemesh.bind_eq_ok_iff] at hblob
  obtain ⟨⟨wrappedCt, sharedSecret⟩, ⟨_, -, _, -, ⟨shared, ct⟩, -, hwrapped⟩, key, -, ciphertext, -,
    hwritten⟩ := hblob
  obtain ⟨rfl, rfl⟩ := Prod.mk.inj (Except.ok.inj hwrapped)
  obtain rfl := Except.ok.inj hwritten
  rw [length_writeBlob, hsize]
  omega

/-- **The client reads what was encrypted for it**, whoever signed it, and if nobody did: no other
field of the envelope matters. -/
theorem answer_read (hround : P.EnvelopeRoundTrip) (hinside : P.PayloadInside)
    (haes : P.AesGcmRoundTrip) (hsize : P.KemCiphertextSize)
    (kems : P.KemKeyPair client.kemPublicKey client.kemPrivateKey)
    (hfetched : client.machinePublicKey.isSome) {seed nonceBytes : Bytes}
    (hdraws : nonceBytes.length = 12) {reply blob : Bytes}
    (hfits : P.FieldsFit seed nonceBytes client.kemPublicKey reply)
    (hblob : P.encryptPayloadForRecipient seed nonceBytes client.kemPublicKey reply = .ok blob)
    (envelope : Envelope) (hpayload : envelope.payload = some blob) (text : String) :
    client.readAnswer P { status := 200, body := P.finishEnvelope envelope } text = ok reply := by
  have hlong : 100 < (P.finishEnvelope envelope).length := by
    have hblobLength := length_blob hsize hblob
    have hle := hinside _ _ _ (hround envelope) hpayload
    omega
  have hdecrypt := (decrypt_encrypt P haes kems hdraws hfits hblob).1 []
  rw [List.append_nil] at hdecrypt
  have hversion : blob.head? = some 0x02 :=
    head?_of_recipientBlob (recipientBlob_of_encrypt haes kems hdraws hfits hblob)
  simp only [FlatbufferClient.readAnswer, FlatbufferClient.decryptFromMachine, hround envelope,
    hpayload, Option.getD_some, hversion, hdecrypt, hlong, hfetched, HttpAnswer.isSuccess]
  rfl

/-- A response is an envelope of what was encrypted for the client. -/
theorem encryptResponse_payload {handler : EnvelopeHandler} {draws : ResponseDraws}
    {reply : Bytes} {payloadType peer : String} {kemPubkey bytes : Bytes}
    (h : encryptResponseEnvelopeWithKey P handler draws reply payloadType peer kemPubkey =
      .ok bytes) :
    ∃ blob envelope,
      P.encryptPayloadForRecipient draws.seed draws.nonceBytes kemPubkey reply = .ok blob ∧
        envelope.payload = some blob ∧ bytes = P.finishEnvelope envelope := by
  simp only [encryptResponseEnvelopeWithKey, Beemesh.bind_eq_ok_iff] at h
  obtain ⟨-, -, -, -, blob, hblob, -, -, -, -, ⟨sigB64, pubB64⟩, -, hbytes⟩ := h
  refine ⟨blob, Platform.envelopeArgs blob payloadType draws.uuid draws.ts "ml-dsa-65"
    ("ml-dsa-65" ++ ":" ++ sigB64) pubB64 none "", hblob, rfl, ?_⟩
  exact (Except.ok.inj hbytes).symm

end Answers

/-! ## A request and its answer -/

/-- A client that has been made and has fetched the key of its machine. -/
theorem fetched_client {P : CryptoPlatform} (hb64 : P.Base64RoundTrip)
    {pubBytes skBytes kemPub kemPriv machinePub machinePriv : Bytes}
    {client₀ client : FlatbufferClient} {answer : HttpAnswer}
    (hnew : FlatbufferClient.new P (.ok (pubBytes, skBytes)) (.ok (kemPub, kemPriv)) = .ok client₀)
    (hfetch : client₀.fetchMachinePublicKey P answer
      (getKemPublicKey P.toPlatform (.ok (machinePub, machinePriv))) = .ok client) :
    client = ⟨skBytes, P.base64Encode pubBytes, kemPub, kemPriv, some machinePub⟩ := by
  simp only [FlatbufferClient.new, Beemesh.bind_eq_ok_iff] at hnew
  obtain ⟨-, -, keys, hkeys, kems, hkems, hmade⟩ := hnew
  obtain rfl := Except.ok.inj hkeys
  obtain rfl := Except.ok.inj hkems
  obtain rfl := Except.ok.inj hmade
  simp only [FlatbufferClient.fetchMachinePublicKey, Beemesh.bind_eq_ok_iff, mapErr_eq_ok_iff]
    at hfetch
  obtain ⟨-, -, -, -, key, hkey, hclient⟩ := hfetch
  obtain rfl := Except.ok.inj ((hb64 machinePub).symm.trans hkey)
  exact (Except.ok.inj hclient).symm

/-- **A request and its answer**: what a client that has fetched the key of the machine asks reaches
the handler as it was made, with the keys of the client, and whatever the handler then answers to
the key that it is told of, the client reads. So it does what anybody else encrypts for it. -/
theorem exchange (P : CryptoPlatform) (hround : P.EnvelopeRoundTrip) (hb64 : P.Base64RoundTrip)
    (haes : P.AesGcmRoundTrip) (hinside : P.PayloadInside) (hsize : P.KemCiphertextSize)
    {pubBytes skBytes kemPub kemPriv machinePub : Bytes}
    (keys : P.KeyPair pubBytes skBytes) (clientKems : P.KemKeyPair kemPub kemPriv)
    {handler : EnvelopeHandler} (machineKems : P.KemKeyPair machinePub handler.kemPrivateKey)
    {client₀ client : FlatbufferClient} {fetched : HttpAnswer}
    (hnew : FlatbufferClient.new P (.ok (pubBytes, skBytes)) (.ok (kemPub, kemPriv)) = .ok client₀)
    (hfetch : client₀.fetchMachinePublicKey P fetched
      (getKemPublicKey P.toPlatform (.ok (machinePub, handler.kemPrivateKey))) = .ok client)
    {draws : RequestDraws} (hdraws : draws.nonceBytes.length = 12) {payload : Bytes}
    (hfits : P.FieldsFit draws.seed draws.nonceBytes machinePub payload) {payloadType : String}
    {bytes : Bytes} (hbytes : client.requestEnvelope P draws payload payloadType = .ok bytes)
    {store : NonceStore} {now : Instant}
    (hfresh : ¬ store.Live now nonceWindow "cli-client" draws.timeHash) (route : MutatingRoute) :
    ∃ metadata, (P.envelopeMiddleware handler store now (envelopeRequest route bytes)).1 =
        .next ⟨route, metadata, some payload⟩ ∧
      metadata.signingPubkey = pubBytes ∧ metadata.peerId = some "cli-client" ∧
      (∀ (draws' : ResponseDraws) (reply answer : Bytes) (replyType peer text : String),
        draws'.nonceBytes.length = 12 →
        P.FieldsFit draws'.seed draws'.nonceBytes kemPub reply →
        encryptResponseEnvelopeWithKey P handler draws' reply replyType peer metadata.kemPubkey =
          .ok answer →
        client.readAnswer P { status := 200, body := answer } text = ok reply) ∧
      ∀ (seed nonceBytes reply blob : Bytes) (envelope : Envelope) (text : String),
        nonceBytes.length = 12 → P.FieldsFit seed nonceBytes kemPub reply →
        P.encryptPayloadForRecipient seed nonceBytes kemPub reply = .ok blob →
        envelope.payload = some blob →
        client.readAnswer P { status := 200, body := P.finishEnvelope envelope } text =
          ok reply := by
  have hclient := fetched_client hb64 hnew hfetch
  have hread (seed nonceBytes reply blob : Bytes) (envelope : Envelope) (text : String)
      (hdraws' : nonceBytes.length = 12) (hfits' : P.FieldsFit seed nonceBytes kemPub reply)
      (hblob : P.encryptPayloadForRecipient seed nonceBytes kemPub reply = .ok blob)
      (hpayload : envelope.payload = some blob) :
      client.readAnswer P { status := 200, body := P.finishEnvelope envelope } text =
        ok reply := by
    subst hclient
    exact answer_read hround hinside haes hsize clientKems rfl hdraws' hfits' hblob envelope
      hpayload text
  refine ⟨client.metadata pubBytes, ?_, rfl, by rw [hclient]; rfl, ?_, hread⟩
  · have hsigns : client.SignsWith P pubBytes skBytes := by
      rw [hclient]
      exact ⟨rfl, rfl⟩
    have hkey : client.machinePublicKey = some machinePub := by rw [hclient]
    exact requestEnvelope_next hround hb64 haes keys hsigns machineKems hkey hdraws hfits hbytes
      hfresh route
  · intro draws' reply answer replyType peer text hdraws' hfits' hanswer
    have hkem : (client.metadata pubBytes).kemPubkey = kemPub := by
      rw [hclient]
      rfl
    rw [hkem] at hanswer
    obtain ⟨blob, envelope, hblob, hpayload, rfl⟩ := encryptResponse_payload hanswer
    exact hread _ _ reply blob envelope text hdraws' hfits' hblob hpayload

/-! ## On a reference platform -/

section Reference

/-- The crypto library of the reference node. -/
abbrev clientCrypto : CryptoPlatform := referenceCrypto trusting.toPlatform

def clientKeys : clientCrypto.KeyPair [7] [7] where
  pubk := [7]
  privk := [7]
  init := rfl
  pubBytes_eq := ⟨rfl, rfl⟩
  skBytes_eq := rfl
  verifies m := by
    refine ⟨m, rfl, rfl, ?_⟩
    change trusting.verify [7] m m = .ok true
    simp [trusting, referenceNodePlatform, referencePlatform]

theorem clientCrypto_payloadInside : clientCrypto.PayloadInside := fun bytes envelope payload h h' =>
  (trusting_payloadBehindHeader bytes envelope payload h h').le

theorem referenceCrypto_kemCiphertextSize (P : Platform) :
    (referenceCrypto P).KemCiphertextSize := fun ct => ct.2

/-- Short payloads fit. -/
theorem clientCrypto_fieldsFit {seed nonceBytes pub payload : Bytes} (hseed : seed.length = 768)
    (hpub : pub.length = 800) (hshort : nonceBytes.length + payload.length < 2 ^ 31) :
    clientCrypto.FieldsFit seed nonceBytes pub payload := by
  rintro wrappedCt sharedSecret ciphertext hwrapped hciphertext
  rw [referenceCrypto_encapsulateToPubkey (P := trusting.toPlatform) rfl hseed hpub] at hwrapped
  obtain ⟨rfl, rfl⟩ := Prod.mk.inj (Except.ok.inj hwrapped)
  obtain rfl := Except.ok.inj hciphertext
  refine ⟨by rw [hseed]; decide, ?_⟩
  simp only [List.length_append, List.length_take, hseed]
  omega

/-- A KEM public key. -/
def referenceKemPub : Bytes := .replicate 800 0

def clientKems : clientCrypto.KemKeyPair referenceKemPub referenceKemKey :=
  referenceKemKeys trusting.toPlatform List.length_replicate List.length_replicate

/-- Its base64 is not taken for an error. -/
theorem referenceKemPub_text :
    ¬ "ERROR:".toList.isPrefixOf (getKemPublicKey clientCrypto.toPlatform
      (.ok (referenceKemPub, referenceKemKey))).toList = true := by
  change ¬ "ERROR:".toList.isPrefixOf (Base64.encode referenceKemPub).toList = true
  have hzeros : referenceKemPub = 0 :: 0 :: 0 :: List.replicate 797 0 := rfl
  have hsymbol : Base64.symbol ((0 : UInt8).toNat / 4) = 'A' := by decide
  rw [Base64.encode, hzeros, Base64.encodeChars, hsymbol]
  generalize Base64.encodeChars (List.replicate 797 0) = rest
  simp

def someDraws : RequestDraws := ⟨.replicate 768 0, .replicate 12 0, "5f", [1], 5⟩

/-- A client of key `7` that has fetched a key, and one that has not. -/
def referenceClient (fetched : Bool) : FlatbufferClient :=
  ⟨[7], Base64.encode [7], referenceKemPub, referenceKemKey, if fetched then some referenceKemPub
    else none⟩

/-- Both post something. -/
theorem referenceClient_posts (fetched : Bool) (payload : Bytes) (payloadType : String) :
    ∃ bytes, (referenceClient fetched).requestEnvelope clientCrypto someDraws payload payloadType =
      .ok bytes := by
  have hround : clientCrypto.EnvelopeRoundTrip := referencePlatform_envelopeRoundTrip _
  have hb64 : clientCrypto.Base64RoundTrip := referencePlatform_base64RoundTrip _
  have hsigns (sent : Bytes) (nonce : String) :
      ∃ bytes, (referenceClient fetched).signWithPeer clientCrypto sent payloadType nonce 5 =
        .ok bytes := by
    have hkeyed : (referenceClient fetched).SignsWith clientCrypto [7] [7] := ⟨rfl, rfl⟩
    obtain ⟨bytes, o, hbytes, -⟩ :=
      signWithPeer_opens hround hb64 clientKeys hkeyed sent payloadType nonce 5
    exact ⟨bytes, hbytes⟩
  cases fetched with
  | false => exact hsigns payload _
  | true =>
    have hseed : someDraws.seed.length = 768 := List.length_replicate
    have hpub : referenceKemPub.length = 800 := List.length_replicate
    have hblob := referenceCrypto_encryptPayload (P := trusting.toPlatform) rfl hseed hpub
      someDraws.nonceBytes payload
    obtain ⟨bytes, hbytes⟩ := hsigns _ someDraws.timeHash
    refine ⟨bytes, Beemesh.bind_eq_ok_iff.mpr ⟨_, hblob, hbytes⟩⟩

/-- A task that is posted for a machine whose key is known arrives, and else it does not. -/
theorem request_admitted_reference :
    let arrives (fetched : Bool) (bytes : Bytes) : Prop :=
      (referenceClient fetched).requestEnvelope clientCrypto someDraws [1, 2] "task" = .ok bytes ∧
        (clientCrypto.envelopeMiddleware referenceHandler ∅ 0
          (envelopeRequest .createTask bytes)).1 =
            .next ⟨.createTask, (referenceClient fetched).metadata [7], some [1, 2]⟩
    (∃ bytes, arrives true bytes) ∧ ¬ ∃ bytes, arrives false bytes := by
  intro arrives
  have hseed : someDraws.seed.length = 768 := List.length_replicate
  have hpub : referenceKemPub.length = 800 := List.length_replicate
  have harrives {fetched : Bool} {bytes : Bytes}
      (hbytes : (referenceClient fetched).requestEnvelope clientCrypto someDraws [1, 2] "task" =
        .ok bytes) : arrives fetched bytes ↔ fetched = true := by
    rw [show arrives fetched bytes ↔ _ from and_iff_right hbytes]
    have hknown : ∀ key, (referenceClient fetched).machinePublicKey = some key →
        key = referenceKemPub := by
      intro key hkey
      cases fetched with
      | false => exact nomatch hkey
      | true => exact (Option.some.inj hkey).symm
    rw [request_admitted_iff (referencePlatform_envelopeRoundTrip _)
      (referencePlatform_base64RoundTrip _) (referenceCrypto_aesGcmRoundTrip _)
      (referenceCrypto_decryptsShorter _) clientKeys ⟨rfl, rfl⟩ clientKems hknown
      List.length_replicate
      (clientCrypto_fieldsFit hseed hpub (by decide)) hbytes (by cases fetched <;> decide)]
    cases fetched <;> decide
  obtain ⟨bytes, hbytes⟩ := referenceClient_posts true [1, 2] "task"
  refine ⟨⟨bytes, (harrives hbytes).mpr rfl⟩, ?_⟩
  rintro ⟨bytes', hbytes'⟩
  exact absurd ((harrives hbytes'.1).mp hbytes') (by decide)

/-- A task arrives, and an answer that nobody has signed is read. -/
theorem exchange_reference :
    ∃ bytes metadata blob,
      (referenceClient true).requestEnvelope clientCrypto someDraws [1, 2] "task" = .ok bytes ∧
      (clientCrypto.envelopeMiddleware referenceHandler ∅ 0
        (envelopeRequest .createTask bytes)).1 = .next ⟨.createTask, metadata, some [1, 2]⟩ ∧
      metadata.signingPubkey = [7] ∧
      (referenceClient true).readAnswer clientCrypto
        { status := 200, body := clientCrypto.finishEnvelope (wrapping "forged" blob) } "" =
          ok [3, 4] := by
  have hseed : someDraws.seed.length = 768 := List.length_replicate
  have hpub : referenceKemPub.length = 800 := List.length_replicate
  obtain ⟨bytes, hbytes⟩ := referenceClient_posts true [1, 2] "task"
  have hnew : FlatbufferClient.new clientCrypto (.ok ([7], [7]))
      (.ok (referenceKemPub, referenceKemKey)) = .ok (referenceClient false) := rfl
  have hfetch : (referenceClient false).fetchMachinePublicKey clientCrypto
      { status := 200, body := [] } (getKemPublicKey clientCrypto.toPlatform
        (.ok (referenceKemPub, referenceHandler.kemPrivateKey))) = .ok (referenceClient true) := by
    simp only [FlatbufferClient.fetchMachinePublicKey, Beemesh.bind_eq_ok_iff, mapErr_eq_ok_iff,
      bailIf_eq_ok_iff]
    exact ⟨(), by decide, (), referenceKemPub_text, _, referencePlatform_base64RoundTrip _ _, rfl⟩
  have hfresh : ¬ (∅ : NonceStore).Live 0 nonceWindow "cli-client" someDraws.timeHash := by decide
  obtain ⟨metadata, hnext, hpubkey, -, -, hread⟩ := exchange clientCrypto
    (referencePlatform_envelopeRoundTrip _) (referencePlatform_base64RoundTrip _)
    (referenceCrypto_aesGcmRoundTrip _) clientCrypto_payloadInside
    (referenceCrypto_kemCiphertextSize _) clientKeys clientKems clientKems hnew hfetch
    List.length_replicate (clientCrypto_fieldsFit hseed hpub (by decide)) hbytes hfresh .createTask
  obtain ⟨blob, hblob⟩ : ∃ blob, clientCrypto.encryptPayloadForRecipient (.replicate 768 0)
      (.replicate 12 0) referenceKemPub [3, 4] = .ok blob :=
    ⟨_, referenceCrypto_encryptPayload rfl hseed hpub _ _⟩
  have hforged := hread (.replicate 768 0) (.replicate 12 0) [3, 4] blob (wrapping "forged" blob) ""
    List.length_replicate (clientCrypto_fieldsFit hseed hpub (by decide)) hblob rfl
  exact ⟨bytes, metadata, blob, hbytes, hnext, hpubkey, hforged⟩

end Reference

end Beemesh

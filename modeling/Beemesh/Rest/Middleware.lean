import Beemesh.Crypto.Blob
import Beemesh.Rest.Control

/-!
# The envelope middleware

Every request to the REST interface goes through `envelope_middleware` before its handler runs. An
envelope is verified and decrypted there, and the handler gets the payload together with what the
envelope says about its sender; whatever is not an envelope is passed on as it came, with nothing
said about the sender.

## Main definitions

* `HttpRequest`, `Admitted`, `Passage`: a request, what a handler gets of it, and what becomes of it
* `EnvelopeHandler`, `decryptRequestEnvelope`, `envelopeMiddleware`
* `Authenticated`: the body was an envelope that verified, and the handler gets its payload

## Main results

* `envelopeMiddleware_next`: what a request that is passed on has gone through
* `middleware_identity`: the sender that a handler is told of has signed the request
* `middleware_authenticated_iff`: which requests are passed on only when authenticated
-/

namespace Beemesh

open Outcome

/-! ## Requests -/

/-- The handlers that change something, with what they take from the path. -/
inductive MutatingRoute
  | createTask
  | deleteTask (taskId : String)
  | applyDirect (peerId : String)
  deriving DecidableEq

/-- A request: its route, its content type and its body. A body that breaks off is absent. -/
structure HttpRequest where
  route : MutatingRoute
  contentType : Option Bytes
  body : Option Bytes

/-- `HeaderValue::to_str`: visible ASCII. -/
def headerToStr (value : Bytes) : Option String :=
  if value.all fun b => (32 ≤ b && b < 127) || b == 9 then
    some (String.ofList (value.map fun b => Char.ofNat b.toNat))
  else none

def HttpRequest.contentTypeStr (request : HttpRequest) : String :=
  (request.contentType.bind headerToStr).getD ""

/-- The content type of envelopes. -/
def octetStream : String := "application/octet-stream"

/-- `EnvelopeMetadata`, with the key that responses are encrypted to. -/
structure RequestMetadata extends EnvelopeMetadata where
  kemPubkey : Bytes

/-- The metadata of a request that is not an envelope. -/
def RequestMetadata.empty : RequestMetadata where
  peerId := none
  signingPubkey := []
  kemPubkey := []

/-- What a handler gets. -/
structure Admitted where
  route : MutatingRoute
  metadata : RequestMetadata
  body : Option Bytes

/-- What becomes of a request in the middleware. -/
inductive Passage
  | next (admitted : Admitted)
  | refused (status : ℕ)
  | panicked

/-- `EnvelopeHandler`. -/
structure EnvelopeHandler where
  kemPrivateKey : Bytes
  signingPrivateKey : Option Bytes
  publicKey : String

/-! ## The middleware -/

/-- What `{}` prints of an error: its outermost message. -/
def AnyhowError.display (e : AnyhowError) : String := e.headD ""

namespace CryptoPlatform

variable (P : CryptoPlatform)

/-- A key of an envelope, as the middleware reads it: empty unless it decodes. -/
def decodeKey (key : Option String) : Bytes :=
  match key with
  | none => []
  | some pk =>
    match P.base64Decode pk with
    | .ok bytes => bytes
    | .error _ => []

/-- The metadata of an envelope. -/
def requestMetadata (envelope : Envelope) : RequestMetadata where
  signingPubkey := P.decodeKey envelope.pubkey
  kemPubkey := P.decodeKey envelope.kemPubkey
  peerId := envelope.peerId

/-- `decrypt_request_envelope`, on the store and at the time of its nonce check. -/
def decryptRequestEnvelope (handler : EnvelopeHandler) (store : NonceStore) (now : Instant)
    (bytes : Bytes) : Outcome AnyhowError Bytes × NonceStore :=
  match P.rootAsEnvelope bytes with
  | .error e => (err ["Failed to parse envelope: " ++ e], store)
  | .ok envelope =>
    let peerId := envelope.peerId.getD "global"
    match P.verifyFlatbufferEnvelopeForPeer store now bytes nonceWindow peerId with
    | (.error e, store) => (err ["Envelope verification failed: " ++ AnyhowError.display e], store)
    | (.ok _, store) =>
      match envelope.payload with
      | none => (err ["No payload in envelope"], store)
      | some payload =>
        match P.decryptPayloadFromRecipientBlob payload handler.kemPrivateKey with
        | .ok plain => (ok plain, store)
        | .err e => (err ["Failed to decrypt payload: " ++ AnyhowError.display e], store)
        | .panic => (panic, store)

/-- `envelope_middleware`: what becomes of the request, and the nonce store after it. -/
def envelopeMiddleware (handler : EnvelopeHandler) (store : NonceStore) (now : Instant)
    (request : HttpRequest) : Passage × NonceStore :=
  if request.contentTypeStr = octetStream then
    match request.body with
    | none => (.refused 400, store)
    | some bytes =>
      match P.rootAsEnvelope bytes with
      | .ok envelope =>
        -- The metadata is read before the envelope is verified.
        let metadata := P.requestMetadata envelope
        match P.decryptRequestEnvelope handler store now bytes with
        | (.ok plain, store) => (.next ⟨request.route, metadata, some plain⟩, store)
        | (.err _, store) => (.refused 401, store)
        | (.panic, store) => (.panicked, store)
      -- Not an envelope: passed on as it came.
      | .error _ => (.next ⟨request.route, .empty, some bytes⟩, store)
  else (.next ⟨request.route, .empty, request.body⟩, store)

end CryptoPlatform

/-! ## What is passed on -/

/-- The body was an envelope that the verifier accepted, and the handler gets what its payload
decrypts to. -/
def Authenticated (P : CryptoPlatform) (handler : EnvelopeHandler) (store : NonceStore)
    (now : Instant) (request : HttpRequest) (admitted : Admitted) : Prop :=
  ∃ bytes envelope parts payload plain, request.body = some bytes ∧
    P.rootAsEnvelope bytes = .ok envelope ∧
    (P.verifyFlatbufferEnvelopeForPeer store now bytes nonceWindow
      (envelope.peerId.getD "global")).1 = .ok parts ∧
    envelope.payload = some payload ∧
    P.decryptPayloadFromRecipientBlob payload handler.kemPrivateKey = ok plain ∧
    admitted.body = some plain

section Spec

variable {P : CryptoPlatform} {handler : EnvelopeHandler} {store : NonceStore} {now : Instant}
  {request : HttpRequest} {admitted : Admitted}

theorem decryptRequestEnvelope_eq_ok_iff {bytes plain : Bytes} {envelope : Envelope}
    (henvelope : P.rootAsEnvelope bytes = .ok envelope) :
    (P.decryptRequestEnvelope handler store now bytes).1 = ok plain ↔
      ∃ parts payload, (P.verifyFlatbufferEnvelopeForPeer store now bytes nonceWindow
          (envelope.peerId.getD "global")).1 = .ok parts ∧
        envelope.payload = some payload ∧
        P.decryptPayloadFromRecipientBlob payload handler.kemPrivateKey = ok plain := by
  simp only [CryptoPlatform.decryptRequestEnvelope, henvelope]
  obtain ⟨verdict, store'⟩ := P.verifyFlatbufferEnvelopeForPeer store now bytes nonceWindow
    (envelope.peerId.getD "global")
  cases verdict with
  | error e => simp
  | ok parts =>
    cases envelope.payload with
    | none => simp
    | some payload =>
      cases hdecrypt : P.decryptPayloadFromRecipientBlob payload handler.kemPrivateKey <;>
        simp [hdecrypt]

/-- **What a request that is passed on has gone through**: it is an envelope and authenticated, or
no envelope and passed on as it came. -/
theorem envelopeMiddleware_next
    (h : (P.envelopeMiddleware handler store now request).1 = .next admitted) :
    (∃ bytes envelope, request.contentTypeStr = octetStream ∧ request.body = some bytes ∧
        P.rootAsEnvelope bytes = .ok envelope ∧ admitted.metadata = P.requestMetadata envelope ∧
        Authenticated P handler store now request admitted) ∨
      ((request.contentTypeStr ≠ octetStream ∨
          ∃ bytes e, request.body = some bytes ∧ P.rootAsEnvelope bytes = .error e) ∧
        admitted.metadata = .empty ∧ admitted.body = request.body) := by
  unfold CryptoPlatform.envelopeMiddleware at h
  split_ifs at h with htype
  · cases hbody : request.body with
    | none => simp [hbody] at h
    | some bytes =>
      simp only [hbody] at h
      cases henvelope : P.rootAsEnvelope bytes with
      | error e =>
        simp only [henvelope, Passage.next.injEq] at h
        exact .inr ⟨.inr ⟨bytes, e, rfl, henvelope⟩, h ▸ rfl, h ▸ rfl⟩
      | ok envelope =>
        simp only [henvelope] at h
        cases hdecrypt : P.decryptRequestEnvelope handler store now bytes with
        | mk result store' =>
          cases result with
          | err e => simp [hdecrypt] at h
          | panic => simp [hdecrypt] at h
          | ok plain =>
            simp only [hdecrypt, Passage.next.injEq] at h
            obtain ⟨parts, payload, hverify, hpayload, hplain⟩ :=
              (decryptRequestEnvelope_eq_ok_iff henvelope).mp (congrArg Prod.fst hdecrypt)
            exact .inl ⟨bytes, envelope, htype, rfl, henvelope, h ▸ rfl, bytes, envelope, parts,
              payload, plain, hbody, henvelope, hverify, hpayload, hplain, h ▸ rfl⟩
  · simp only [Passage.next.injEq] at h
    exact .inr ⟨.inl htype, h ▸ rfl, h ▸ rfl⟩

/-- An envelope that verifies and decrypts is passed on. -/
theorem envelopeMiddleware_of_envelope {bytes plain payload : Bytes} {envelope : Envelope}
    {parts : VerifiedEnvelopeParts} (htype : request.contentTypeStr = octetStream)
    (hbody : request.body = some bytes) (henvelope : P.rootAsEnvelope bytes = .ok envelope)
    (hverify : (P.verifyFlatbufferEnvelopeForPeer store now bytes nonceWindow
      (envelope.peerId.getD "global")).1 = .ok parts)
    (hpayload : envelope.payload = some payload)
    (hplain : P.decryptPayloadFromRecipientBlob payload handler.kemPrivateKey = ok plain) :
    (P.envelopeMiddleware handler store now request).1 =
      .next ⟨request.route, P.requestMetadata envelope, some plain⟩ := by
  have hdecrypt : (P.decryptRequestEnvelope handler store now bytes).1 = ok plain :=
    (decryptRequestEnvelope_eq_ok_iff henvelope).mpr ⟨parts, payload, hverify, hpayload, hplain⟩
  cases hresult : P.decryptRequestEnvelope handler store now bytes with
  | mk result store' =>
    rw [hresult] at hdecrypt
    obtain rfl : result = ok plain := hdecrypt
    simp only [CryptoPlatform.envelopeMiddleware, htype, if_true, hbody, henvelope, hresult]

/-- A key that the middleware reads is the one that the verifier decodes. -/
theorem decodeKey_ne_nil {key : Option String} (h : P.decodeKey key ≠ []) :
    P.base64Decode (key.getD "") = .ok (P.decodeKey key) := by
  cases key with
  | none => exact absurd rfl h
  | some pk =>
    cases hdecode : P.base64Decode pk with
    | error e => simp [CryptoPlatform.decodeKey, hdecode] at h
    | ok bytes => simp [CryptoPlatform.decodeKey, hdecode]

theorem decodeKey_encode (hb64 : P.Base64RoundTrip) (bytes : Bytes) :
    P.decodeKey (some (P.base64Encode bytes)) = bytes := by
  simp only [CryptoPlatform.decodeKey, hb64 bytes]

end Spec

/-- **The sender that a handler is told of has signed the request**: its key verifies the signature
over the canonical bytes, which hold the KEM key and the peer that the handler is told of; the nonce
is empty or not within the window; and the handler's body is what the payload decrypts to. -/
theorem middleware_identity (P : CryptoPlatform) (hround : P.EnvelopeRoundTrip)
    (hempty : P.base64Decode "" = .ok []) (handler : EnvelopeHandler) (store : NonceStore)
    (now : Instant) (request : HttpRequest) (admitted : Admitted)
    (h : (P.envelopeMiddleware handler store now request).1 = .next admitted)
    (hkey : admitted.metadata.signingPubkey ≠ []) :
    ∃ bytes envelope sig canonical table payload plain, request.body = some bytes ∧
      P.rootAsEnvelope bytes = .ok envelope ∧
      P.normalizeAndDecodeSignature (some (envelope.sig.getD "")) = .ok sig ∧
      P.verifyEnvelope admitted.metadata.signingPubkey canonical sig = .ok () ∧
      P.rootAsEnvelope canonical = .ok table ∧ table.content = envelope.content ∧
      (envelope.content.nonce ≠ "" → ¬ store.Live now (Duration.fromSecs 300)
        (envelope.peerId.getD "global") envelope.content.nonce) ∧
      admitted.metadata.kemPubkey = P.decodeKey table.kemPubkey ∧
      table.peerId = some (admitted.metadata.peerId.getD "") ∧
      envelope.payload = some payload ∧
      P.decryptPayloadFromRecipientBlob payload handler.kemPrivateKey = ok plain ∧
      admitted.body = some plain := by
  rcases envelopeMiddleware_next h with
    ⟨bytes, envelope, -, hbody, henvelope, hmetadata, hauthentic⟩ | ⟨-, hmetadata, -⟩
  · obtain ⟨bytes', envelope', parts, payload, plain, hbody', henvelope', hverify, hpayload, hplain,
      hadmitted⟩ := hauthentic
    obtain rfl : bytes = bytes' := Option.some.inj (hbody.symm.trans hbody')
    obtain rfl : envelope = envelope' := Except.ok.inj (henvelope.symm.trans henvelope')
    obtain ⟨o, hopen, hnonce, hsig, -⟩ := verify_ok_iff.mp hverify
    obtain ⟨hopened, hsigBytes, hpub⟩ := openEnvelope_ok_iff.mp hopen
    obtain rfl : envelope = o.envelope := Except.ok.inj (henvelope.symm.trans hopened)
    -- The key in the metadata is the one that the verifier took.
    have hsigner : o.pubBytes = admitted.metadata.signingPubkey := by
      rw [hmetadata] at hkey ⊢
      exact Except.ok.inj (hpub.symm.trans (decodeKey_ne_nil hkey))
    have hkem : admitted.metadata.kemPubkey =
        P.decodeKey o.envelope.content.canonical.kemPubkey := by
      rw [hmetadata]
      change P.decodeKey o.envelope.kemPubkey = P.decodeKey (some (o.envelope.kemPubkey.getD ""))
      cases o.envelope.kemPubkey with
      | none => simp [CryptoPlatform.decodeKey, hempty]
      | some pk => rfl
    have hpeer : o.envelope.content.canonical.peerId =
        some (admitted.metadata.peerId.getD "") := by
      rw [hmetadata]
      rfl
    exact ⟨bytes, o.envelope, o.sigBytes, P.finishEnvelope o.envelope.content.canonical,
      o.envelope.content.canonical, payload, plain, hbody, henvelope, hsigBytes,
      hsigner ▸ checkSignature_ok_iff.mp hsig, hround _, rfl, fun hne => hnonce.resolve_left hne,
      hkem, hpeer, hpayload, hplain, hadmitted⟩
  -- What is passed on as it came names no key.
  · exact absurd (by rw [hmetadata]; rfl) hkey

/-! ## On the reference platform -/

/-- The reference platform, on which every key has signed everything. -/
abbrev trustingCrypto : CryptoPlatform := referenceCrypto (referencePlatform fun _ _ => true)

def referenceHandler : EnvelopeHandler := ⟨referenceKemKey, none, ""⟩

/-- A request of key `7`, which is at peer `p` and has the KEM key `9`. -/
def referenceContent (payload : Bytes) : Content :=
  ⟨payload, "task", "n", 5, "ml-dsa-65", Base64.encode [9], "p"⟩

def referenceRequest (payload : Bytes) : HttpRequest :=
  let c := referenceContent payload
  ⟨.createTask, some octetStream.toUTF8.data.toList, some (c.bytes [7] c.canonicalBytes)⟩

/-- A request of key `7` is passed on, with its identity. -/
theorem referenceRequest_next {payload plain : Bytes}
    (hplain : trustingCrypto.decryptPayloadFromRecipientBlob payload
      referenceHandler.kemPrivateKey = ok plain) :
    (trustingCrypto.envelopeMiddleware referenceHandler ∅ 0 (referenceRequest payload)).1 =
      .next ⟨.createTask, ⟨⟨some "p", [7]⟩, [9]⟩, some plain⟩ := by
  let c := referenceContent payload
  have hb64 := referencePlatform_base64RoundTrip fun _ _ => true
  have henvelope : trustingCrypto.rootAsEnvelope (c.bytes [7] c.canonicalBytes) =
      .ok (c.envelope [7] c.canonicalBytes) := referencePlatform_envelopeRoundTrip _ _
  have hfresh : ¬ (∅ : NonceStore).Live 0 nonceWindow "p" "n" := by decide
  have hverify := (verify_bytes_ok_iff (fun _ _ => true) c [7] c.canonicalBytes ∅ 0 nonceWindow "p"
    _).mpr ⟨.inr hfresh, rfl, rfl, rfl⟩
  have htype : (referenceRequest payload).contentTypeStr = octetStream := by
    change (headerToStr octetStream.toUTF8.data.toList).getD "" = octetStream
    decide
  have hmetadata : trustingCrypto.requestMetadata (c.envelope [7] c.canonicalBytes) =
      ⟨⟨some "p", [7]⟩, [9]⟩ := by
    have hsigner : trustingCrypto.decodeKey (some (Base64.encode [7])) = [7] :=
      decodeKey_encode hb64 [7]
    have hkem : trustingCrypto.decodeKey (some (Base64.encode [9])) = [9] :=
      decodeKey_encode hb64 [9]
    change RequestMetadata.mk ⟨some "p", trustingCrypto.decodeKey (some (Base64.encode [7]))⟩
      (trustingCrypto.decodeKey (some (Base64.encode [9]))) = _
    rw [hsigner, hkem]
  rw [envelopeMiddleware_of_envelope htype rfl henvelope hverify rfl hplain, hmetadata]
  rfl

/-- Key `7` sends a request, and the handler is told so. -/
theorem middleware_identity_reference :
    let request := referenceRequest (referenceBlob [1, 2])
    ∃ admitted, (trustingCrypto.envelopeMiddleware referenceHandler ∅ 0 request).1 =
        .next admitted ∧
      admitted.metadata.signingPubkey = [7] ∧ admitted.body = some [1, 2] ∧
      ∃ canonical table sig, trustingCrypto.verifyEnvelope [7] canonical sig = .ok () ∧
        trustingCrypto.rootAsEnvelope canonical = .ok table ∧ table.peerId = some "p" := by
  intro request
  have hnext := referenceRequest_next (decrypt_referenceBlob (fun _ _ => true) [1, 2] (by decide))
  obtain ⟨_, _, sig, canonical, table, _, _, -, -, -, hverify, htable, -, -, -, hpeer, -⟩ :=
    middleware_identity trustingCrypto (referencePlatform_envelopeRoundTrip _) (by decide)
      referenceHandler ∅ 0 request _ hnext (by simp)
  exact ⟨_, hnext, rfl, rfl, canonical, table, sig, hverify, htable, hpeer⟩

/-! ## What is not an envelope -/

/-- FlatBuffers finds the payload inside the buffer. -/
def Platform.PayloadInside (P : Platform) : Prop :=
  ∀ bytes envelope payload, P.rootAsEnvelope bytes = .ok envelope →
    envelope.payload = some payload → payload.length ≤ bytes.length

/-- AES-GCM does not lengthen what it decrypts. -/
def CryptoPlatform.DecryptsShorter (P : CryptoPlatform) : Prop :=
  ∀ key nonce ciphertext plain, P.aesGcmDecrypt key nonce ciphertext = .ok plain →
    plain.length ≤ ciphertext.length

/-- What a blob decrypts to is shorter than the blob. -/
theorem length_decrypt_lt {P : CryptoPlatform} (haes : P.DecryptsShorter)
    {blob key plain : Bytes} (h : P.decryptPayloadFromRecipientBlob blob key = ok plain) :
    plain.length < blob.length := by
  simp only [CryptoPlatform.decryptPayloadFromRecipientBlob, Outcome.bind_eq_ok_iff,
    ofResult_eq_ok_iff, mapErr_eq_ok_iff, Prod.exists] at h
  obtain ⟨wrapped, nonce, ciphertext, hread, shared, -, key, -, nonce', -, hplain⟩ := h
  obtain ⟨afterVersion, afterWrapped, afterNonce, rest, rfl, ⟨_, _, _, rfl⟩, ⟨_, _, _, rfl⟩,
    ⟨_, _, _, rfl⟩⟩ := readBlob_eq_ok_iff.mp hread
  have hshort := haes _ _ _ _ hplain
  simp only [List.length_cons, List.length_append]
  omega

/-- What is not an envelope, or does not say so, is passed on as it came. -/
theorem envelopeMiddleware_of_other {P : CryptoPlatform} {request : HttpRequest}
    (h : request.contentTypeStr = octetStream →
      ∃ bytes e, request.body = some bytes ∧ P.rootAsEnvelope bytes = .error e)
    (handler : EnvelopeHandler) (store : NonceStore) (now : Instant) :
    (P.envelopeMiddleware handler store now request).1 =
      .next ⟨request.route, .empty, request.body⟩ := by
  unfold CryptoPlatform.envelopeMiddleware
  split_ifs with htype
  · obtain ⟨bytes, e, hbody, herror⟩ := h htype
    simp only [hbody, herror]
  · rfl

/-- What is passed on as it came is not authenticated, also if it should be an envelope: a handler
would not find its payload. -/
theorem not_authenticated_of_body {P : CryptoPlatform} (hinside : P.PayloadInside)
    (haes : P.DecryptsShorter) {handler : EnvelopeHandler} {store : NonceStore} {now : Instant}
    {request : HttpRequest} {admitted : Admitted} (h : admitted.body = request.body) :
    ¬ Authenticated P handler store now request admitted := by
  rintro ⟨bytes, envelope, parts, payload, plain, hbody, henvelope, -, hpayload, hplain, hadmitted⟩
  obtain rfl : plain = bytes := Option.some.inj (hadmitted.symm.trans (h.trans hbody))
  have hlt := length_decrypt_lt haes hplain
  have hle := hinside plain envelope payload henvelope hpayload
  omega

/-- **Which requests are passed on only when authenticated**: those that say they are envelopes, and
are. -/
theorem middleware_authenticated_iff (P : CryptoPlatform) (hinside : P.PayloadInside)
    (haes : P.DecryptsShorter) (handler : EnvelopeHandler) (store : NonceStore) (now : Instant)
    (request : HttpRequest) :
    (∀ admitted, (P.envelopeMiddleware handler store now request).1 = .next admitted →
        Authenticated P handler store now request admitted) ↔
      request.contentTypeStr = octetStream ∧
        ∀ bytes, request.body = some bytes → ∃ envelope, P.rootAsEnvelope bytes = .ok envelope := by
  constructor
  · intro h
    by_contra hcond
    have hother : request.contentTypeStr = octetStream →
        ∃ bytes e, request.body = some bytes ∧ P.rootAsEnvelope bytes = .error e := by
      intro htype
      by_contra hnone
      refine hcond ⟨htype, fun bytes hbody => ?_⟩
      cases henvelope : P.rootAsEnvelope bytes with
      | ok envelope => exact ⟨envelope, rfl⟩
      | error e => exact absurd ⟨bytes, e, hbody, henvelope⟩ hnone
    exact not_authenticated_of_body hinside haes rfl
      (h _ (envelopeMiddleware_of_other hother handler store now))
  · rintro ⟨htype, hparses⟩ admitted h
    rcases envelopeMiddleware_next h with ⟨_, _, -, -, -, -, hauthentic⟩ | ⟨hnot, -, -⟩
    · exact hauthentic
    · rcases hnot with hnot | ⟨bytes, e, hbody, herror⟩
      · exact absurd htype hnot
      · obtain ⟨envelope, henvelope⟩ := hparses bytes hbody
        exact absurd (henvelope.symm.trans herror) (by simp)

theorem trustingCrypto_payloadInside : trustingCrypto.PayloadInside := by
  intro bytes envelope payload henvelope hpayload
  have hread : envelopeCodec.read bytes = some envelope := readOr_eq_ok_iff.mp henvelope
  exact length_payload_le hread hpayload

theorem referenceCrypto_decryptsShorter (P : Platform) : (referenceCrypto P).DecryptsShorter := by
  intro key nonce ciphertext plain h
  simp only [referenceCrypto] at h
  split_ifs at h
  rw [← Except.ok.inj h, List.length_drop]
  exact Nat.sub_le _ _

/-- Whatever becomes of an envelope of key `7`, it is not passed on unless it is authenticated. -/
theorem middleware_authenticated_reference :
    ∃ admitted, (trustingCrypto.envelopeMiddleware referenceHandler ∅ 0
        (referenceRequest (referenceBlob [1, 2]))).1 = .next admitted ∧
      Authenticated trustingCrypto referenceHandler ∅ 0 (referenceRequest (referenceBlob [1, 2]))
        admitted := by
  have hnext := referenceRequest_next (decrypt_referenceBlob (fun _ _ => true) [1, 2] (by decide))
  refine ⟨_, hnext, (middleware_authenticated_iff trustingCrypto trustingCrypto_payloadInside
    (referenceCrypto_decryptsShorter _) referenceHandler ∅ 0 _).mpr ⟨?_, ?_⟩ _ hnext⟩
  · change (headerToStr octetStream.toUTF8.data.toList).getD "" = octetStream
    decide
  · rintro bytes ⟨⟩
    exact ⟨_, referencePlatform_envelopeRoundTrip _ _⟩

/-- A request to delete task `m`, with another content type: it is passed on. -/
theorem middleware_passes_unsigned :
    let request : HttpRequest :=
      ⟨.deleteTask "m", some "text/plain".toUTF8.data.toList, some "force=true".toUTF8.data.toList⟩
    (trustingCrypto.envelopeMiddleware referenceHandler ∅ 0 request).1 =
        .next ⟨.deleteTask "m", .empty, request.body⟩ ∧
      ¬ Authenticated trustingCrypto referenceHandler ∅ 0 request
        ⟨.deleteTask "m", .empty, request.body⟩ := by
  intro request
  exact ⟨envelopeMiddleware_of_other (fun htype => absurd htype (by decide)) _ _ _,
    not_authenticated_of_body trustingCrypto_payloadInside (referenceCrypto_decryptsShorter _) rfl⟩

end Beemesh

import Beemesh.Rest.Middleware

/-!
# Responses

A response to an envelope is encrypted to the KEM key of the sender and signed by the node. The
handler gets the public key that responses carry from its caller, and looks for the private key that
signs them itself: in the key pair of the process, and else on disk. Whether the two belong together
is looked at, and has no consequence.

## Main definitions

* `newEnvelopeHandler`, `encryptResponseEnvelopeWithKey`
* `SignatureScheme`: the laws of ML-DSA
* `KeysMatch`: the keys of a handler are halves of one pair

## Main results

* `response_verifies_iff`: a response verifies exactly when the keys of the handler match
-/

namespace Beemesh

open Outcome

/-! ## Signing -/

/-- What ML-DSA is relied on for: keys and signatures survive their encoding, and a signature
verifies under the public half of the key that made it, and no other. -/
structure Platform.SignatureScheme (P : Platform) where
  publicOf : P.SecretKey → P.PublicKey
  publicKey_roundTrip : ∀ pk, P.publicKeyFromBytes (P.publicKeyToBytes pk) = .ok pk
  signature_roundTrip : ∀ s, P.signatureFromBytes (P.signatureToBytes s) = .ok s
  verify_sign : ∀ sk m s, P.sign sk m = .ok s →
    ∀ pk, P.verify pk m s = .ok true ↔ pk = publicOf sk

theorem Platform.signEnvelope_eq_ok_iff {P : Platform} {skBytes pkBytes m : Bytes}
    {result : String × String} :
    P.signEnvelope skBytes pkBytes m = .ok result ↔
      P.ensurePqcInit = .ok () ∧ ∃ privk pubk s, P.secretKeyFromBytes skBytes = .ok privk ∧
        P.publicKeyFromBytes pkBytes = .ok pubk ∧ P.sign privk m = .ok s ∧
        result =
          (P.base64Encode (P.signatureToBytes s), P.base64Encode (P.publicKeyToBytes pubk)) := by
  simp only [Platform.signEnvelope, Beemesh.bind_eq_ok_iff, anyhow_eq_ok_iff]
  constructor
  · rintro ⟨⟨⟩, hinit, privk, hprivk, pubk, hpubk, s, hs, hresult⟩
    exact ⟨hinit, privk, pubk, s, hprivk, hpubk, hs, (Except.ok.inj hresult).symm⟩
  · rintro ⟨hinit, privk, pubk, s, hprivk, hpubk, hs, rfl⟩
    exact ⟨(), hinit, privk, hprivk, pubk, hpubk, s, hs, rfl⟩

/-- A signature of `sk` checks under `pk` when the two belong together. -/
theorem Platform.SignatureScheme.verifyEnvelope_iff {P : Platform} (scheme : P.SignatureScheme)
    (hinit : P.ensurePqcInit = .ok ()) {sk : P.SecretKey} {m : Bytes} {s : P.Signature}
    (hs : P.sign sk m = .ok s) (pk : P.PublicKey) :
    P.verifyEnvelope (P.publicKeyToBytes pk) m (P.signatureToBytes s) = .ok () ↔
      pk = scheme.publicOf sk := by
  rw [← scheme.verify_sign sk m s hs pk]
  cases hverdict : P.verify pk m s with
  | error e =>
    simp [Platform.verifyEnvelope, hinit, scheme.publicKey_roundTrip, scheme.signature_roundTrip,
      anyhow, bind, Except.bind, hverdict]
  | ok verdict =>
    cases verdict <;>
      simp [Platform.verifyEnvelope, hinit, scheme.publicKey_roundTrip,
        scheme.signature_roundTrip, anyhow, bind, Except.bind, hverdict]

/-! ## The handler -/

variable (P : CryptoPlatform)

/-- The private key on disk, whatever the public one there. -/
def onDiskSigningKey (onDisk : Except AnyhowError (Bytes × Bytes)) (publicKey : String) :
    Option Bytes :=
  match onDisk with
  | .ok (pubBytes, privBytes) =>
    -- A key that differs from the one supplied is only worth a warning.
    if P.base64Encode pubBytes = publicKey then some privBytes else some privBytes
  | .error _ => none

/-- `EnvelopeHandler::new`, on the key pair of the process and the one on disk. -/
def newEnvelopeHandler (nodeKeypair : Option (Option (Bytes × Bytes)))
    (onDisk : Except AnyhowError (Bytes × Bytes)) (kemPrivateKey : Bytes) (publicKey : String) :
    EnvelopeHandler where
  kemPrivateKey := kemPrivateKey
  publicKey := publicKey
  signingPrivateKey :=
    match nodeKeypair with
    | some (some (_, privBytes)) => some privBytes
    | some none => onDiskSigningKey P onDisk publicKey
    | none => onDiskSigningKey P onDisk publicKey

/-- What a response draws: the randomness of its encryption, a fresh nonce and the time. -/
structure ResponseDraws where
  seed : Bytes
  nonceBytes : Bytes
  uuid : String
  ts : U64

/-- `encrypt_response_envelope_with_key`. -/
def encryptResponseEnvelopeWithKey (handler : EnvelopeHandler) (draws : ResponseDraws)
    (payload : Bytes) (payloadType recipientPeerId : String) (kemPubkey : Bytes) :
    Except AnyhowError Bytes := do
  bailIf (kemPubkey = []) ("No KEM public key provided for peer: " ++ recipientPeerId)
  let _ ← mapErr (s!"Failed to parse KEM public key for peer {recipientPeerId}: " ++ ·)
    (P.kemPublicKeyFromBytes kemPubkey)
  let encryptedBlob ← P.encryptPayloadForRecipient draws.seed draws.nonceBytes kemPubkey payload
  let canonicalBytes := P.buildEnvelopeCanonical encryptedBlob payloadType draws.uuid draws.ts
    "ml-dsa-65" none
  let signingKey ← okOrElse ("No signing private key available for peer: " ++ recipientPeerId)
    handler.signingPrivateKey
  let publicKeyBytes ← mapErr ("Failed to decode public key: " ++ ·)
    (P.base64Decode handler.publicKey)
  let (sigB64, pubB64) ← P.signEnvelope signingKey publicKeyBytes canonicalBytes
  return P.buildEnvelopeSigned encryptedBlob payloadType draws.uuid draws.ts "ml-dsa-65"
    "ml-dsa-65" sigB64 pubB64 none

/-- `verify_flatbuffer_envelope`. -/
def Platform.verifyFlatbufferEnvelope (P : Platform) (store : NonceStore) (now : Instant)
    (bytes : Bytes) (nonceWindow : Duration) :
    Except AnyhowError VerifiedEnvelopeParts × NonceStore :=
  P.verifyFlatbufferEnvelopeForPeer store now bytes nonceWindow "global"

/-! ## Which responses verify -/

/-- The key pair whose private half signs the responses. -/
def signingPair (nodeKeypair : Option (Option (Bytes × Bytes)))
    (onDisk : Except AnyhowError (Bytes × Bytes)) : Option (Bytes × Bytes) :=
  match nodeKeypair with
  | some (some pair) => some pair
  | _ => onDisk.toOption

/-- The supplied public key is the public half of the private key that signs. -/
def KeysMatch {P : Platform} (scheme : P.SignatureScheme)
    (nodeKeypair : Option (Option (Bytes × Bytes))) (onDisk : Except AnyhowError (Bytes × Bytes))
    (publicKey : String) : Prop :=
  ∃ pair sk pkBytes, signingPair nodeKeypair onDisk = some pair ∧
    P.secretKeyFromBytes pair.2 = .ok sk ∧ P.base64Decode publicKey = .ok pkBytes ∧
    P.publicKeyFromBytes pkBytes = .ok (scheme.publicOf sk)

variable {P}

theorem newEnvelopeHandler_signingPrivateKey (nodeKeypair : Option (Option (Bytes × Bytes)))
    (onDisk : Except AnyhowError (Bytes × Bytes)) (kemPrivateKey : Bytes) (publicKey : String) :
    (newEnvelopeHandler P nodeKeypair onDisk kemPrivateKey publicKey).signingPrivateKey =
      (signingPair nodeKeypair onDisk).map Prod.snd := by
  rcases nodeKeypair with - | - | pair
  all_goals cases onDisk <;>
    simp [newEnvelopeHandler, onDiskSigningKey, signingPair, Except.toOption]

/-- The table of a response, with a signature and a key. -/
def responseTable (draws : ResponseDraws) (blob : Bytes) (payloadType sig pubkey : String) :
    Envelope :=
  Platform.envelopeArgs blob payloadType draws.uuid draws.ts "ml-dsa-65" sig pubkey none ""

/-- What a response that is built has gone through. -/
theorem encryptResponse_eq_ok {handler : EnvelopeHandler} {draws : ResponseDraws}
    {payload : Bytes} {payloadType peer : String} {kemPubkey bytes : Bytes}
    (h : encryptResponseEnvelopeWithKey P handler draws payload payloadType peer kemPubkey =
      .ok bytes) :
    ∃ blob signingKey pkBytes sk pk s, handler.signingPrivateKey = some signingKey ∧
      P.base64Decode handler.publicKey = .ok pkBytes ∧ P.ensurePqcInit = .ok () ∧
      P.secretKeyFromBytes signingKey = .ok sk ∧ P.publicKeyFromBytes pkBytes = .ok pk ∧
      P.sign sk (P.finishEnvelope (responseTable draws blob payloadType "" "")) = .ok s ∧
      bytes = P.finishEnvelope (responseTable draws blob payloadType
        ("ml-dsa-65" ++ ":" ++ P.base64Encode (P.signatureToBytes s))
        (P.base64Encode (P.publicKeyToBytes pk))) := by
  simp only [encryptResponseEnvelopeWithKey, Beemesh.bind_eq_ok_iff, bailIf_eq_ok_iff,
    mapErr_eq_ok_iff, okOrElse_eq_ok_iff, Platform.signEnvelope_eq_ok_iff] at h
  obtain ⟨-, -, -, -, blob, -, signingKey, hsigningKey, pkBytes, hpkBytes, -,
    ⟨hinit, sk, pk, s, hsk, hpk, hs, rfl⟩, hbytes⟩ := h
  exact ⟨blob, signingKey, pkBytes, sk, pk, s, hsigningKey, hpkBytes, hinit, hsk, hpk, hs,
    (Except.ok.inj hbytes).symm⟩

/-- A signed table of a response opens, and its signature checks when the keys belong together. -/
theorem responseTable_opens (hround : P.EnvelopeRoundTrip) (hb64 : P.Base64RoundTrip)
    (scheme : P.SignatureScheme) (hinit : P.ensurePqcInit = .ok ()) {draws : ResponseDraws}
    {blob : Bytes} {payloadType : String} {sk : P.SecretKey} {s : P.Signature}
    (hs : P.sign sk (P.finishEnvelope (responseTable draws blob payloadType "" "")) = .ok s)
    (pk : P.PublicKey) :
    let table := responseTable draws blob payloadType
      ("ml-dsa-65" ++ ":" ++ P.base64Encode (P.signatureToBytes s))
      (P.base64Encode (P.publicKeyToBytes pk))
    let o : Opened := ⟨table, P.signatureToBytes s, P.publicKeyToBytes pk⟩
    P.openEnvelope (P.finishEnvelope table) = .ok o ∧
      (P.checkSignature o = .ok () ↔ pk = scheme.publicOf sk) := by
  intro table o
  have hcanonical : table.content.canonical = responseTable draws blob payloadType "" "" := rfl
  refine ⟨openEnvelope_ok_iff.mpr ⟨hround table, ?_, hb64 _⟩, ?_⟩
  · exact P.normalizeAndDecodeSignature_prefixed hb64 (by decide) _
  · rw [checkSignature_ok_iff]
    exact hcanonical ▸ scheme.verifyEnvelope_iff hinit hs pk

/-- A response verifies when the keys belong together. -/
theorem verify_response_iff (hround : P.EnvelopeRoundTrip) (hb64 : P.Base64RoundTrip)
    (scheme : P.SignatureScheme) {nodeKeypair : Option (Option (Bytes × Bytes))}
    {onDisk : Except AnyhowError (Bytes × Bytes)} {kemPrivateKey : Bytes} {publicKey : String}
    {draws : ResponseDraws} {payload : Bytes} {payloadType peer : String} {kemPubkey bytes : Bytes}
    (hok : encryptResponseEnvelopeWithKey P
      (newEnvelopeHandler P nodeKeypair onDisk kemPrivateKey publicKey) draws payload payloadType
      peer kemPubkey = .ok bytes)
    {store : NonceStore} {now : Instant} {window : Duration}
    (hfresh : ¬ store.Live now window "global" draws.uuid) :
    (∃ parts, (P.verifyFlatbufferEnvelope store now bytes window).1 = .ok parts) ↔
      KeysMatch scheme nodeKeypair onDisk publicKey := by
  obtain ⟨blob, signingKey, pkBytes, sk, pk, s, hsigningKey, hpkBytes, hinit, hsk, hpk, hs, rfl⟩ :=
    encryptResponse_eq_ok hok
  obtain ⟨hopen, hsig⟩ := responseTable_opens hround hb64 scheme hinit hs pk
  rw [newEnvelopeHandler_signingPrivateKey] at hsigningKey
  obtain ⟨pair, hpair, rfl⟩ := Option.map_eq_some_iff.mp hsigningKey
  constructor
  · rintro ⟨parts, hverify⟩
    obtain ⟨o, hopen', -, hcheck, -⟩ := verify_ok_iff.mp hverify
    obtain rfl := Except.ok.inj (hopen.symm.trans hopen')
    exact ⟨pair, sk, pkBytes, hpair, hsk, hpkBytes, (hsig.mp hcheck) ▸ hpk⟩
  · rintro ⟨pair', sk', pkBytes', hpair', hsk', hpkBytes', hpk'⟩
    -- The keys that match are those that signed.
    obtain rfl : pair = pair' := Option.some.inj (hpair.symm.trans hpair')
    obtain rfl : sk = sk' := Except.ok.inj (hsk.symm.trans hsk')
    obtain rfl : pkBytes = pkBytes' := Except.ok.inj (hpkBytes.symm.trans hpkBytes')
    obtain rfl : pk = scheme.publicOf sk := Except.ok.inj (hpk.symm.trans hpk')
    exact ⟨_, verify_ok_iff.mpr ⟨_, hopen, .inr hfresh, hsig.mpr rfl, rfl⟩⟩

/-- **Which responses verify**: under a nonce that is not live, a response that was built verifies
under the key that it carries exactly when the keys of the handler match. -/
theorem response_verifies_iff (P : CryptoPlatform) (hround : P.EnvelopeRoundTrip)
    (hb64 : P.Base64RoundTrip) (scheme : P.SignatureScheme)
    (nodeKeypair : Option (Option (Bytes × Bytes))) (onDisk : Except AnyhowError (Bytes × Bytes))
    (kemPrivateKey : Bytes) (publicKey : String) (draws : ResponseDraws) (payload : Bytes)
    (payloadType peer : String) (kemPubkey bytes : Bytes)
    (hok : encryptResponseEnvelopeWithKey P
      (newEnvelopeHandler P nodeKeypair onDisk kemPrivateKey publicKey) draws payload payloadType
      peer kemPubkey = .ok bytes)
    (store : NonceStore) (now : Instant) (window : Duration)
    (hfresh : ¬ store.Live now window "global" draws.uuid) :
    (∃ parts envelope, (P.verifyFlatbufferEnvelope store now bytes window).1 = .ok parts ∧
        P.rootAsEnvelope bytes = .ok envelope ∧
        P.base64Decode (envelope.pubkey.getD "") = .ok parts.pubkey) ↔
      KeysMatch scheme nodeKeypair onDisk publicKey := by
  rw [← verify_response_iff hround hb64 scheme hok hfresh]
  constructor
  · rintro ⟨parts, envelope, hverify, -, -⟩
    exact ⟨parts, hverify⟩
  · rintro ⟨parts, hverify⟩
    -- What the verifier returns is the key it decoded.
    obtain ⟨o, hopen, -, -, rfl⟩ := verify_ok_iff.mp hverify
    obtain ⟨henvelope, -, hpub⟩ := openEnvelope_ok_iff.mp hopen
    exact ⟨o.parts, o.envelope, hverify, henvelope, hpub⟩

/-! ## On a reference platform -/

/-- A platform on which a signature is the message behind the key that signed it, and the two halves
of a pair are equal. -/
def keyedPlatform : Platform :=
  { referencePlatform (fun _ _ => true) with
    sign := fun (sk m : Bytes) => .ok (sk ++ m)
    verify := fun (pk m s : Bytes) => .ok (s == pk ++ m) }

def keyedScheme : keyedPlatform.SignatureScheme where
  publicOf sk := sk
  publicKey_roundTrip _ := rfl
  signature_roundTrip _ := rfl
  verify_sign := by
    rintro (sk : Bytes) m s ⟨⟩ (pk : Bytes)
    change Except.ok (sk ++ m == pk ++ m) = .ok true ↔ pk = sk
    rw [Except.ok.injEq, beq_iff_eq, List.append_left_inj, eq_comm]

abbrev keyedCrypto : CryptoPlatform := referenceCrypto keyedPlatform

/-- A handler with a private key and a key that decodes builds responses. -/
theorem keyedCrypto_response (handler : EnvelopeHandler) {signingKey pkBytes : Bytes}
    (hsigning : handler.signingPrivateKey = some signingKey)
    (hpublic : handler.publicKey = Base64.encode pkBytes) (draws : ResponseDraws)
    (hseed : draws.seed.length = 768) {kemPubkey : Bytes} (hkem : kemPubkey.length = 800)
    (payload : Bytes) (payloadType peer : String) :
    ∃ bytes, encryptResponseEnvelopeWithKey keyedCrypto handler draws payload payloadType peer
      kemPubkey = .ok bytes := by
  obtain ⟨blob, hblob⟩ : ∃ blob, keyedCrypto.encryptPayloadForRecipient draws.seed
      draws.nonceBytes kemPubkey payload = .ok blob :=
    ⟨_, referenceCrypto_encryptPayload rfl hseed hkem draws.nonceBytes payload⟩
  have hne : kemPubkey ≠ [] := by
    rintro rfl
    simp at hkem
  have hb64 : keyedCrypto.base64Decode handler.publicKey = .ok pkBytes := by
    rw [hpublic]
    exact referencePlatform_base64RoundTrip (fun _ _ => true) pkBytes
  let canonical := keyedPlatform.finishEnvelope (responseTable draws blob payloadType "" "")
  refine ⟨keyedPlatform.finishEnvelope (responseTable draws blob payloadType
    ("ml-dsa-65" ++ ":" ++ Base64.encode (signingKey ++ canonical)) (Base64.encode pkBytes)), ?_⟩
  simp only [encryptResponseEnvelopeWithKey, Beemesh.bind_eq_ok_iff, bailIf_eq_ok_iff,
    mapErr_eq_ok_iff, okOrElse_eq_ok_iff, Platform.signEnvelope_eq_ok_iff]
  exact ⟨(), hne, _, dif_pos hkem, blob, hblob, signingKey, hsigning, pkBytes, hb64, _,
    ⟨rfl, signingKey, pkBytes, signingKey ++ canonical, rfl, rfl, rfl, rfl⟩, rfl⟩

/-- The key pair of the process signs, and its public key is supplied. -/
theorem response_verifies_reference :
    let draws : ResponseDraws := ⟨.replicate 768 0, .replicate 12 0, "uuid", 5⟩
    ∃ bytes, encryptResponseEnvelopeWithKey keyedCrypto
        (newEnvelopeHandler keyedCrypto (some (some ([7], [7]))) (.ok ([7], [7])) []
          (Base64.encode [7])) draws [1] "task" "p" (.replicate 800 0) = .ok bytes ∧
      ∃ parts envelope, (keyedCrypto.verifyFlatbufferEnvelope ∅ 0 bytes 300).1 = .ok parts ∧
        keyedCrypto.rootAsEnvelope bytes = .ok envelope ∧
        keyedCrypto.base64Decode (envelope.pubkey.getD "") = .ok parts.pubkey := by
  intro draws
  obtain ⟨bytes, hbytes⟩ := keyedCrypto_response (newEnvelopeHandler keyedCrypto
    (some (some ([7], [7]))) (.ok ([7], [7])) [] (Base64.encode [7])) rfl rfl draws
    List.length_replicate List.length_replicate [1] "task" "p"
  have hb64 : keyedCrypto.Base64RoundTrip := referencePlatform_base64RoundTrip fun _ _ => true
  refine ⟨bytes, hbytes, (response_verifies_iff keyedCrypto
    (referencePlatform_envelopeRoundTrip fun _ _ => true) hb64 keyedScheme _ _ _ _ _ _ _ _ _ _
    hbytes ∅ 0 300 (by decide)).mpr ?_⟩
  exact ⟨([7], [7]), [7], [7], rfl, rfl, hb64 [7], rfl⟩

/-- A node started with an ephemeral pair: the process has the pair `8`, and the public key comes
from the pair `7` on disk. -/
theorem response_of_ephemeral_node :
    let draws : ResponseDraws := ⟨.replicate 768 0, .replicate 12 0, "uuid", 5⟩
    ∃ bytes, encryptResponseEnvelopeWithKey keyedCrypto
        (newEnvelopeHandler keyedCrypto (some (some ([8], [8]))) (.ok ([7], [7])) []
          (Base64.encode [7])) draws [1] "task" "p" (.replicate 800 0) = .ok bytes ∧
      ¬ (∅ : NonceStore).Live 0 300 "global" draws.uuid ∧
      ¬ ∃ parts, (keyedCrypto.verifyFlatbufferEnvelope ∅ 0 bytes 300).1 = .ok parts := by
  intro draws
  obtain ⟨bytes, hbytes⟩ := keyedCrypto_response (newEnvelopeHandler keyedCrypto
    (some (some ([8], [8]))) (.ok ([7], [7])) [] (Base64.encode [7])) rfl rfl draws
    List.length_replicate List.length_replicate [1] "task" "p"
  have hfresh : ¬ (∅ : NonceStore).Live 0 300 "global" draws.uuid := by decide
  have hb64 : keyedCrypto.Base64RoundTrip := referencePlatform_base64RoundTrip fun _ _ => true
  refine ⟨bytes, hbytes, hfresh, fun hverifies => ?_⟩
  obtain ⟨pair, sk, pkBytes, ⟨⟩, ⟨⟩, hpkBytes, hpk⟩ := (verify_response_iff
    (referencePlatform_envelopeRoundTrip fun _ _ => true) hb64 keyedScheme hbytes hfresh).mp
    hverifies
  obtain rfl : [7] = pkBytes := Except.ok.inj ((hb64 [7]).symm.trans hpkBytes)
  have hseven : ([7] : Bytes) = [8] := Except.ok.inj hpk
  exact absurd hseven (by decide)

end Beemesh

import Beemesh.Rest.Response

/-!
# Envelopes of the command line

`FlatbufferEnvelopeBuilder` builds the envelopes that the command line sends to a machine. It signs
a canonical form without a peer, and ships an envelope with the peer of the builder; where it signs
an envelope that it is given, it signs the algorithm found there, and ships `ml-dsa-65`. The machine
rebuilds the canonical form from what was shipped.

## Main definitions

* `FlatbufferEnvelopeBuilder` with `buildManifestEnvelope`, `buildSimpleEnvelope`, `signEnvelope`
* `KeyPair.BindsMessages`: a signature verifies for its own message alone
* `Platform.Accepts`: the machine accepts an envelope, and returns its payload and type

## Main results

* `shipped_accepted_iff`: what is shipped verifies when it is what was signed
* `built_envelopes_accepted_iff`: when the envelopes of the command line verify
-/

namespace Beemesh

structure FlatbufferEnvelopeBuilder where
  peerId : String
  publicKey : String

namespace FlatbufferEnvelopeBuilder

variable (P : Platform) (builder : FlatbufferEnvelopeBuilder)

/-- `build_manifest_envelope`, on the random bytes of its nonce and the time. -/
def buildManifestEnvelope (envelopeNonce : Bytes) (ts : U64) (ciphertext skBytes pkBytes : Bytes) :
    Except AnyhowError Bytes := do
  let nonce := P.base64Encode envelopeNonce
  let canonical := P.buildEnvelopeCanonical ciphertext "manifest" nonce ts "ml-dsa-65" none
  let (sigB64, _) ← P.signEnvelope skBytes pkBytes canonical
  return P.buildEnvelopeSignedWithPeer ciphertext "manifest" nonce ts "ml-dsa-65" "ml-dsa-65" sigB64
    builder.publicKey builder.peerId none

/-- `build_simple_envelope`, likewise. -/
def buildSimpleEnvelope (envelopeNonce : Bytes) (ts : U64) (payloadType payloadContent : String) :
    Bytes :=
  P.buildEnvelopeCanonicalWithPeer payloadContent.toUTF8.data.toList payloadType
    (P.base64Encode envelopeNonce) ts "ml-dsa-65" builder.peerId none

/-- `sign_envelope` of the builder. -/
def signEnvelope (envelopeBytes skBytes pkBytes : Bytes) : Except AnyhowError Bytes := do
  let envelope ← mapErr ("Failed to parse envelope: " ++ ·) (P.rootAsEnvelope envelopeBytes)
  let payload := envelope.payload.getD []
  let payloadType := envelope.payloadType.getD ""
  let nonce := envelope.nonce.getD ""
  let canonical := P.buildEnvelopeCanonical payload payloadType nonce envelope.ts
    (envelope.alg.getD "") none
  let (sigB64, _) ← P.signEnvelope skBytes pkBytes canonical
  return P.buildEnvelopeSignedWithPeer payload payloadType nonce envelope.ts "ml-dsa-65" "ml-dsa-65"
    sigB64 builder.publicKey builder.peerId none

end FlatbufferEnvelopeBuilder

/-! ## What verifies -/

/-- What a signature is for: one that was made for a message verifies for no other. -/
def Platform.KeyPair.BindsMessages {P : Platform} {pubBytes skBytes : Bytes}
    (keys : P.KeyPair pubBytes skBytes) : Prop :=
  ∀ m m' s, P.sign keys.privk m = .ok s → P.verify keys.pubk m' s = .ok true → m' = m

/-- The machine accepts an envelope, and returns this payload and payload type. -/
def Platform.Accepts (P : Platform) (store : NonceStore) (now : Instant) (window : Duration)
    (peer : String) (bytes payload : Bytes) (payloadType : String) : Prop :=
  ∃ parts, (P.verifyFlatbufferEnvelopeForPeer store now bytes window peer).1 = .ok parts ∧
    parts.payload = payload ∧ parts.payloadType = payloadType

variable {P : Platform}

/-- A key pair signs every message, and what it signs verifies for that message alone. -/
theorem Platform.KeyPair.signEnvelope_spec {pubBytes skBytes : Bytes}
    (keys : P.KeyPair pubBytes skBytes) (hbinds : keys.BindsMessages) (m : Bytes) :
    ∃ sigBytes,
      P.signEnvelope skBytes pubBytes m = .ok (P.base64Encode sigBytes, P.base64Encode pubBytes) ∧
        ∀ m', P.verifyEnvelope pubBytes m' sigBytes = .ok () ↔ m' = m := by
  obtain ⟨s, hsign, hbytes, hverify⟩ := keys.verifies m
  have hverdict (m' : Bytes) :
      P.verifyEnvelope pubBytes m' (P.signatureToBytes s) = .ok () ↔
        P.verify keys.pubk m' s = .ok true := by
    cases hv : P.verify keys.pubk m' s with
    | error e =>
      simp [Platform.verifyEnvelope, keys.init, keys.pubBytes_eq.1, hbytes, anyhow, bind,
        Except.bind, hv]
    | ok verdict =>
      cases verdict <;>
        simp [Platform.verifyEnvelope, keys.init, keys.pubBytes_eq.1, hbytes, anyhow, bind,
          Except.bind, hv]
  refine ⟨P.signatureToBytes s, ?_, fun m' => ?_⟩
  · refine Platform.signEnvelope_eq_ok_iff.mpr
      ⟨keys.init, keys.privk, keys.pubk, s, keys.skBytes_eq, keys.pubBytes_eq.1, hsign, ?_⟩
    rw [keys.pubBytes_eq.2]
  · rw [hverdict]
    exact ⟨hbinds m m' s hsign, fun h => h ▸ hverify⟩

section Shipped

variable (hround : P.EnvelopeRoundTrip) (hb64 : P.Base64RoundTrip) {pubBytes skBytes : Bytes}
  (keys : P.KeyPair pubBytes skBytes) (hbinds : keys.BindsMessages)
include hround hb64 hbinds

/-- **What is shipped verifies when it is what was signed**: the canonical form is signed without a
peer and under an algorithm of its own, and the rest shipped under the key pair and `ml-dsa-65`. -/
theorem shipped_accepted_iff (payload : Bytes) (payloadType nonce : String) (ts : U64)
    (alg peerId : String) {store : NonceStore} {now : Instant} {window : Duration} {peer : String}
    (hfresh : ¬ store.Live now window peer nonce) :
    ∃ sigB64 pubB64, P.signEnvelope skBytes pubBytes
        (P.buildEnvelopeCanonical payload payloadType nonce ts alg none) = .ok (sigB64, pubB64) ∧
      (P.Accepts store now window peer (P.buildEnvelopeSignedWithPeer payload payloadType nonce ts
          "ml-dsa-65" "ml-dsa-65" sigB64 (P.base64Encode pubBytes) peerId none) payload
          payloadType ↔
        peerId = "" ∧ alg = "ml-dsa-65") := by
  obtain ⟨sigBytes, hsign, hverify⟩ := keys.signEnvelope_spec hbinds
    (P.buildEnvelopeCanonical payload payloadType nonce ts alg none)
  refine ⟨_, _, hsign, ?_⟩
  let table := Platform.envelopeArgs payload payloadType nonce ts "ml-dsa-65"
    ("ml-dsa-65" ++ ":" ++ P.base64Encode sigBytes) (P.base64Encode pubBytes) none peerId
  have hopen : P.openEnvelope (P.finishEnvelope table) = .ok ⟨table, sigBytes, pubBytes⟩ :=
    openEnvelope_ok_iff.mpr ⟨hround table,
      P.normalizeAndDecodeSignature_prefixed hb64 (by decide) sigBytes, hb64 pubBytes⟩
  -- The two canonical tables differ in the peer and the algorithm alone.
  have hcheck : P.checkSignature ⟨table, sigBytes, pubBytes⟩ = .ok () ↔
      peerId = "" ∧ alg = "ml-dsa-65" := by
    rw [checkSignature_ok_iff, hverify]
    constructor
    · intro h
      have htables := hround.injective h
      have hpeer := congrArg Envelope.peerId htables
      have halg := congrArg Envelope.alg htables
      exact ⟨Option.some.inj hpeer, (Option.some.inj halg).symm⟩
    · rintro ⟨rfl, rfl⟩
      rfl
  rw [← hcheck]
  constructor
  · rintro ⟨parts, hparts, -⟩
    obtain ⟨o, hopen', -, hsig, -⟩ := verify_ok_iff.mp hparts
    obtain rfl := Except.ok.inj (hopen.symm.trans hopen')
    exact hsig
  · intro hsig
    exact ⟨_, verify_ok_iff.mpr ⟨_, hopen, .inr hfresh, hsig, rfl⟩, rfl, rfl⟩

/-- The manifest envelope of a builder with the key pair's own key. -/
theorem buildManifestEnvelope_accepted_iff {builder : FlatbufferEnvelopeBuilder}
    (hkey : builder.publicKey = P.base64Encode pubBytes) (envelopeNonce : Bytes) (ts : U64)
    (ciphertext : Bytes) {store : NonceStore} {now : Instant} {window : Duration} {peer : String}
    (hfresh : ¬ store.Live now window peer (P.base64Encode envelopeNonce)) :
    (∃ out, builder.buildManifestEnvelope P envelopeNonce ts ciphertext skBytes pubBytes = .ok out ∧
        P.Accepts store now window peer out ciphertext "manifest") ↔ builder.peerId = "" := by
  obtain ⟨sigB64, pubB64, hsign, hiff⟩ := shipped_accepted_iff hround hb64 keys hbinds ciphertext
    "manifest" (P.base64Encode envelopeNonce) ts "ml-dsa-65" builder.peerId hfresh
  have hbuild : builder.buildManifestEnvelope P envelopeNonce ts ciphertext skBytes pubBytes =
      .ok (P.buildEnvelopeSignedWithPeer ciphertext "manifest" (P.base64Encode envelopeNonce) ts
        "ml-dsa-65" "ml-dsa-65" sigB64 (P.base64Encode pubBytes) builder.peerId none) := by
    rw [FlatbufferEnvelopeBuilder.buildManifestEnvelope, hsign, hkey]
    rfl
  rw [hbuild]
  simp only [Except.ok.injEq, exists_eq_left', hiff, and_true]

/-- An envelope that the builder signs. -/
theorem signEnvelope_accepted_iff {builder : FlatbufferEnvelopeBuilder}
    (hkey : builder.publicKey = P.base64Encode pubBytes) {bytes : Bytes} {envelope : Envelope}
    (hparse : P.rootAsEnvelope bytes = .ok envelope) {store : NonceStore} {now : Instant}
    {window : Duration} {peer : String}
    (hfresh : ¬ store.Live now window peer (envelope.nonce.getD "")) :
    (∃ out, builder.signEnvelope P bytes skBytes pubBytes = .ok out ∧
        P.Accepts store now window peer out (envelope.payload.getD [])
          (envelope.payloadType.getD "")) ↔
      builder.peerId = "" ∧ envelope.alg.getD "" = "ml-dsa-65" := by
  obtain ⟨sigB64, pubB64, hsign, hiff⟩ := shipped_accepted_iff hround hb64 keys hbinds
    (envelope.payload.getD []) (envelope.payloadType.getD "") (envelope.nonce.getD "") envelope.ts
    (envelope.alg.getD "") builder.peerId hfresh
  have hbuild : builder.signEnvelope P bytes skBytes pubBytes =
      .ok (P.buildEnvelopeSignedWithPeer (envelope.payload.getD []) (envelope.payloadType.getD "")
        (envelope.nonce.getD "") envelope.ts "ml-dsa-65" "ml-dsa-65" sigB64
        (P.base64Encode pubBytes) builder.peerId none) := by
    rw [FlatbufferEnvelopeBuilder.signEnvelope, hparse]
    simp only [mapErr, bind, Except.bind, hsign, hkey]
    rfl
  rw [hbuild]
  simp only [Except.ok.injEq, exists_eq_left', hiff]

end Shipped

/-- **Which envelopes of the command line verify**: with matching keys and a nonce that is not live,
a manifest envelope is accepted exactly when the builder has no peer id, and a signed envelope when,
besides, it named `ml-dsa-65` as its algorithm. -/
theorem built_envelopes_accepted_iff (P : Platform) (hround : P.EnvelopeRoundTrip)
    (hb64 : P.Base64RoundTrip) {pubBytes skBytes : Bytes} (keys : P.KeyPair pubBytes skBytes)
    (hbinds : keys.BindsMessages) (builder : FlatbufferEnvelopeBuilder)
    (hkey : builder.publicKey = P.base64Encode pubBytes) (envelopeNonce : Bytes) (ts : U64)
    (ciphertext bytes : Bytes) (envelope : Envelope)
    (hparse : P.rootAsEnvelope bytes = .ok envelope)
    (store : NonceStore) (now : Instant) (window : Duration) (peer : String)
    (hfreshManifest : ¬ store.Live now window peer (P.base64Encode envelopeNonce))
    (hfresh : ¬ store.Live now window peer (envelope.nonce.getD "")) :
    ((∃ out,
        builder.buildManifestEnvelope P envelopeNonce ts ciphertext skBytes pubBytes = .ok out ∧
        P.Accepts store now window peer out ciphertext "manifest") ↔ builder.peerId = "") ∧
      ((∃ out, builder.signEnvelope P bytes skBytes pubBytes = .ok out ∧
          P.Accepts store now window peer out (envelope.payload.getD [])
            (envelope.payloadType.getD "")) ↔
        builder.peerId = "" ∧ envelope.alg.getD "" = "ml-dsa-65") :=
  ⟨buildManifestEnvelope_accepted_iff hround hb64 keys hbinds hkey envelopeNonce ts ciphertext
      hfreshManifest,
    signEnvelope_accepted_iff hround hb64 keys hbinds hkey hparse hfresh⟩

/-! ## On a reference platform -/

/-- A key pair of the platform on which a signature is the message behind its key. -/
def keyedPair : keyedPlatform.KeyPair [7] [7] where
  pubk := ([7] : Bytes)
  privk := ([7] : Bytes)
  init := rfl
  pubBytes_eq := ⟨rfl, rfl⟩
  skBytes_eq := rfl
  verifies m := ⟨([7] ++ m : Bytes), rfl, rfl, by simp [keyedPlatform]⟩

theorem keyedPair_bindsMessages : keyedPair.BindsMessages := by
  rintro m m' s ⟨⟩ hverify
  have hverdict : (([7] ++ m : Bytes) == [7] ++ m') = true := Except.ok.inj hverify
  exact (List.append_cancel_left (beq_iff_eq.mp hverdict)).symm

/-- A builder with the key pair's own key. -/
def keyedBuilder (peerId : String) : FlatbufferEnvelopeBuilder := ⟨peerId, Base64.encode [7]⟩

/-- A simple envelope of that builder, and the table it encodes. -/
def simpleTable (peerId : String) : Envelope :=
  Platform.envelopeArgs "x".toUTF8.data.toList "task" (Base64.encode [2]) 5 "ml-dsa-65" "" "" none
    peerId

theorem rootAsEnvelope_simple (peerId : String) :
    keyedPlatform.rootAsEnvelope
        ((keyedBuilder peerId).buildSimpleEnvelope keyedPlatform [2] 5 "task" "x") =
      .ok (simpleTable peerId) :=
  referencePlatform_envelopeRoundTrip (fun _ _ => true) (simpleTable peerId)

/-- A builder without a peer id: what it builds and what it signs are accepted. -/
theorem built_envelopes_accepted_reference :
    let builder := keyedBuilder ""
    (∃ out, builder.buildManifestEnvelope keyedPlatform [1] 5 [3] [7] [7] = .ok out ∧
        keyedPlatform.Accepts ∅ 0 300 "q" out [3] "manifest") ∧
      ∃ out, builder.signEnvelope keyedPlatform
          (builder.buildSimpleEnvelope keyedPlatform [2] 5 "task" "x") [7] [7] = .ok out ∧
        keyedPlatform.Accepts ∅ 0 300 "q" out "x".toUTF8.data.toList "task" := by
  intro builder
  have h := built_envelopes_accepted_iff keyedPlatform
    (referencePlatform_envelopeRoundTrip fun _ _ => true)
    (referencePlatform_base64RoundTrip fun _ _ => true) keyedPair keyedPair_bindsMessages builder
    rfl [1] 5 [3] _ _ (rootAsEnvelope_simple "") ∅ 0 300 "q"
    (NonceStore.not_live_empty _ _ _ _) (NonceStore.not_live_empty _ _ _ _)
  exact ⟨h.1.mpr rfl, h.2.mpr ⟨rfl, rfl⟩⟩

/-- A builder with a peer id: neither is accepted. -/
theorem built_envelopes_with_peer_rejected :
    let builder := keyedBuilder "p"
    (¬ ∃ out, builder.buildManifestEnvelope keyedPlatform [1] 5 [3] [7] [7] = .ok out ∧
        keyedPlatform.Accepts ∅ 0 300 "q" out [3] "manifest") ∧
      ¬ ∃ out, builder.signEnvelope keyedPlatform
          (builder.buildSimpleEnvelope keyedPlatform [2] 5 "task" "x") [7] [7] = .ok out ∧
        keyedPlatform.Accepts ∅ 0 300 "q" out "x".toUTF8.data.toList "task" := by
  intro builder
  have hround : keyedPlatform.EnvelopeRoundTrip :=
    referencePlatform_envelopeRoundTrip fun _ _ => true
  have hb64 : keyedPlatform.Base64RoundTrip := referencePlatform_base64RoundTrip fun _ _ => true
  have hkey : builder.publicKey = keyedPlatform.base64Encode [7] := rfl
  have hpeer : builder.peerId ≠ "" := by decide
  constructor
  · intro h
    exact hpeer ((buildManifestEnvelope_accepted_iff hround hb64 keyedPair keyedPair_bindsMessages
      hkey [1] 5 [3] (NonceStore.not_live_empty _ _ _ _)).mp h)
  · intro h
    exact hpeer ((signEnvelope_accepted_iff hround hb64 keyedPair keyedPair_bindsMessages hkey
      (rootAsEnvelope_simple "p") (NonceStore.not_live_empty _ _ _ _)).mp h).1

end Beemesh

import Beemesh.Envelope.Verify
import Beemesh.Lib.Text

/-!
# Taking envelopes apart

Two helpers of the protocol crate take the signature and the key out of an envelope, and one of them
rebuilds the bytes that were signed. It is the third place that does so, after the signer and the
verifier; it keeps the KEM key, and leaves out the peer.

## Main definitions

* `sigPart`: the base64 of a signature, without its prefix
* `fbEnvelopeExtractSigPub`, `fbEnvelopeExtractSigPubLegacy`: the helpers
* `signedCanonical`: the bytes that are signed
* `Recovers`: the helpers give back what was signed and with what

## Main results

* `extract_signed`: what the helpers take out of a signed envelope
* `extract_inverts_sign_iff`: they give back the signed bytes exactly when no peer is named
-/

namespace Beemesh

/-! ## The helpers -/

/-- `splitn(2, ':')` and the piece that is wanted: the second, if there is a colon. -/
def sigPart (sigField : String) : String :=
  ((Text.splitOnce sigField ":")[if Text.contains sigField ":" then 1 else 0]?).getD sigField

namespace Platform

variable (P : Platform)

/-- `fb_envelope_extract_sig_pub`. -/
def fbEnvelopeExtractSigPub (envelopeBytes : Bytes) : Option (Bytes × Bytes) :=
  match P.rootAsEnvelope envelopeBytes with
  | .error _ => none
  | .ok envelope =>
    envelope.sig.bind fun sigField =>
      match P.base64Decode (sigPart sigField) with
      | .error _ => none
      | .ok sigBytes =>
        envelope.pubkey.bind fun pubkeyField =>
          match P.base64Decode pubkeyField with
          | .error _ => none
          | .ok pubBytes => some (sigBytes, pubBytes)

/-- `fb_envelope_extract_sig_pub_legacy`: the canonical bytes, the signature, the key, and the
fields that the last two stand in. -/
def fbEnvelopeExtractSigPubLegacy (buf : Bytes) :
    Except AnyhowError (Bytes × Bytes × Bytes × String × String) := do
  let fbEnv ← mapErr ("failed to parse envelope flatbuffer: " ++ ·) (P.rootAsEnvelope buf)
  -- The builder that takes no peer, whether or not the envelope names one.
  let canonical := P.buildEnvelopeCanonical (fbEnv.payload.getD []) (fbEnv.payloadType.getD "")
    (fbEnv.nonce.getD "") fbEnv.ts (fbEnv.alg.getD "") (some (fbEnv.kemPubkey.getD ""))
  let sigField := fbEnv.sig.getD ""
  let pubkeyField := fbEnv.pubkey.getD ""
  let sigBytes ← mapErr ("failed to base64-decode signature: " ++ ·)
    (P.base64Decode (sigPart sigField))
  let pubBytes ← mapErr ("failed to base64-decode pubkey: " ++ ·) (P.base64Decode pubkeyField)
  return (canonical, sigBytes, pubBytes, sigField, pubkeyField)

/-- The bytes that `sign_internal` signs. -/
def signedCanonical (uuid : String) (nowMs : U64) (payload : Bytes) (payloadType : String)
    (config : SignEnvelopeConfig) : Bytes :=
  match config.peerId with
  | some peer =>
    P.buildEnvelopeCanonicalWithPeer payload payloadType (config.nonce.getD uuid)
      (config.timestamp.getD nowMs) config.algorithm peer config.kemPubB64
  | none =>
    P.buildEnvelopeCanonical payload payloadType (config.nonce.getD uuid)
      (config.timestamp.getD nowMs) config.algorithm config.kemPubB64

/-- From the envelope the helpers recover the bytes that were signed, the signature and the key, and
the signature verifies. -/
structure Recovers (envelopeBytes canonical sigBytes pubBytes : Bytes) : Prop where
  legacy : ∃ sigField pubkeyField, P.fbEnvelopeExtractSigPubLegacy envelopeBytes =
    .ok (canonical, sigBytes, pubBytes, sigField, pubkeyField)
  verifies : P.verifyEnvelope pubBytes canonical sigBytes = .ok ()
  sigPub : P.fbEnvelopeExtractSigPub envelopeBytes = some (sigBytes, pubBytes)

end Platform

/-! ## Signed envelopes -/

theorem sigPart_prefixed {sigPrefix : String} (h : ':' ∉ sigPrefix.toList) (s : String) :
    sigPart (sigPrefix ++ ":" ++ s) = s := by
  have hbreak : Text.breakOn ":".toList (sigPrefix ++ ":" ++ s).toList =
      some (sigPrefix.toList, s.toList) := by
    rw [String.toList_append, String.toList_append, List.append_assoc]
    exact Text.breakOn_append h s.toList
  have hcontains : Text.contains (sigPrefix ++ ":" ++ s) ":" = true := by
    rw [Text.contains, hbreak]
    rfl
  simp only [sigPart, hcontains, if_true, Text.splitOnce, hbreak, String.ofList_toList]
  rfl

section Signed

variable {P : Platform} {pubBytes skBytes : Bytes} (uuid : String) (nowMs : U64) (payload : Bytes)
  (payloadType : String) (config : SignEnvelopeConfig)

/-- The tables around a signature: with empty signature and key the one that is signed, and with
them the one that is sent. -/
def signedTable (sig pubkey peerId : String) : Envelope :=
  Platform.envelopeArgs payload payloadType (config.nonce.getD uuid) (config.timestamp.getD nowMs)
    config.algorithm sig pubkey config.kemPubB64 peerId

theorem signedCanonical_eq :
    P.signedCanonical uuid nowMs payload payloadType config =
      P.finishEnvelope
        (signedTable uuid nowMs payload payloadType config "" "" (config.peerId.getD "")) := by
  rw [Platform.signedCanonical]
  cases config.peerId <;> rfl

/-- Signing sends the table with the signature of the one without. -/
theorem signWithExistingKeypair_of_signEnvelope {sigB64 pubB64 : String}
    (hsign : P.signEnvelope skBytes pubBytes
      (P.signedCanonical uuid nowMs payload payloadType config) = .ok (sigB64, pubB64)) :
    P.signWithExistingKeypair uuid nowMs payload payloadType config pubBytes skBytes =
      .ok ⟨P.finishEnvelope (signedTable uuid nowMs payload payloadType config
        (config.signaturePrefix ++ ":" ++ sigB64) pubB64 (config.peerId.getD "")),
        config.nonce.getD uuid, config.timestamp.getD nowMs⟩ := by
  rw [signedCanonical_eq] at hsign
  rw [Platform.signWithExistingKeypair, P.signInternal_eq]
  simp only [bind_eq_ok_iff]
  exact ⟨_, hsign, rfl⟩

/-- **What the helpers take out of a signed envelope**: the signature and the key, and canonical
bytes without a peer. -/
theorem extract_signed (hround : P.EnvelopeRoundTrip) (hb64 : P.Base64RoundTrip)
    (hcolon : ':' ∉ config.signaturePrefix.toList) (pubBytes sigBytes : Bytes) (peerId : String) :
    let sigField := config.signaturePrefix ++ ":" ++ P.base64Encode sigBytes
    let pubkeyField := P.base64Encode pubBytes
    let bytes := P.finishEnvelope
      (signedTable uuid nowMs payload payloadType config sigField pubkeyField peerId)
    P.fbEnvelopeExtractSigPubLegacy bytes =
        .ok (P.finishEnvelope (signedTable uuid nowMs payload payloadType config "" "" ""),
          sigBytes, pubBytes, sigField, pubkeyField) ∧
      P.fbEnvelopeExtractSigPub bytes = some (sigBytes, pubBytes) := by
  intro sigField pubkeyField bytes
  have hread := hround (signedTable uuid nowMs payload payloadType config sigField pubkeyField
    peerId)
  have hsig : P.base64Decode (sigPart sigField) = .ok sigBytes := by
    rw [sigPart_prefixed hcolon]
    exact hb64 sigBytes
  have hpub : P.base64Decode pubkeyField = .ok pubBytes := hb64 pubBytes
  constructor
  · simp only [Platform.fbEnvelopeExtractSigPubLegacy, bind_eq_ok_iff, mapErr_eq_ok_iff]
    exact ⟨_, hread, sigBytes, hsig, pubBytes, hpub, rfl⟩
  · rw [Platform.fbEnvelopeExtractSigPub, hread]
    simp only [signedTable, Platform.envelopeArgs, Option.bind_some, hsig, hpub]

/-- **Extraction inverts signing exactly when no peer is named**, or an empty one: then the helpers
give back the bytes that were signed, the signature and the key, for every payload and
configuration. -/
theorem extract_inverts_sign_iff (hround : P.EnvelopeRoundTrip) (hb64 : P.Base64RoundTrip)
    (keys : P.KeyPair pubBytes skBytes) (hcolon : ':' ∉ config.signaturePrefix.toList) :
    let canonical := P.signedCanonical uuid nowMs payload payloadType config
    (∃ signed sigBytes,
      P.signWithExistingKeypair uuid nowMs payload payloadType config pubBytes skBytes =
        .ok signed ∧
      P.signEnvelope skBytes pubBytes canonical =
        .ok (P.base64Encode sigBytes, P.base64Encode pubBytes) ∧
      P.Recovers signed.bytes canonical sigBytes pubBytes) ↔
    config.peerId.getD "" = "" := by
  intro canonical
  have hcanonical : canonical = P.finishEnvelope
      (signedTable uuid nowMs payload payloadType config "" "" (config.peerId.getD "")) :=
    signedCanonical_eq uuid nowMs payload payloadType config
  obtain ⟨sigBytes, hsign, hverify⟩ := keys.verifyEnvelope_signEnvelope canonical
  have hsigned :=
    signWithExistingKeypair_of_signEnvelope uuid nowMs payload payloadType config hsign
  obtain ⟨hlegacy, hsigPub⟩ := extract_signed uuid nowMs payload payloadType config hround hb64
    hcolon pubBytes sigBytes (config.peerId.getD "")
  constructor
  · rintro ⟨signed, sigBytes', hsigned', -, hrecovers⟩
    obtain rfl := Except.ok.inj (hsigned'.symm.trans hsigned)
    obtain ⟨sigField, pubkeyField, hextract⟩ := hrecovers.legacy
    -- Both canonical tables are written alike, so they name the same peer.
    have hbytes := (Prod.mk.inj (Except.ok.inj (hextract.symm.trans hlegacy))).1
    have htables := hround.injective (hcanonical.symm.trans hbytes)
    exact Option.some.inj (congrArg Envelope.peerId htables)
  · intro hpeer
    rw [hpeer] at hcanonical
    exact ⟨_, sigBytes, hsigned, hsign, ⟨_, _, hcanonical ▸ hlegacy⟩, hverify, hsigPub⟩

end Signed

/-! ## On a reference platform -/

/-- The reference key pair. -/
def sevenKeys : (referencePlatform fun _ _ => true).KeyPair [7] [7] where
  pubk := [7]
  privk := [7]
  init := rfl
  pubBytes_eq := ⟨rfl, rfl⟩
  skBytes_eq := rfl
  verifies m := ⟨m, rfl, rfl, by simp [referencePlatform]⟩

/-- An envelope with a KEM key and no peer. -/
theorem extract_inverts_sign_reference :
    let P := referencePlatform fun _ _ => true
    let config : SignEnvelopeConfig := { kemPubB64 := some "kem" }
    let canonical := P.signedCanonical "uuid" 9 [1, 2] "apply" config
    ∃ signed sigBytes,
      P.signWithExistingKeypair "uuid" 9 [1, 2] "apply" config [7] [7] = .ok signed ∧
      P.signEnvelope [7] [7] canonical = .ok (P.base64Encode sigBytes, P.base64Encode [7]) ∧
      P.Recovers signed.bytes canonical sigBytes [7] :=
  (extract_inverts_sign_iff "uuid" 9 [1, 2] "apply" { kemPubB64 := some "kem" }
    (referencePlatform_envelopeRoundTrip _) (referencePlatform_base64RoundTrip _) sevenKeys
    (by decide)).mpr rfl

/-- An envelope for a peer is taken apart into bytes that were not signed. -/
theorem extract_loses_peer :
    let P := referencePlatform fun _ _ => true
    let config : SignEnvelopeConfig := { peerId := some "p" }
    ∃ signed, P.signWithExistingKeypair "uuid" 9 [1, 2] "apply" config [7] [7] = .ok signed ∧
      ∀ sigBytes, ¬ P.Recovers signed.bytes (P.signedCanonical "uuid" 9 [1, 2] "apply" config)
        sigBytes [7] := by
  intro P config
  have hround : P.EnvelopeRoundTrip := referencePlatform_envelopeRoundTrip _
  obtain ⟨sig, hsign, -⟩ := sevenKeys.verifyEnvelope_signEnvelope
    (P.signedCanonical "uuid" 9 [1, 2] "apply" config)
  refine ⟨_, signWithExistingKeypair_of_signEnvelope "uuid" 9 [1, 2] "apply" config hsign,
    fun sigBytes hrecovers => ?_⟩
  obtain ⟨hlegacy, -⟩ := extract_signed "uuid" 9 [1, 2] "apply" config hround
    (referencePlatform_base64RoundTrip _) (by decide) [7] sig "p"
  obtain ⟨sigField, pubkeyField, hextract⟩ := hrecovers.legacy
  have hbytes := (Prod.mk.inj (Except.ok.inj (hextract.symm.trans hlegacy))).1
  rw [signedCanonical_eq] at hbytes
  have hpeer := congrArg Envelope.peerId (hround.injective hbytes)
  exact absurd hpeer (by decide)

end Beemesh

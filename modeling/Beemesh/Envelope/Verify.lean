import Beemesh.Envelope.Nonce
import Beemesh.Envelope.Reference

/-!
# Signing and verifying envelopes

`sign_with_existing_keypair` and `verify_flatbuffer_envelope_for_peer` of `envelope.rs`. The
verifier opens the buffer, rebuilds the canonical bytes from what it finds, checks the nonce and
then the signature. What it returns was signed, whatever buffer it was given; and what was signed
verifies.

## Main definitions

* `signWithExistingKeypair`
* `openEnvelope`, `checkNonce`, `verifyFlatbufferEnvelopeForPeer`

## Main results

* `verify_ok_iff`: when the verifier accepts, and what it returns
* `verify_snd`: the store it leaves does not depend on the signature
* `verify_authentic`: what is accepted is what was signed
* `verify_sign`: what was signed is accepted
-/

namespace Beemesh

/-! ## Signing -/

/-- `SignEnvelopeConfig`. -/
structure SignEnvelopeConfig where
  nonce : Option String := none
  timestamp : Option U64 := none
  peerId : Option String := none
  kemPubB64 : Option String := none
  algorithm : String := "ml-dsa-65"
  signaturePrefix : String := "ml-dsa-65"

structure SignedEnvelope where
  bytes : Bytes
  nonce : String
  timestamp : U64

namespace Platform

variable (P : Platform)

/-- `sign_internal`. The random nonce and the time that stand in for absent ones are arguments. -/
def signInternal (uuid : String) (nowMs : U64) (payload : Bytes) (payloadType : String)
    (config : SignEnvelopeConfig) (pubBytes skBytes : Bytes) :
    Except AnyhowError SignedEnvelope := do
  let nonce := config.nonce.getD uuid
  let timestamp := config.timestamp.getD nowMs
  let canonical := match config.peerId with
    | some peer =>
      P.buildEnvelopeCanonicalWithPeer payload payloadType nonce timestamp config.algorithm peer
        config.kemPubB64
    | none =>
      P.buildEnvelopeCanonical payload payloadType nonce timestamp config.algorithm
        config.kemPubB64
  let (sigB64, pubB64) ← P.signEnvelope skBytes pubBytes canonical
  let bytes := match config.peerId with
    | some peer =>
      P.buildEnvelopeSignedWithPeer payload payloadType nonce timestamp config.algorithm
        config.signaturePrefix sigB64 pubB64 peer config.kemPubB64
    | none =>
      P.buildEnvelopeSigned payload payloadType nonce timestamp config.algorithm
        config.signaturePrefix sigB64 pubB64 config.kemPubB64
  return ⟨bytes, nonce, timestamp⟩

/-- `sign_with_existing_keypair`. -/
def signWithExistingKeypair (uuid : String) (nowMs : U64) (payload : Bytes)
    (payloadType : String) (config : SignEnvelopeConfig) (pubBytes skBytes : Bytes) :
    Except AnyhowError SignedEnvelope :=
  P.signInternal uuid nowMs payload payloadType config pubBytes skBytes

/-! ## Verifying -/

end Platform

/-- `VerifiedEnvelopeParts`. -/
structure VerifiedEnvelopeParts where
  payload : Bytes
  pubkey : Bytes
  signature : Bytes
  timestampMs : U64
  payloadType : String
  deriving DecidableEq

/-- A parsed envelope with its decoded signature and key. -/
structure Opened where
  envelope : Envelope
  sigBytes : Bytes
  pubBytes : Bytes

namespace Opened

def nonce (o : Opened) : String := o.envelope.content.nonce

/-- What the verifier returns of an envelope it accepts. -/
def parts (o : Opened) : VerifiedEnvelopeParts where
  payload := o.envelope.content.payload
  pubkey := o.pubBytes
  signature := o.sigBytes
  timestampMs := o.envelope.content.ts
  payloadType := o.envelope.content.payloadType

end Opened

/-- The replay check of the verifier: an empty nonce skips it. -/
def checkNonce (store : NonceStore) (now : Instant) (nonce : String) (nonceWindow : Duration)
    (peerId : String) : Except AnyhowError Unit × NonceStore :=
  if nonce ≠ "" then checkAndInsertNonceForPeer store now nonce nonceWindow peerId
  else (.ok (), store)

namespace Platform

variable (P : Platform)

/-- The first, fallible steps of the verifier: parse, decode the signature, decode the key. -/
def openEnvelope (bytes : Bytes) : Except AnyhowError Opened := do
  let env ← withContext "failed to parse flatbuffer envelope" (anyhow (P.rootAsEnvelope bytes))
  let sigBytes ← P.normalizeAndDecodeSignature (some (env.sig.getD ""))
  let pubBytes ← withContext "failed to base64-decode pubkey"
    (anyhow (P.base64Decode (env.pubkey.getD "")))
  return ⟨env, sigBytes, pubBytes⟩

/-- The signature check of the verifier. -/
def checkSignature (o : Opened) : Except AnyhowError Unit :=
  withContext "flatbuffer signature verification failed"
    (P.verifyEnvelope o.pubBytes (P.reconstructCanonical o.envelope) o.sigBytes)

/-- `verify_flatbuffer_envelope_for_peer`, on the store and at the time of its nonce check. -/
def verifyFlatbufferEnvelopeForPeer (store : NonceStore) (now : Instant) (bytes : Bytes)
    (nonceWindow : Duration) (peerId : String) :
    Except AnyhowError VerifiedEnvelopeParts × NonceStore :=
  match P.openEnvelope bytes with
  | .error e => (.error e, store)
  | .ok o =>
    -- The nonce comes before the signature: a forgery spends it too.
    match checkNonce store now o.nonce nonceWindow peerId with
    | (.error e, store) => (.error e, store)
    | (.ok (), store) =>
      match P.checkSignature o with
      | .error e => (.error e, store)
      | .ok () => (.ok o.parts, store)

end Platform

/-! ## What the verifier does -/

section Spec

variable {P : Platform} {store : NonceStore} {now : Instant} {window : Duration} {peer : String}

theorem checkNonce_ok_iff {nonce : String} :
    (checkNonce store now nonce window peer).1 = .ok () ↔
      nonce = "" ∨ ¬ store.Live now window peer nonce := by
  by_cases hempty : nonce = ""
  · simp [checkNonce, hempty]
  · simp [checkNonce, hempty, checkAndInsertNonceForPeer_ok_iff]

/-- What is live after the replay check, at any later time. -/
theorem live_checkNonce {nonce : String} {now' : Instant} (hle : now ≤ now')
    (peer' nonce' : String) :
    (checkNonce store now nonce window peer).2.Live now' window peer' nonce' ↔
      store.Live now' window peer' nonce' ∨
        (nonce ≠ "" ∧ peer' = peer ∧ nonce' = nonce ∧ ¬ store.Live now window peer nonce ∧
          now' - now ≤ window) := by
  by_cases hempty : nonce = ""
  · simp [checkNonce, hempty]
  · simp only [checkNonce, ne_eq, hempty, not_false_eq_true, if_true, true_and]
    exact live_checkAndInsertNonceForPeer hempty hle peer' nonce'

/-- **When the verifier accepts**: the buffer opens, the nonce is empty or not live, and the
signature verifies. -/
theorem verify_ok_iff {bytes : Bytes} {parts : VerifiedEnvelopeParts} :
    (P.verifyFlatbufferEnvelopeForPeer store now bytes window peer).1 = .ok parts ↔
      ∃ o, P.openEnvelope bytes = .ok o ∧
        (o.nonce = "" ∨ ¬ store.Live now window peer o.nonce) ∧
        P.checkSignature o = .ok () ∧ o.parts = parts := by
  rw [Platform.verifyFlatbufferEnvelopeForPeer]
  cases hopen : P.openEnvelope bytes with
  | error e => simp
  | ok o =>
    simp only [Except.ok.injEq, exists_eq_left', ← checkNonce_ok_iff]
    obtain ⟨checked, store'⟩ := checkNonce store now o.nonce window peer
    cases checked with
    | error e => simp
    | ok u => cases P.checkSignature o <;> simp

/-- **The store the verifier leaves**: the replay check writes it, before the signature is looked
at. -/
theorem verify_snd (P : Platform) (store : NonceStore) (now : Instant) (bytes : Bytes)
    (window : Duration) (peer : String) :
    (P.verifyFlatbufferEnvelopeForPeer store now bytes window peer).2 =
      match P.openEnvelope bytes with
      | .error _ => store
      | .ok o => (checkNonce store now o.nonce window peer).2 := by
  rw [Platform.verifyFlatbufferEnvelopeForPeer]
  cases P.openEnvelope bytes with
  | error e => rfl
  | ok o =>
    simp only
    obtain ⟨checked, store'⟩ := checkNonce store now o.nonce window peer
    cases checked with
    | error e => rfl
    | ok u => cases P.checkSignature o <;> rfl

theorem openEnvelope_ok_iff {bytes : Bytes} {o : Opened} :
    P.openEnvelope bytes = .ok o ↔
      P.rootAsEnvelope bytes = .ok o.envelope ∧
        P.normalizeAndDecodeSignature (some (o.envelope.sig.getD "")) = .ok o.sigBytes ∧
        P.base64Decode (o.envelope.pubkey.getD "") = .ok o.pubBytes := by
  simp only [Platform.openEnvelope, bind_eq_ok_iff, withContext_eq_ok_iff, anyhow_eq_ok_iff]
  constructor
  · rintro ⟨env, henv, sig, hsig, pub, hpub, hret⟩
    cases hret
    exact ⟨henv, hsig, hpub⟩
  · rintro ⟨henv, hsig, hpub⟩
    exact ⟨_, henv, _, hsig, _, hpub, rfl⟩

/-- A signature that checks is one over the encoded content. -/
theorem checkSignature_ok_iff {o : Opened} :
    P.checkSignature o = .ok () ↔
      P.verifyEnvelope o.pubBytes (P.finishEnvelope o.envelope.content.canonical) o.sigBytes =
        .ok () := by
  rw [Platform.checkSignature, withContext_eq_ok_iff, P.reconstructCanonical_eq]

end Spec

/-! ## On the reference platform -/

/-- An envelope of the content `c` under the key `key`, with `sig` for its signature. -/
def Content.envelope (c : Content) (key sig : Bytes) : Envelope :=
  Platform.envelopeArgs c.payload c.payloadType c.nonce c.ts c.alg
    ("ml-dsa-65" ++ ":" ++ Base64.encode sig) (Base64.encode key) (some c.kemPubkey) c.peerId

/-- Its bytes. -/
def Content.bytes (c : Content) (key sig : Bytes) : Bytes :=
  envelopeCodec.write (c.envelope key sig)

/-- The bytes a signature of the content is over. -/
def Content.canonicalBytes (c : Content) : Bytes := envelopeCodec.write c.canonical

theorem openEnvelope_bytes (issued : Bytes → Bytes → Bool) (c : Content) (key sig : Bytes) :
    (referencePlatform issued).openEnvelope (c.bytes key sig) =
      .ok ⟨c.envelope key sig, sig, key⟩ := by
  have hb64 := referencePlatform_base64RoundTrip issued
  refine openEnvelope_ok_iff.mpr ⟨referencePlatform_envelopeRoundTrip issued _, ?_, hb64 key⟩
  exact Platform.normalizeAndDecodeSignature_prefixed _ hb64 (by decide) sig

/-- The reference verifier accepts exactly what the key has signed, under a nonce that is empty or
not live. -/
theorem verify_bytes_ok_iff (issued : Bytes → Bytes → Bool) (c : Content) (key sig : Bytes)
    (store : NonceStore) (now : Instant) (window : Duration) (peer : String)
    (parts : VerifiedEnvelopeParts) :
    ((referencePlatform issued).verifyFlatbufferEnvelopeForPeer store now (c.bytes key sig) window
        peer).1 = .ok parts ↔
      (c.nonce = "" ∨ ¬ store.Live now window peer c.nonce) ∧
        issued key c.canonicalBytes = true ∧ sig = c.canonicalBytes ∧
        ⟨c.payload, key, sig, c.ts, c.payloadType⟩ = parts := by
  have hsig : (referencePlatform issued).checkSignature ⟨c.envelope key sig, sig, key⟩ = .ok () ↔
      issued key c.canonicalBytes = true ∧ sig = c.canonicalBytes := by
    rw [checkSignature_ok_iff, referencePlatform_verifyEnvelope]
    change (if issued key c.canonicalBytes && sig == c.canonicalBytes then _ else _) = _ ↔ _
    split_ifs with h <;> simpa using h
  rw [verify_ok_iff, openEnvelope_bytes]
  simp only [Except.ok.injEq, exists_eq_left', hsig, and_assoc]
  rfl

/-- The store after an envelope, whoever signed it. -/
theorem verify_bytes_snd (issued : Bytes → Bytes → Bool) (c : Content) (key sig : Bytes)
    (store : NonceStore) (now : Instant) (window : Duration) (peer : String) :
    ((referencePlatform issued).verifyFlatbufferEnvelopeForPeer store now (c.bytes key sig) window
        peer).2 = (checkNonce store now c.nonce window peer).2 := by
  rw [verify_snd, openEnvelope_bytes]
  rfl

/-! ## Authenticity -/

/-- **What is accepted is what was signed.** Let `signed k m` say that the holder of `k` signed
`m`. When the verifier returns parts, the holder of their key signed canonical bytes that decode to
the content of the buffer, and the parts are that content. A buffer whose content its key never
signed is rejected. -/
theorem verify_authentic (P : Platform) (hround : P.EnvelopeRoundTrip)
    (signed : Bytes → Bytes → Prop)
    (hsound : ∀ k m s, P.verifyEnvelope k m s = .ok () → signed k m)
    (store : NonceStore) (now : Instant) (bytes : Bytes) (window : Duration) (peer : String) :
    let verdict := (P.verifyFlatbufferEnvelopeForPeer store now bytes window peer).1
    (∀ parts, verdict = .ok parts →
      ∃ e, P.rootAsEnvelope bytes = .ok e ∧
        (∃ m t, signed parts.pubkey m ∧ P.rootAsEnvelope m = .ok t ∧
          t.sig = some "" ∧ t.pubkey = some "" ∧ t.content = e.content) ∧
        P.base64Decode (e.pubkey.getD "") = .ok parts.pubkey ∧
        parts.payload = e.content.payload ∧ parts.timestampMs = e.content.ts ∧
        parts.payloadType = e.content.payloadType) ∧
    (∀ e k, P.rootAsEnvelope bytes = .ok e → P.base64Decode (e.pubkey.getD "") = .ok k →
      (∀ m t, signed k m → P.rootAsEnvelope m = .ok t → t.content ≠ e.content) →
        ∃ err, verdict = .error err) := by
  intro verdict
  -- What an acceptance says, used in both directions.
  have hverdict : ∀ parts, verdict = .ok parts →
      ∃ o : Opened, P.rootAsEnvelope bytes = .ok o.envelope ∧
        P.base64Decode (o.envelope.pubkey.getD "") = .ok o.pubBytes ∧
        signed o.pubBytes (P.finishEnvelope o.envelope.content.canonical) ∧ o.parts = parts := by
    intro parts hok
    obtain ⟨o, hopen, -, hsig, hparts⟩ := verify_ok_iff.mp hok
    obtain ⟨henv, -, hpub⟩ := openEnvelope_ok_iff.mp hopen
    exact ⟨o, henv, hpub, hsound _ _ _ (checkSignature_ok_iff.mp hsig), hparts⟩
  refine ⟨fun parts hok => ?_, fun e k he hk hunsigned => ?_⟩
  · obtain ⟨o, henv, hpub, hsigned, rfl⟩ := hverdict parts hok
    -- The signed bytes are the canonical table of the content, which reads back.
    exact ⟨o.envelope, henv, ⟨_, _, hsigned, hround _, rfl, rfl, rfl⟩, hpub, rfl, rfl, rfl⟩
  · cases hv : verdict with
    | error err => exact ⟨err, rfl⟩
    | ok parts =>
      -- An acceptance would be of the same table and key, whose content was not signed.
      obtain ⟨o, henv, hpub, hsigned, -⟩ := hverdict parts hv
      obtain rfl : o.envelope = e := Except.ok.inj (henv.symm.trans he)
      obtain rfl : o.pubBytes = k := Except.ok.inj (hpub.symm.trans hk)
      exact (hunsigned _ _ hsigned (hround _) rfl).elim

/-- Key `7` has signed one content: that envelope is accepted, and the same signature on another
payload is not. -/
theorem verify_authentic_reference :
    let c : Content := ⟨[1, 2], "apply", "n", 5, "ml-dsa-65", "", "p"⟩
    let tampered : Content := { c with payload := [3] }
    let issued (k m : Bytes) : Bool := k == [7] && m == c.canonicalBytes
    let P := referencePlatform issued
    (∃ parts, (P.verifyFlatbufferEnvelopeForPeer ∅ 0 (c.bytes [7] c.canonicalBytes) 300 "q").1 =
        .ok parts ∧ ∃ m t, issued parts.pubkey m = true ∧ P.rootAsEnvelope m = .ok t ∧
          t.content = c) ∧
      ∃ err, (P.verifyFlatbufferEnvelopeForPeer ∅ 0 (tampered.bytes [7] c.canonicalBytes) 300
        "q").1 = .error err := by
  intro c tampered issued P
  have hround : P.EnvelopeRoundTrip := referencePlatform_envelopeRoundTrip issued
  have hsound : ∀ k m s, P.verifyEnvelope k m s = .ok () → issued k m = true := by
    intro k m s h
    rw [referencePlatform_verifyEnvelope] at h
    split_ifs at h with hs
    exact (Bool.and_eq_true_iff.mp hs).1
  have hauth (bytes : Bytes) :=
    verify_authentic P hround (fun k m => issued k m = true) hsound ∅ 0 bytes 300 "q"
  constructor
  · have hok := (verify_bytes_ok_iff issued c [7] c.canonicalBytes ∅ 0 300 "q" _).mpr
      ⟨.inr (by decide), by simp [issued], rfl, rfl⟩
    obtain ⟨e, he, ⟨m, t, hm, ht, -, -, hcontent⟩, -⟩ := (hauth _).1 _ hok
    obtain rfl : c.envelope [7] c.canonicalBytes = e := Except.ok.inj ((hround _).symm.trans he)
    exact ⟨_, hok, m, t, hm, ht, hcontent⟩
  · refine (hauth _).2 (tampered.envelope [7] c.canonicalBytes) [7] (hround _)
      (referencePlatform_base64RoundTrip issued _) fun m t hm ht hcontent => ?_
    have hm : m = c.canonicalBytes := by simpa [issued] using hm
    obtain rfl : c.canonical = t := by
      rw [hm] at ht
      exact Except.ok.inj ((hround _).symm.trans ht)
    exact absurd hcontent (by decide)

/-! ## Round trip -/

/-- The two halves of a key pair, on a platform where verification accepts what signing made. -/
structure Platform.KeyPair (P : Platform) (pubBytes skBytes : Bytes) where
  pubk : P.PublicKey
  privk : P.SecretKey
  init : P.ensurePqcInit = .ok ()
  pubBytes_eq : P.publicKeyFromBytes pubBytes = .ok pubk ∧ P.publicKeyToBytes pubk = pubBytes
  skBytes_eq : P.secretKeyFromBytes skBytes = .ok privk
  verifies : ∀ m, ∃ s, P.sign privk m = .ok s ∧
    P.signatureFromBytes (P.signatureToBytes s) = .ok s ∧ P.verify pubk m s = .ok true

theorem Platform.KeyPair.verifyEnvelope_signEnvelope {P : Platform} {pubBytes skBytes : Bytes}
    (keys : P.KeyPair pubBytes skBytes) (m : Bytes) :
    ∃ sigBytes,
      P.signEnvelope skBytes pubBytes m = .ok (P.base64Encode sigBytes, P.base64Encode pubBytes) ∧
        P.verifyEnvelope pubBytes m sigBytes = .ok () := by
  obtain ⟨s, hsign, hbytes, hverify⟩ := keys.verifies m
  refine ⟨P.signatureToBytes s, ?_, ?_⟩
  · simp only [signEnvelope, bind_eq_ok_iff, anyhow_eq_ok_iff]
    refine ⟨(), keys.init, _, keys.skBytes_eq, _, keys.pubBytes_eq.1, s, hsign, ?_⟩
    rw [keys.pubBytes_eq.2]
    rfl
  · simp only [verifyEnvelope, bind_eq_ok_iff, anyhow_eq_ok_iff, hbytes]
    exact ⟨(), keys.init, _, keys.pubBytes_eq.1, s, rfl, by rw [hverify]⟩

/-- What is signed and what is sent are tables of the same content, with or without a peer. -/
theorem Platform.signInternal_eq (P : Platform) (uuid : String) (nowMs : U64) (payload : Bytes)
    (payloadType : String) (config : SignEnvelopeConfig) (pubBytes skBytes : Bytes) :
    let nonce := config.nonce.getD uuid
    let ts := config.timestamp.getD nowMs
    let table (sig pubkey : String) := envelopeArgs payload payloadType nonce ts config.algorithm
      sig pubkey config.kemPubB64 (config.peerId.getD "")
    P.signInternal uuid nowMs payload payloadType config pubBytes skBytes = do
      let (sigB64, pubB64) ← P.signEnvelope skBytes pubBytes (P.finishEnvelope (table "" ""))
      return ⟨P.finishEnvelope (table (config.signaturePrefix ++ ":" ++ sigB64) pubB64), nonce,
        ts⟩ := by
  intro nonce ts table
  rw [signInternal]
  cases hpeer : config.peerId <;> simp only [table, hpeer] <;> rfl

/-- What is signed opens as what was signed, with the key that signed it, and its signature
verifies. -/
theorem openEnvelope_sign (P : Platform) (hround : P.EnvelopeRoundTrip) (hb64 : P.Base64RoundTrip)
    {pubBytes skBytes : Bytes} (keys : P.KeyPair pubBytes skBytes) (uuid : String) (nowMs : U64)
    (payload : Bytes) (payloadType : String) (config : SignEnvelopeConfig)
    (hcolon : ':' ∉ config.signaturePrefix.toList) :
    ∃ signed o, P.signWithExistingKeypair uuid nowMs payload payloadType config pubBytes skBytes =
        .ok signed ∧
      P.openEnvelope signed.bytes = .ok o ∧ P.checkSignature o = .ok () ∧ o.pubBytes = pubBytes ∧
      o.envelope.content = ⟨payload, payloadType, config.nonce.getD uuid,
        config.timestamp.getD nowMs, config.algorithm, config.kemPubB64.getD "",
        config.peerId.getD ""⟩ := by
  let table (sig pubkey : String) := Platform.envelopeArgs payload payloadType
    (config.nonce.getD uuid) (config.timestamp.getD nowMs) config.algorithm sig pubkey
    config.kemPubB64 (config.peerId.getD "")
  -- The key pair signs the table with empty signature and key.
  obtain ⟨sigBytes, hsign, hverify⟩ :=
    keys.verifyEnvelope_signEnvelope (P.finishEnvelope (table "" ""))
  let env := table (config.signaturePrefix ++ ":" ++ P.base64Encode sigBytes)
    (P.base64Encode pubBytes)
  have hsigned : P.signWithExistingKeypair uuid nowMs payload payloadType config pubBytes skBytes =
      .ok ⟨P.finishEnvelope env, config.nonce.getD uuid, config.timestamp.getD nowMs⟩ := by
    rw [Platform.signWithExistingKeypair, P.signInternal_eq, hsign]
    rfl
  have hopen : P.openEnvelope (P.finishEnvelope env) = .ok ⟨env, sigBytes, pubBytes⟩ :=
    openEnvelope_ok_iff.mpr ⟨hround env,
      P.normalizeAndDecodeSignature_prefixed hb64 hcolon sigBytes, hb64 pubBytes⟩
  -- The canonical table of what is sent is the table that was signed.
  have hcanonical : env.content.canonical = table "" "" := rfl
  refine ⟨_, _, hsigned, hopen, ?_, rfl, rfl⟩
  rw [checkSignature_ok_iff]
  exact hcanonical ▸ hverify

/-- **What was signed is accepted**: for every payload and configuration, a key pair, a prefix
without a colon, and a nonce that is not live, signing succeeds and the verifier returns what was
signed, with the key that signed it. -/
theorem verify_sign (P : Platform) (hround : P.EnvelopeRoundTrip) (hb64 : P.Base64RoundTrip)
    {pubBytes skBytes : Bytes} (keys : P.KeyPair pubBytes skBytes) (uuid : String) (nowMs : U64)
    (payload : Bytes) (payloadType : String) (config : SignEnvelopeConfig)
    (hcolon : ':' ∉ config.signaturePrefix.toList) (store : NonceStore) (now : Instant)
    (window : Duration) (peer : String)
    (hfresh : ¬ store.Live now window peer (config.nonce.getD uuid)) :
    ∃ signed, P.signWithExistingKeypair uuid nowMs payload payloadType config pubBytes skBytes =
        .ok signed ∧
      ∃ parts, (P.verifyFlatbufferEnvelopeForPeer store now signed.bytes window peer).1 =
          .ok parts ∧
        parts.payload = payload ∧ parts.payloadType = payloadType ∧
        parts.timestampMs = config.timestamp.getD nowMs ∧ parts.pubkey = pubBytes := by
  obtain ⟨signed, o, hsigned, hopen, hsig, hpub, hcontent⟩ :=
    openEnvelope_sign P hround hb64 keys uuid nowMs payload payloadType config hcolon
  have hnonce : o.nonce = config.nonce.getD uuid := by rw [Opened.nonce, hcontent]
  refine ⟨signed, hsigned, o.parts, verify_ok_iff.mpr ⟨o, hopen, .inr ?_, hsig, rfl⟩, ?_⟩
  · rwa [hnonce]
  · simp only [Opened.parts, hcontent, hpub, and_self]

/-- A node signs for a peer, with its own nonce and the default algorithm. -/
theorem verify_sign_reference :
    let P := referencePlatform fun _ _ => true
    ∃ signed, P.signWithExistingKeypair "uuid" 9 [1, 2] "apply" { peerId := some "p" } [7] [7] =
        .ok signed ∧
      ∃ parts, (P.verifyFlatbufferEnvelopeForPeer ∅ 0 signed.bytes 300 "q").1 = .ok parts ∧
        parts.payload = [1, 2] ∧ parts.payloadType = "apply" ∧ parts.timestampMs = 9 ∧
        parts.pubkey = [7] :=
  let P := referencePlatform fun _ _ => true
  let keys : P.KeyPair [7] [7] :=
    { pubk := [7]
      privk := [7]
      init := rfl
      pubBytes_eq := ⟨rfl, rfl⟩
      skBytes_eq := rfl
      verifies := fun m => ⟨m, rfl, rfl, by simp [P, referencePlatform]⟩ }
  verify_sign P (referencePlatform_envelopeRoundTrip _) (referencePlatform_base64RoundTrip _) keys
    "uuid" 9 [1, 2] "apply" { peerId := some "p" } (by decide) ∅ 0 300 "q" (by decide)

end Beemesh

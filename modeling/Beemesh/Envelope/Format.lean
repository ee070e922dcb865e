import Beemesh.Basic

/-!
# Envelopes

The signed envelope of the machine plane: a FlatBuffers table whose signature covers the canonical
form of the same table, the one with empty signature and key fields. The FlatBuffers runtime,
base64 and ML-DSA are not part of the repository; `Platform` lists what the code calls of them,
and the properties of them a result needs are hypotheses of that result.

## Main definitions

* `Envelope`: the table as a reader sees it
* `Platform`: the external operations
* `buildEnvelopeCanonical`, `buildEnvelopeSigned` and their variants with a peer
* `signEnvelope`, `verifyEnvelope`, `normalizeAndDecodeSignature`
* `Content`: what the signature of an envelope covers

## Main results

* `reconstructCanonical_eq`: both ways to rebuild the canonical bytes encode the content
* `normalizeAndDecodeSignature_prefixed`: a prefix without a colon is taken off
-/

namespace Beemesh

/-- The `Envelope` table. Every field but the timestamp can be absent. -/
structure Envelope where
  payload : Option Bytes
  payloadType : Option String
  nonce : Option String
  ts : U64
  alg : Option String
  sig : Option String
  pubkey : Option String
  kemPubkey : Option String
  peerId : Option String
  deriving DecidableEq

/-- The operations of FlatBuffers, base64 and ML-DSA that the envelope code calls. -/
structure Platform where
  rootAsEnvelope : Bytes → Except String Envelope
  /-- `Envelope::create` and `finish`. -/
  finishEnvelope : Envelope → Bytes
  base64Encode : Bytes → String
  base64Decode : String → Except String Bytes
  ensurePqcInit : Except String Unit
  PublicKey : Type
  SecretKey : Type
  Signature : Type
  publicKeyFromBytes : Bytes → Except String PublicKey
  publicKeyToBytes : PublicKey → Bytes
  secretKeyFromBytes : Bytes → Except String SecretKey
  signatureFromBytes : Bytes → Except String Signature
  signatureToBytes : Signature → Bytes
  sign : SecretKey → Bytes → Except String Signature
  verify : PublicKey → Bytes → Signature → Except String Bool

/-- Reading an encoded table gives back its fields. -/
def Platform.EnvelopeRoundTrip (P : Platform) : Prop :=
  ∀ t, P.rootAsEnvelope (P.finishEnvelope t) = .ok t

/-- Tables that are written alike are alike. -/
theorem Platform.EnvelopeRoundTrip.injective {P : Platform} (hround : P.EnvelopeRoundTrip)
    {t t' : Envelope} (h : P.finishEnvelope t = P.finishEnvelope t') : t = t' :=
  Except.ok.inj ((hround t).symm.trans ((congrArg P.rootAsEnvelope h).trans (hround t')))

def Platform.Base64RoundTrip (P : Platform) : Prop :=
  ∀ bs, P.base64Decode (P.base64Encode bs) = .ok bs

namespace Platform

variable (P : Platform)

/-! ## The builders -/

/-- The table every builder writes: all fields present, an absent KEM key as the empty string. -/
def envelopeArgs (payload : Bytes) (payloadType nonce : String) (ts : U64) (alg : String)
    (sig pubkey : String) (kemPub : Option String) (peerId : String) : Envelope where
  payload := some payload
  payloadType := some payloadType
  nonce := some nonce
  ts := ts
  alg := some alg
  sig := some sig
  pubkey := some pubkey
  kemPubkey := some (kemPub.getD "")
  peerId := some peerId

def buildEnvelopeCanonical (payload : Bytes) (payloadType nonce : String) (ts : U64)
    (alg : String) (kemPub : Option String) : Bytes :=
  P.finishEnvelope (envelopeArgs payload payloadType nonce ts alg "" "" kemPub "")

def buildEnvelopeSigned (payload : Bytes) (payloadType nonce : String) (ts : U64) (alg : String)
    (sigPrefix sigB64 pubkeyB64 : String) (kemPub : Option String) : Bytes :=
  P.finishEnvelope (envelopeArgs payload payloadType nonce ts alg (sigPrefix ++ ":" ++ sigB64)
    pubkeyB64 kemPub "")

def buildEnvelopeCanonicalWithPeer (payload : Bytes) (payloadType nonce : String)
    (timestamp : U64) (algorithm peerId : String) (kemPub : Option String) : Bytes :=
  P.finishEnvelope (envelopeArgs payload payloadType nonce timestamp algorithm "" "" kemPub peerId)

def buildEnvelopeSignedWithPeer (payload : Bytes) (payloadType nonce : String) (timestamp : U64)
    (algorithm sigPrefix sigB64 pubkeyB64 peerId : String) (kemPub : Option String) : Bytes :=
  P.finishEnvelope (envelopeArgs payload payloadType nonce timestamp algorithm
    (sigPrefix ++ ":" ++ sigB64) pubkeyB64 kemPub peerId)

/-! ## Signatures -/

/-- What follows the first colon, or all of a string without one. -/
def afterColon (s : String) : String :=
  match s.toList.dropWhile (· ≠ ':') with
  | [] => s
  | _ :: rest => String.ofList rest

/-- `normalize_and_decode_signature`. -/
def normalizeAndDecodeSignature (sig : Option String) : Except AnyhowError Bytes :=
  withContext "failed to base64-decode signature"
    (anyhow (P.base64Decode (afterColon (sig.getD ""))))

/-- `sign_envelope`: the base64 of the signature and of the public key. -/
def signEnvelope (skBytes pkBytes envelopeBytes : Bytes) : Except AnyhowError (String × String) :=
  do
    anyhow P.ensurePqcInit
    let privk ← anyhow (P.secretKeyFromBytes skBytes)
    let pubk ← anyhow (P.publicKeyFromBytes pkBytes)
    let signature ← anyhow (P.sign privk envelopeBytes)
    return (P.base64Encode (P.signatureToBytes signature),
      P.base64Encode (P.publicKeyToBytes pubk))

/-- `verify_envelope`. -/
def verifyEnvelope (pubBytes envelopeBytes sigBytes : Bytes) : Except AnyhowError Unit := do
  anyhow P.ensurePqcInit
  let pubk ← anyhow (P.publicKeyFromBytes pubBytes)
  let signature ← match P.signatureFromBytes sigBytes with
    | .ok signature => .ok signature
    | .error e => .error [s!"invalid signature bytes: {e}"]
  match P.verify pubk envelopeBytes signature with
  | .ok true => .ok ()
  | .ok false => .error ["signature verification failed: invalid signature"]
  | .error e => .error [s!"signature verification error: {e}"]

theorem afterColon_prefixed {sigPrefix : String} (h : ':' ∉ sigPrefix.toList) (s : String) :
    afterColon (sigPrefix ++ ":" ++ s) = s := by
  -- The first colon is the one after the prefix.
  have hdrop : (sigPrefix ++ ":" ++ s).toList.dropWhile (· ≠ ':') = ':' :: s.toList := by
    rw [String.toList_append, String.toList_append, List.append_assoc,
      List.dropWhile_append_of_pos]
    · rfl
    · intro c hc
      have hne : c ≠ ':' := fun heq => h (heq ▸ hc)
      simpa using hne
  rw [afterColon, hdrop]
  exact String.ofList_toList

/-- A prefix without a colon is taken off. -/
theorem normalizeAndDecodeSignature_prefixed (hb64 : P.Base64RoundTrip) {sigPrefix : String}
    (h : ':' ∉ sigPrefix.toList) (bs : Bytes) :
    P.normalizeAndDecodeSignature (some (sigPrefix ++ ":" ++ P.base64Encode bs)) = .ok bs := by
  rw [normalizeAndDecodeSignature, Option.getD_some, afterColon_prefixed h, hb64]
  rfl

end Platform

/-! ## What a signature covers -/

/-- The fields of an envelope that its signature covers, absent ones as empty. -/
structure Content where
  payload : Bytes
  payloadType : String
  nonce : String
  ts : U64
  alg : String
  kemPubkey : String
  peerId : String
  deriving DecidableEq

def Envelope.content (e : Envelope) : Content where
  payload := e.payload.getD []
  payloadType := e.payloadType.getD ""
  nonce := e.nonce.getD ""
  ts := e.ts
  alg := e.alg.getD ""
  kemPubkey := e.kemPubkey.getD ""
  peerId := e.peerId.getD ""

/-- The canonical table of a content: its fields, and empty signature and key. -/
def Content.canonical (c : Content) : Envelope :=
  Platform.envelopeArgs c.payload c.payloadType c.nonce c.ts c.alg "" "" (some c.kemPubkey) c.peerId

/-- The canonical bytes as the verifier rebuilds them, by one of two builders. -/
def Platform.reconstructCanonical (P : Platform) (e : Envelope) : Bytes :=
  if e.peerId.isSome then
    P.buildEnvelopeCanonicalWithPeer (e.payload.getD []) (e.payloadType.getD "")
      (e.nonce.getD "") e.ts (e.alg.getD "") (e.peerId.getD "") e.kemPubkey
  else
    P.buildEnvelopeCanonical (e.payload.getD []) (e.payloadType.getD "") (e.nonce.getD "") e.ts
      (e.alg.getD "") e.kemPubkey

/-- **Both builders encode the content**: the branch taken does not show in the bytes. -/
theorem Platform.reconstructCanonical_eq (P : Platform) (e : Envelope) :
    P.reconstructCanonical e = P.finishEnvelope e.content.canonical := by
  rw [reconstructCanonical]
  cases hpeer : e.peerId with
  | none => simp only [Envelope.content, hpeer]; rfl
  | some peer => simp only [Envelope.content, hpeer]; rfl

end Beemesh

import Beemesh.Crypto.Recipient
import Beemesh.Lib.Text
import Beemesh.Node.Reference

/-!
# Unwrapping a manifest

An apply request carries the base64 of an envelope: a `manifest` envelope with a blob for the node,
or an envelope of another type with the manifest in plain. Of the latter a node takes the text that
it was sent, and not the payload that is inside.

## Main definitions

* `NodePlatform.withCrypto`: a node whose recipient blobs are those of the crypto library
* `CryptoPlatform.RecipientBlob`: a blob that holds a payload for a key
* `Opens`, `Carries`: a text is an envelope, and has a manifest inside
* `Unwraps`: what is returned is what the text carries

## Main results

* `decrypt_eq_ok_iff`: what a blob decrypts to is what it holds
* `recipientBlob_of_encrypt`: what was encrypted for a node is a blob that holds it
* `unwraps_iff`: when a node returns what the text carries
* `plain_manifest_not_unwrapped`: a text of which it returns something else
-/

namespace Beemesh

open Outcome CryptoPlatform

/-- A node with this private key, whose recipient blobs are those of `C`. A panic of the decoder ends
the node, which returns nothing then, either. -/
def NodePlatform.withCrypto (P : NodePlatform) (C : CryptoPlatform) (skBytes : Bytes) :
    NodePlatform :=
  { P with
    kemPrivateKey := .ok skBytes
    decryptPayloadFromRecipientBlob := fun blob key =>
      match C.decryptPayloadFromRecipientBlob blob key with
      | .ok plaintext => .ok plaintext
      | .err e => .error (", ".intercalate e)
      | .panic => .error "panicked" }

/-- The blob holds the payload for the key: the key decapsulates the secret that is wrapped in it,
and this opens the ciphertext. -/
def CryptoPlatform.RecipientBlob (C : CryptoPlatform) (skBytes blob payload : Bytes) : Prop :=
  ∃ wrapped nonce ciphertext shared, Framed blob wrapped nonce ciphertext ∧
    C.decapsulateShare skBytes wrapped = .ok shared ∧ shared.length = 32 ∧ nonce.length = 12 ∧
    C.aesGcmDecrypt shared nonce ciphertext = .ok payload

/-- The text is the base64 of an envelope. -/
def Platform.Opens (P : Platform) (manifestJson : String) (envelope : Envelope) : Prop :=
  ∃ bytes, P.base64Decode manifestJson = .ok bytes ∧ P.rootAsEnvelope bytes = .ok envelope

/-- The bytes of a text. -/
def textBytes (text : String) : Bytes := text.toUTF8.data.toList

/-- The text is an envelope with a manifest: one of the type `manifest` has a blob of it for the
node, any other one has it in plain. -/
def Platform.Carries (P : Platform) (C : CryptoPlatform) (skBytes : Bytes)
    (manifestJson manifest : String) : Prop :=
  ∃ envelope, P.Opens manifestJson envelope ∧
    if envelope.payloadType.getD "" = "manifest" then
      ∃ blob, envelope.payload = some blob ∧ C.RecipientBlob skBytes blob (textBytes manifest)
    else envelope.payload = some (textBytes manifest)

/-- What the text carries is returned, and nothing else. -/
structure Unwraps (P : NodePlatform) (C : CryptoPlatform) (skBytes : Bytes)
    (manifestJson : String) : Prop where
  unwraps : ∀ manifest, P.Carries C skBytes manifestJson manifest →
    (P.withCrypto C skBytes).decryptManifestContent manifestJson = .ok (textBytes manifest)
  only : ∀ content, (P.withCrypto C skBytes).decryptManifestContent manifestJson = .ok content →
    ∃ manifest, content = textBytes manifest ∧ P.Carries C skBytes manifestJson manifest

/-- What base64 decodes is shorter than the text. -/
def Platform.Base64Shortens (P : Platform) : Prop :=
  ∀ text bytes, P.base64Decode text = .ok bytes → 4 * bytes.length ≤ 3 * text.length

/-- FlatBuffers finds the payload in the buffer, behind a header. -/
def Platform.PayloadBehindHeader (P : Platform) : Prop :=
  ∀ bytes envelope payload, P.rootAsEnvelope bytes = .ok envelope →
    envelope.payload = some payload → payload.length < bytes.length

/-! ## Blobs -/

section Blobs

variable {C : CryptoPlatform} {skBytes blob payload : Bytes}

/-- **What a blob decrypts to** is what it holds. -/
theorem decrypt_eq_ok_iff (hlengths : C.AesGcmLengths) :
    C.decryptPayloadFromRecipientBlob blob skBytes = ok payload ↔
      C.RecipientBlob skBytes blob payload := by
  constructor
  · intro h
    simp only [decryptPayloadFromRecipientBlob, Outcome.bind_eq_ok_iff, ofResult_eq_ok_iff,
      mapErr_eq_ok_iff] at h
    obtain ⟨⟨wrapped, nonce, ciphertext⟩, hread, shared, hshared, key, hkey, nonce', hnonce,
      hplain⟩ := h
    obtain ⟨hlength, rfl⟩ := (aesGcmKey_eq_ok_iff hlengths).mp hkey
    obtain ⟨hnonceLength, rfl⟩ := (nonceFromSlice_eq_ok_iff hlengths).mp hnonce
    exact ⟨wrapped, nonce, ciphertext, shared, readBlob_eq_ok_iff.mp hread, hshared, hlength,
      hnonceLength, hplain⟩
  · rintro ⟨wrapped, nonce, ciphertext, shared, hframed, hshared, hlength, hnonce, hplain⟩
    rw [decrypt_of_framed hlengths hframed hshared hlength, hlengths.nonce nonce hnonce, ok_bind,
      hplain]
    rfl

/-- What was encrypted for a key pair is a blob that holds it. -/
theorem recipientBlob_of_encrypt (haes : C.AesGcmRoundTrip) {pubBytes : Bytes}
    (keys : C.KemKeyPair pubBytes skBytes) {seed nonceBytes : Bytes}
    (hnonce : nonceBytes.length = 12) (hfits : C.FieldsFit seed nonceBytes pubBytes payload)
    (hblob : C.encryptPayloadForRecipient seed nonceBytes pubBytes payload = .ok blob) :
    C.RecipientBlob skBytes blob payload := by
  have hdecrypt := (decrypt_encrypt C haes keys hnonce hfits hblob).1 []
  rw [List.append_nil] at hdecrypt
  exact (decrypt_eq_ok_iff haes.toAesGcmLengths).mp hdecrypt

/-- A blob begins with its version. -/
theorem head?_of_recipientBlob (h : C.RecipientBlob skBytes blob payload) :
    blob.head? = some 0x02 := by
  obtain ⟨wrapped, nonce, ciphertext, shared, ⟨_, _, _, _, rfl, -⟩, -⟩ := h
  rfl

end Blobs

/-! ## Texts -/

section Texts

variable {P : NodePlatform} {C : CryptoPlatform} {skBytes blob content : Bytes}

theorem isSome_fromUTF8?_iff {bytes : Bytes} :
    (String.fromUTF8? ⟨⟨bytes⟩⟩).isSome = true ↔ ∃ text, bytes = textBytes text := by
  rw [String.fromUTF8?]
  split_ifs with hvalid
  · refine iff_of_true rfl ⟨.ofByteArray _ hvalid, ?_⟩
    rfl
  · refine iff_of_false (by simp) ?_
    rintro ⟨text, rfl⟩
    exact hvalid text.isValidUTF8

/-- What a node decrypts of a blob is a text that it holds. -/
theorem decryptManifestFromEnvelope_eq_ok_iff (hlengths : C.AesGcmLengths) :
    (P.withCrypto C skBytes).decryptManifestFromEnvelope blob = .ok content ↔
      ∃ manifest, content = textBytes manifest ∧
        C.RecipientBlob skBytes blob (textBytes manifest) := by
  have hdecrypts {plaintext : Bytes} :
      (P.withCrypto C skBytes).decryptPayloadFromRecipientBlob blob skBytes = .ok plaintext ↔
        C.RecipientBlob skBytes blob plaintext := by
    rw [← decrypt_eq_ok_iff hlengths, NodePlatform.withCrypto]
    dsimp only
    cases C.decryptPayloadFromRecipientBlob blob skBytes <;> simp
  rw [NodePlatform.decryptManifestFromEnvelope]
  have hkey : (P.withCrypto C skBytes).kemPrivateKey = .ok skBytes := rfl
  rw [hkey]
  dsimp only
  constructor
  · intro h
    split_ifs at h
    cases hplain : (P.withCrypto C skBytes).decryptPayloadFromRecipientBlob blob skBytes with
    | error e =>
      rw [hplain] at h
      cases h
    | ok plaintext =>
      rw [hplain] at h
      dsimp only at h
      split_ifs at h with htext
      obtain rfl := Except.ok.inj h
      obtain ⟨manifest, rfl⟩ := isSome_fromUTF8?_iff.mp htext
      exact ⟨manifest, rfl, hdecrypts.mp hplain⟩
  · rintro ⟨manifest, rfl, hblob⟩
    -- The version is checked before, and the text afterwards.
    rw [if_neg (by simp [head?_of_recipientBlob hblob]), hdecrypts.mpr hblob]
    dsimp only
    rw [if_pos (isSome_fromUTF8?_iff.mpr ⟨manifest, rfl⟩)]

variable {manifestJson : String} {envelope envelope' : Envelope}

theorem Platform.Opens.unique {P : Platform} (h : P.Opens manifestJson envelope)
    (h' : P.Opens manifestJson envelope') : envelope = envelope' := by
  obtain ⟨bytes, hbytes, henvelope⟩ := h
  obtain ⟨bytes', hbytes', henvelope'⟩ := h'
  obtain rfl := Except.ok.inj (hbytes.symm.trans hbytes')
  exact Except.ok.inj (henvelope.symm.trans henvelope')

/-- What is returned of a text that is an envelope. -/
theorem decryptManifestContent_of_opens (h : P.Opens manifestJson envelope) :
    (P.withCrypto C skBytes).decryptManifestContent manifestJson = .ok content ↔
      if envelope.payloadType.getD "" = "manifest" then
        ∃ blob, envelope.payload = some blob ∧
          (P.withCrypto C skBytes).decryptManifestFromEnvelope blob = .ok content
      else content = textBytes manifestJson := by
  obtain ⟨bytes, hbytes, henvelope⟩ := h
  have hbytes' : (P.withCrypto C skBytes).base64Decode manifestJson = .ok bytes := hbytes
  have henvelope' : (P.withCrypto C skBytes).rootAsEnvelope bytes = .ok envelope := henvelope
  rw [NodePlatform.decryptManifestContent, hbytes']
  simp only [bind, Except.bind, henvelope']
  split_ifs
  · cases envelope.payload with
    | none => simp
    | some blob =>
      cases hcontent : (P.withCrypto C skBytes).decryptManifestFromEnvelope blob with
      | error e => simp [hcontent]
      | ok content' => simp [hcontent]
  · rw [Except.ok.injEq, eq_comm]
    rfl

/-- A text of which something is returned is an envelope. -/
theorem opens_of_decryptManifestContent
    (h : (P.withCrypto C skBytes).decryptManifestContent manifestJson = .ok content) :
    ∃ envelope, P.Opens manifestJson envelope := by
  rw [NodePlatform.decryptManifestContent] at h
  obtain ⟨bytes, hbytes, h⟩ := Beemesh.bind_eq_ok_iff.mp h
  obtain ⟨envelope, henvelope, -⟩ := Beemesh.bind_eq_ok_iff.mp h
  exact ⟨envelope, bytes, hbytes, henvelope⟩

/-- The text of an envelope is longer than its payload. -/
theorem payload_ne_textBytes (hshorter : P.Base64Shortens) (hheader : P.PayloadBehindHeader)
    (h : P.Opens manifestJson envelope) : envelope.payload ≠ some (textBytes manifestJson) := by
  intro hpayload
  obtain ⟨bytes, hbytes, henvelope⟩ := h
  have hdecoded := hshorter manifestJson bytes hbytes
  have hinside := hheader bytes envelope _ henvelope hpayload
  have hsize : manifestJson.length ≤ (textBytes manifestJson).length :=
    Text.length_le_toUTF8 manifestJson
  omega

/-- **When a node returns what the text carries**: unless it is an envelope that is not of the type
`manifest`. -/
theorem unwraps_iff (P : NodePlatform) (C : CryptoPlatform) (skBytes : Bytes)
    (hlengths : C.AesGcmLengths) (hshorter : P.Base64Shortens) (hheader : P.PayloadBehindHeader)
    (manifestJson : String) :
    Unwraps P C skBytes manifestJson ↔
      ∀ envelope, P.Opens manifestJson envelope → envelope.payloadType.getD "" = "manifest" := by
  constructor
  · intro h envelope hopens
    by_contra htype
    -- The text itself is returned, and would have to be the payload.
    have hcontent : (P.withCrypto C skBytes).decryptManifestContent manifestJson =
        .ok (textBytes manifestJson) :=
      (decryptManifestContent_of_opens hopens).mpr (by rw [if_neg htype])
    obtain ⟨manifest, hmanifest, envelope', hopens', hcarried⟩ := h.only _ hcontent
    obtain rfl := hopens.unique hopens'
    rw [if_neg htype, ← hmanifest] at hcarried
    exact payload_ne_textBytes hshorter hheader hopens hcarried
  · intro h
    refine ⟨?_, ?_⟩
    · rintro manifest ⟨envelope, hopens, hcarried⟩
      have htype := h envelope hopens
      rw [if_pos htype] at hcarried
      obtain ⟨blob, hpayload, hblob⟩ := hcarried
      rw [decryptManifestContent_of_opens hopens, if_pos htype]
      exact ⟨blob, hpayload,
        (decryptManifestFromEnvelope_eq_ok_iff hlengths).mpr ⟨manifest, rfl, hblob⟩⟩
    · intro content hcontent
      obtain ⟨envelope, hopens⟩ := opens_of_decryptManifestContent hcontent
      have htype := h envelope hopens
      rw [decryptManifestContent_of_opens hopens, if_pos htype] at hcontent
      obtain ⟨blob, hpayload, hdecrypt⟩ := hcontent
      obtain ⟨manifest, rfl, hblob⟩ := (decryptManifestFromEnvelope_eq_ok_iff hlengths).mp hdecrypt
      exact ⟨manifest, rfl, envelope, hopens, by rw [if_pos htype]; exact ⟨blob, hpayload, hblob⟩⟩

end Texts

/-! ## On a reference node -/

theorem trusting_base64Shortens : trusting.Base64Shortens := by
  intro text bytes h
  have hdecode : Base64.decode text = some bytes := readOr_eq_ok_iff.mp h
  rw [← String.length_toList]
  exact Base64.length_decodeChars hdecode

theorem trusting_payloadBehindHeader : trusting.PayloadBehindHeader := by
  intro bytes envelope payload henvelope hpayload
  have hread : envelopeCodec.read bytes = some envelope := readOr_eq_ok_iff.mp henvelope
  exact length_payload_lt hread hpayload

/-- An envelope of a type, with a payload. -/
def wrapping (payloadType : String) (payload : Bytes) : Envelope :=
  Platform.envelopeArgs payload payloadType "" 0 "ml-kem-512" "" "" none ""

theorem trusting_opens (e : Envelope) :
    trusting.Opens (Base64.encode (envelopeCodec.write e)) e :=
  ⟨_, referencePlatform_base64RoundTrip _ _, referencePlatform_envelopeRoundTrip _ e⟩

/-- A manifest envelope is unwrapped. -/
theorem unwraps_manifest :
    Unwraps trusting (referenceCrypto (referencePlatform fun _ _ => true)) referenceKemKey
      (Base64.encode (envelopeCodec.write
        (wrapping "manifest" (referenceBlob (textBytes "kind: Pod"))))) := by
  refine (unwraps_iff trusting _ _ (referenceCrypto_aesGcmLengths _) trusting_base64Shortens
    trusting_payloadBehindHeader _).mpr ?_
  intro envelope hopens
  rw [hopens.unique (trusting_opens _)]
  rfl

/-- **A plain manifest is not unwrapped**: the base64 of its envelope is returned in its place. -/
theorem plain_manifest_not_unwrapped :
    ¬ ∀ (P : NodePlatform) (C : CryptoPlatform) (skBytes : Bytes) (manifestJson : String),
      C.AesGcmLengths → P.Base64Shortens → P.PayloadBehindHeader →
        Unwraps P C skBytes manifestJson := by
  intro h
  let envelope := wrapping "text" (textBytes "kind: Pod")
  let manifestJson := Base64.encode (envelopeCodec.write envelope)
  let C := referenceCrypto (referencePlatform fun _ _ => true)
  have hopens : trusting.Opens manifestJson envelope := trusting_opens envelope
  have htype : ¬ envelope.payloadType.getD "" = "manifest" := by decide
  have hunwraps := h trusting C referenceKemKey manifestJson (referenceCrypto_aesGcmLengths _)
    trusting_base64Shortens trusting_payloadBehindHeader
  have hreturned := hunwraps.unwraps "kind: Pod" ⟨envelope, hopens, by rw [if_neg htype]; rfl⟩
  rw [decryptManifestContent_of_opens hopens, if_neg htype] at hreturned
  exact payload_ne_textBytes trusting_base64Shortens trusting_payloadBehindHeader hopens
    (congrArg some hreturned)

end Beemesh

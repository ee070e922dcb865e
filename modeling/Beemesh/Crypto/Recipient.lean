import Beemesh.Crypto.Blob

/-!
# Recipient blobs, there and back

What was encrypted for a recipient decrypts to the payload with the recipient's private key,
whatever follows the blob; and no part of a blob that ends too early is taken for a blob. The
lengths in a blob are cut to their fields, so both are for payloads and wrapped keys that fit.

## Main definitions

* `CryptoPlatform.KemKeyPair`, `CryptoPlatform.AesGcmRoundTrip`: what the libraries promise
* `CryptoPlatform.FieldsFit`: the fields of a blob are as short as their lengths can tell

## Main results

* `decrypt_encrypt`: a blob decrypts to its payload, and what ends before it does is rejected
-/

namespace Beemesh

open Outcome Wire CryptoPlatform

/-! ## Blobs and what follows them -/

section Framed

variable {blob wrapped nonce ciphertext : Bytes}

/-- A blob stays framed when more bytes follow. -/
theorem Framed.append (h : Framed blob wrapped nonce ciphertext) (more : Bytes) :
    Framed (blob ++ more) wrapped nonce ciphertext := by
  obtain ⟨afterVersion, afterWrapped, afterNonce, rest, rfl, hwrapped, hnonce, hciphertext⟩ := h
  exact ⟨_, _, _, _, rfl, hwrapped.append more, hnonce.append more, hciphertext.append more⟩

/-- A framed blob is no shorter than its fields. -/
theorem Framed.length_le (h : Framed blob wrapped nonce ciphertext) :
    1 + (2 + wrapped.length + (1 + nonce.length + (4 + ciphertext.length))) ≤ blob.length := by
  obtain ⟨afterVersion, afterWrapped, afterNonce, rest, rfl, hwrapped, hnonce, hciphertext⟩ := h
  have hlength := hwrapped.length_eq
  have hlength' := hnonce.length_eq
  have hlength'' := hciphertext.length_eq
  rw [List.length_cons]
  omega

theorem length_writeBlob (wrapped nonce ciphertext : Bytes) :
    (writeBlob wrapped nonce ciphertext).length =
      1 + (2 + wrapped.length + (1 + nonce.length + (4 + ciphertext.length))) := by
  simp only [writeBlob, List.length_cons, List.length_append, length_toBe]
  omega

/-- **What ends before the blob does is no blob**: the decoder rejects it. -/
theorem readBlob_prefix {front : Bytes} (hfields : Framed (writeBlob wrapped nonce ciphertext)
    wrapped nonce ciphertext) (hfront : front <+: writeBlob wrapped nonce ciphertext)
    (hne : front ≠ writeBlob wrapped nonce ciphertext) : ∃ e, readBlob front = err e := by
  cases hread : readBlob front with
  | err e => exact ⟨e, rfl⟩
  | panic => exact absurd hread (readBlob_ne_panic front)
  | ok fields =>
    obtain ⟨wrapped', nonce', ciphertext'⟩ := fields
    obtain ⟨more, hmore⟩ := hfront
    have hframed : Framed front wrapped' nonce' ciphertext' := readBlob_eq_ok_iff.mp hread
    -- The fields would be those of the whole, which is longer.
    obtain ⟨rfl, rfl, rfl⟩ := (hmore ▸ hframed.append more).unique hfields
    have hlength := congrArg List.length hmore
    rw [List.length_append, length_writeBlob] at hlength
    have hle := hframed.length_le
    have hnil : more = [] := List.eq_nil_of_length_eq_zero (by omega)
    rw [hnil, List.append_nil] at hmore
    exact absurd hmore hne

end Framed

/-! ## Round trip -/

/-- The two halves of a KEM key pair: what is encapsulated for one, the other decapsulates. -/
structure CryptoPlatform.KemKeyPair (P : CryptoPlatform) (pubBytes skBytes : Bytes) where
  pubk : P.KemPublicKey
  privk : P.KemSecretKey
  pubBytes_eq : P.kemPublicKeyFromBytes pubBytes = .ok pubk
  skBytes_eq : P.kemSecretKeyFromBytes skBytes = .ok privk
  decapsulates : ∀ seed shared ct, P.encapsulate seed pubk = .ok (shared, ct) →
    P.kemCiphertextFromBytes (P.kemCiphertextToBytes ct) = .ok ct ∧
      P.decapsulate privk ct = .ok shared

/-- What was sealed under a key and a nonce, of the lengths that are taken, opens under them. -/
structure CryptoPlatform.AesGcmRoundTrip (P : CryptoPlatform) : Prop extends P.AesGcmLengths where
  opens : ∀ key nonce plain ciphertext, P.aesGcmEncrypt key nonce plain = .ok ciphertext →
    P.aesGcmDecrypt key nonce ciphertext = .ok plain

/-- The wrapped key and the ciphertext of a payload are as short as their lengths can tell. -/
def CryptoPlatform.FieldsFit (P : CryptoPlatform) (seed nonceBytes recipientPub payload : Bytes) :
    Prop :=
  ∀ wrappedCt sharedSecret ciphertext,
    P.encapsulateToPubkey seed recipientPub = .ok (wrappedCt, sharedSecret) →
    P.aesGcmEncrypt sharedSecret nonceBytes payload = .ok ciphertext →
    wrappedCt.length < 2 ^ 16 ∧ ciphertext.length < 2 ^ 32

variable {P : CryptoPlatform} {pubBytes skBytes : Bytes}

/-- What was wrapped for a key pair is unwrapped with it. -/
theorem decapsulateShare_encapsulateToPubkey (keys : P.KemKeyPair pubBytes skBytes)
    {seed wrappedCt sharedSecret : Bytes}
    (h : P.encapsulateToPubkey seed pubBytes = .ok (wrappedCt, sharedSecret)) :
    P.decapsulateShare skBytes wrappedCt = .ok sharedSecret := by
  simp only [encapsulateToPubkey, Beemesh.bind_eq_ok_iff, anyhow_eq_ok_iff] at h
  obtain ⟨u, hinit, pubk, hpubk, ⟨shared, ct⟩, hencapsulate, hresult⟩ := h
  obtain rfl := Except.ok.inj (hpubk.symm.trans keys.pubBytes_eq)
  obtain ⟨rfl, rfl⟩ := Prod.mk.inj (Except.ok.inj hresult)
  obtain ⟨hbytes, hdecapsulate⟩ := keys.decapsulates seed shared ct hencapsulate
  simp only [decapsulateShare, Beemesh.bind_eq_ok_iff, anyhow_eq_ok_iff, mapErr_eq_ok_iff]
  exact ⟨u, hinit, keys.privk, keys.skBytes_eq, ct, hbytes, hdecapsulate⟩

/-- **A blob decrypts to its payload**, for every payload and recipient whose fields fit, whatever
bytes follow it; and the decoder rejects, without a panic, whatever ends before the blob does. -/
theorem decrypt_encrypt (P : CryptoPlatform) (haes : P.AesGcmRoundTrip) {pubBytes skBytes : Bytes}
    (keys : P.KemKeyPair pubBytes skBytes) {seed nonceBytes payload blob : Bytes}
    (hnonce : nonceBytes.length = 12)
    (hfits : P.FieldsFit seed nonceBytes pubBytes payload)
    (hblob : P.encryptPayloadForRecipient seed nonceBytes pubBytes payload = .ok blob) :
    (∀ more, P.decryptPayloadFromRecipientBlob (blob ++ more) skBytes = ok payload) ∧
      ∀ front, front <+: blob → front ≠ blob →
        ∃ e, P.decryptPayloadFromRecipientBlob front skBytes = err e := by
  simp only [encryptPayloadForRecipient, Beemesh.bind_eq_ok_iff, mapErr_eq_ok_iff] at hblob
  obtain ⟨⟨wrappedCt, sharedSecret⟩, hwrapped, key, hkey, ciphertext, hencrypt, hwritten⟩ := hblob
  obtain rfl := Except.ok.inj hwritten
  -- The key is the secret itself, of 32 bytes.
  obtain ⟨hlength, rfl⟩ := (aesGcmKey_eq_ok_iff haes.toAesGcmLengths).mp hkey
  obtain ⟨hwlen, hclen⟩ := hfits _ _ _ hwrapped hencrypt
  have hframed : Framed (writeBlob wrappedCt nonceBytes ciphertext) wrappedCt nonceBytes
      ciphertext :=
    framed_writeBlob hwlen (by rw [hnonce]; decide) hclen
  refine ⟨fun more => ?_, fun front hfront hne => ?_⟩
  · rw [decrypt_of_framed haes.toAesGcmLengths (hframed.append more)
      (decapsulateShare_encapsulateToPubkey keys hwrapped) hlength, haes.nonce _ hnonce,
      ok_bind, haes.opens _ _ _ _ hencrypt]
    rfl
  · obtain ⟨e, hread⟩ := readBlob_prefix hframed hfront hne
    exact ⟨e, by rw [decryptPayloadFromRecipientBlob, hread, err_bind]⟩

/-! ## On a reference platform -/

/-- A key pair of the right sizes. -/
def referenceKemKeys (P : Platform) {pubBytes skBytes : Bytes} (hpub : pubBytes.length = 800)
    (hsk : skBytes.length = 1632) : (referenceCrypto P).KemKeyPair pubBytes skBytes where
  pubk := ⟨pubBytes, hpub⟩
  privk := ⟨skBytes, hsk⟩
  pubBytes_eq := sizedFromBytes_eq hpub
  skBytes_eq := sizedFromBytes_eq hsk
  decapsulates := by
    rintro seed shared ct h
    -- The secret is the head of the ciphertext on both sides.
    change (sizedFromBytes 768 seed).map _ = _ at h
    refine ⟨sizedFromBytes_eq ct.2, ?_⟩
    cases hct : sizedFromBytes 768 seed with
    | error e =>
      rw [hct] at h
      exact nomatch h
    | ok ct' =>
      rw [hct] at h
      obtain ⟨rfl, rfl⟩ := Prod.mk.inj (Except.ok.inj h)
      rfl

theorem referenceCrypto_aesGcmRoundTrip (P : Platform) :
    (referenceCrypto P).AesGcmRoundTrip where
  toAesGcmLengths := referenceCrypto_aesGcmLengths P
  opens := by
    rintro key nonce plain ciphertext ⟨⟩
    simp [referenceCrypto]

/-- A payload of two bytes. -/
theorem decrypt_encrypt_reference :
    let P := referenceCrypto (referencePlatform fun _ _ => true)
    ∃ blob, P.encryptPayloadForRecipient (.replicate 768 0) (.replicate 12 0) (.replicate 800 0)
        [1, 2] = .ok blob ∧
      (∀ more, P.decryptPayloadFromRecipientBlob (blob ++ more) referenceKemKey = ok [1, 2]) ∧
      ∀ front, front <+: blob → front ≠ blob →
        ∃ e, P.decryptPayloadFromRecipientBlob front referenceKemKey = err e := by
  intro P
  have hseed : (List.replicate 768 (0 : UInt8)).length = 768 := List.length_replicate
  have hnonce : (List.replicate 12 (0 : UInt8)).length = 12 := List.length_replicate
  have hpub : (List.replicate 800 (0 : UInt8)).length = 800 := List.length_replicate
  have hsk : referenceKemKey.length = 1632 := List.length_replicate
  have hblob := referenceCrypto_encryptPayload (P := referencePlatform fun _ _ => true) rfl hseed
    hpub (.replicate 12 0) [1, 2]
  refine ⟨_, hblob, decrypt_encrypt P (referenceCrypto_aesGcmRoundTrip _)
    (referenceKemKeys _ hpub hsk) hnonce ?_ hblob⟩
  rintro wrappedCt sharedSecret ciphertext hwrapped hciphertext
  rw [referenceCrypto_encapsulateToPubkey (P := referencePlatform fun _ _ => true) rfl hseed
    hpub] at hwrapped
  obtain ⟨rfl, rfl⟩ := Prod.mk.inj (Except.ok.inj hwrapped)
  obtain rfl := Except.ok.inj hciphertext
  refine ⟨by rw [hseed]; decide, ?_⟩
  simp only [List.length_append, List.length_take, hseed, hnonce]
  decide

end Beemesh

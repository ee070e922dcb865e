import Beemesh.Envelope.Reference
import Beemesh.Lib.Wire

/-!
# Recipient blobs

A payload for one recipient: a key wrapped for the recipient's KEM key, a nonce and the ciphertext,
each behind its length. The decoder of `crypto/src/lib.rs` takes a blob apart with a cursor, every
step checked; what is not checked is that the nonce has the length AES-GCM takes. ML-KEM and AES-GCM
are not part of the repository, and `CryptoPlatform` lists what the code calls of them.

## Main definitions

* `CryptoPlatform`: the external operations
* `decapsulateShare`, `encryptPayloadForRecipient`, `decryptPayloadFromRecipientBlob`
* `Framed`: the format of a blob

## Main results

* `readBlob_eq_ok_iff`, `readBlob_ne_panic`: the decoder reads exactly the framed blobs, and its
  slices are in range
* `decrypt_ne_panic_iff`: when the decoder does not panic
-/

namespace Beemesh

open Outcome Wire

/-- The operations of ML-KEM and AES-GCM, besides those of the envelope. -/
structure CryptoPlatform extends Platform where
  KemPublicKey : Type
  KemSecretKey : Type
  KemCiphertext : Type
  kemPublicKeyFromBytes : Bytes → Except String KemPublicKey
  kemSecretKeyFromBytes : Bytes → Except String KemSecretKey
  kemCiphertextFromBytes : Bytes → Except String KemCiphertext
  kemCiphertextToBytes : KemCiphertext → Bytes
  /-- The shared secret and its ciphertext, from the randomness it draws. -/
  encapsulate : Bytes → KemPublicKey → Except String (Bytes × KemCiphertext)
  decapsulate : KemSecretKey → KemCiphertext → Except String Bytes
  /-- `KeyInit::new_from_slice`. -/
  aesGcmKey : Bytes → Except String Bytes
  /-- `Nonce::from_slice`. -/
  nonceFromSlice : Bytes → Outcome AnyhowError Bytes
  /-- `Aead::encrypt`, of a key and a nonce. -/
  aesGcmEncrypt : Bytes → Bytes → Bytes → Except String Bytes
  /-- `Aead::decrypt`, of a key and a nonce. -/
  aesGcmDecrypt : Bytes → Bytes → Bytes → Except String Bytes

namespace CryptoPlatform

variable (P : CryptoPlatform)

/-! ## The operations -/

/-- `encapsulate_to_pubkey`: the ciphertext and the shared secret. -/
def encapsulateToPubkey (seed pubBytes : Bytes) : Except AnyhowError (Bytes × Bytes) := do
  anyhow P.ensurePqcInit
  let pubk ← anyhow (P.kemPublicKeyFromBytes pubBytes)
  let (shared, ct) ← anyhow (P.encapsulate seed pubk)
  return (P.kemCiphertextToBytes ct, shared)

/-- `decapsulate_share`. -/
def decapsulateShare (privBytes ciphertext : Bytes) : Except AnyhowError Bytes := do
  anyhow P.ensurePqcInit
  let privk ← anyhow (P.kemSecretKeyFromBytes privBytes)
  let ct ← mapErr ("invalid ciphertext bytes: " ++ ·) (P.kemCiphertextFromBytes ciphertext)
  anyhow (P.decapsulate privk ct)

/-- The blob of three fields. The lengths are cut to the width of theirs. -/
def writeBlob (wrapped nonce ciphertext : Bytes) : Bytes :=
  0x02 :: (toBe 2 wrapped.length ++ (wrapped ++ (toBe 1 nonce.length ++ (nonce ++
    (toBe 4 ciphertext.length ++ ciphertext)))))

/-- `encrypt_payload_for_recipient`, with the randomness it draws. -/
def encryptPayloadForRecipient (seed nonceBytes recipientPub payload : Bytes) :
    Except AnyhowError Bytes := do
  let (wrappedCt, sharedSecret) ← P.encapsulateToPubkey seed recipientPub
  let key ← mapErr ("invalid key length for AES-GCM: " ++ ·) (P.aesGcmKey sharedSecret)
  let ciphertext ← mapErr ("aes-gcm encrypt error: " ++ ·) (P.aesGcmEncrypt key nonceBytes payload)
  return writeBlob wrappedCt nonceBytes ciphertext

/-- `blob.is_empty() || blob[0] != 0x02`. -/
def unsupportedVersion (blob : Bytes) : Outcome AnyhowError Bool :=
  if blob = [] then ok true
  else do
    let version ← index blob 0
    return version != 0x02

/-- The decoder up to the ciphertext: the wrapped key, the nonce and the ciphertext. -/
def readBlob (blob : Bytes) : Outcome AnyhowError (Bytes × Bytes × Bytes) := do
  let unsupported ← unsupportedVersion blob
  require (¬ unsupported = true) ["unsupported recipient-blob version"]
  let (wrapped, idx) ← prefixedField 2 ["blob too short"] ["blob too short for wrapped"] blob 1
  let (nonce, idx) ←
    prefixedField 1 ["blob too short for nonce len"] ["blob too short for nonce"] blob idx
  let (ciphertext, _) ←
    prefixedField 4 ["blob too short for ct len"] ["blob too short for ciphertext"] blob idx
  return (wrapped, nonce, ciphertext)

/-- `decrypt_payload_from_recipient_blob`. -/
def decryptPayloadFromRecipientBlob (blob privKemBytes : Bytes) : Outcome AnyhowError Bytes := do
  let (wrapped, nonce, ciphertext) ← readBlob blob
  let shared ← ofResult (P.decapsulateShare privKemBytes wrapped)
  let key ← ofResult (mapErr ("aes key error: " ++ ·) (P.aesGcmKey shared))
  -- The length of the nonce is whatever the blob says.
  let nonce ← P.nonceFromSlice nonce
  ofResult (mapErr ("aes-gcm decrypt error: " ++ ·) (P.aesGcmDecrypt key nonce ciphertext))

end CryptoPlatform

open CryptoPlatform

/-! ## The format -/

/-- A blob with these fields, and anything after them. -/
def Framed (blob wrapped nonce ciphertext : Bytes) : Prop :=
  ∃ afterVersion afterWrapped afterNonce rest, blob = 0x02 :: afterVersion ∧
    Prefixed 2 afterVersion wrapped afterWrapped ∧ Prefixed 1 afterWrapped nonce afterNonce ∧
    Prefixed 4 afterNonce ciphertext rest

theorem unsupportedVersion_eq_ok_false_iff {blob : Bytes} :
    unsupportedVersion blob = ok false ↔ ∃ rest, blob = 0x02 :: rest := by
  cases blob with
  | nil => simp [unsupportedVersion]
  | cons b rest => simp [unsupportedVersion, index]

theorem unsupportedVersion_ne_panic (blob : Bytes) : unsupportedVersion blob ≠ panic := by
  cases blob with
  | nil => simp [unsupportedVersion]
  | cons b rest => simp [unsupportedVersion, index]

section Cursor

variable {blob wrapped nonce : Bytes} {idx idx' : ℕ} {e e' : AnyhowError}

/-- Where the cursor can stand after the wrapped key. -/
theorem cursor_wrapped (h : prefixedField 2 e e' blob 1 = ok (wrapped, idx)) :
    idx < 1 + 2 + 256 ^ 2 ∧ idx ≤ blob.length := by
  obtain ⟨hprefixed, hidx, hle⟩ := (prefixedField_eq_ok_iff (by decide)).mp h
  have hlength := hprefixed.length_lt
  exact ⟨by omega, hle⟩

/-- Where the cursor can stand after the nonce. -/
theorem cursor_nonce (hidx : idx < 1 + 2 + 256 ^ 2)
    (h : prefixedField 1 e e' blob idx = ok (nonce, idx')) :
    idx' < 1 + 2 + 256 ^ 2 + 1 + 256 ∧ idx' ≤ blob.length := by
  obtain ⟨hprefixed, hidx', hle'⟩ := (prefixedField_eq_ok_iff (by omega)).mp h
  have hlength := hprefixed.length_lt
  exact ⟨by omega, hle'⟩

end Cursor

/-- **The decoder reads exactly the framed blobs.** -/
theorem readBlob_eq_ok_iff {blob wrapped nonce ciphertext : Bytes} :
    readBlob blob = ok (wrapped, nonce, ciphertext) ↔ Framed blob wrapped nonce ciphertext := by
  simp only [readBlob, Outcome.bind_eq_ok_iff, require_eq_ok_iff, exists_and_left,
    exists_const, Prod.exists]
  constructor
  · rintro ⟨unsupported, hversion, hsupported, w, idx, hwrapped, n, idx', hnonce, c, stop, hct,
      hfields⟩
    obtain ⟨rfl, rfl, rfl⟩ : w = wrapped ∧ n = nonce ∧ c = ciphertext := by simpa using hfields
    obtain rfl : unsupported = false := by simpa using hsupported
    obtain ⟨rest, rfl⟩ := unsupportedVersion_eq_ok_false_iff.mp hversion
    obtain ⟨hidx, hle⟩ := cursor_wrapped hwrapped
    obtain ⟨hidx', hle'⟩ := cursor_nonce hidx hnonce
    exact ⟨_, _, _, _, rfl, ((prefixedField_eq_ok_iff (by decide)).mp hwrapped).1,
      ((prefixedField_eq_ok_iff (by omega)).mp hnonce).1,
      ((prefixedField_eq_ok_iff (by omega)).mp hct).1⟩
  · rintro ⟨afterVersion, afterWrapped, afterNonce, rest, rfl, hwrapped, hnonce, hct⟩
    have hwlen := hwrapped.length_lt
    have hnlen := hnonce.length_lt
    obtain ⟨idx, hreadWrapped, hidx, hle, hdrop⟩ :=
      prefixedField_of_prefixed 1 (0x02 :: afterVersion) (by decide) (by simp) hwrapped
    obtain ⟨idx', hreadNonce, hidx', hle', hdrop'⟩ :=
      prefixedField_of_prefixed idx (0x02 :: afterVersion) (by omega) hle (hdrop.symm ▸ hnonce)
    obtain ⟨stop, hreadCt, -, -, -⟩ :=
      prefixedField_of_prefixed idx' (0x02 :: afterVersion) (by omega) hle' (hdrop'.symm ▸ hct)
    exact ⟨false, unsupportedVersion_eq_ok_false_iff.mpr ⟨_, rfl⟩, by simp, _, _, hreadWrapped, _,
      _, hreadNonce, _, _, hreadCt, rfl⟩

/-- A blob has one set of fields. -/
theorem Framed.unique {blob wrapped nonce ciphertext wrapped' nonce' ciphertext' : Bytes}
    (h : Framed blob wrapped nonce ciphertext) (h' : Framed blob wrapped' nonce' ciphertext') :
    wrapped = wrapped' ∧ nonce = nonce' ∧ ciphertext = ciphertext' := by
  have hread := (readBlob_eq_ok_iff.mpr h).symm.trans (readBlob_eq_ok_iff.mpr h')
  simpa using hread

/-- What is written with lengths that fit is framed. -/
theorem framed_writeBlob {wrapped nonce ciphertext : Bytes} (hwrapped : wrapped.length < 256 ^ 2)
    (hnonce : nonce.length < 256 ^ 1) (hciphertext : ciphertext.length < 256 ^ 4) :
    Framed (writeBlob wrapped nonce ciphertext) wrapped nonce ciphertext := by
  have hlast := prefixed_toBe hciphertext []
  rw [List.append_nil] at hlast
  exact ⟨_, _, _, _, rfl, prefixed_toBe hwrapped _, prefixed_toBe hnonce _, hlast⟩

/-- No length that a blob can claim takes the decoder out of range. -/
theorem readBlob_ne_panic (blob : Bytes) : readBlob blob ≠ panic := by
  intro h
  simp only [readBlob, Outcome.bind_eq_panic_iff, require_eq_ok_iff, require_ne_panic,
    unsupportedVersion_ne_panic, false_or, exists_and_left, exists_const, Prod.exists] at h
  obtain ⟨unsupported, hversion, hsupported, h⟩ := h
  obtain rfl : unsupported = false := by simpa using hsupported
  obtain ⟨rest, rfl⟩ := unsupportedVersion_eq_ok_false_iff.mp hversion
  rcases h with h | ⟨wrapped, idx, hwrapped, h | ⟨nonce, idx', hnonce, h | ⟨_, _, -, h⟩⟩⟩
  · exact prefixedField_ne_panic (by decide) h
  · obtain ⟨hidx, hle⟩ := cursor_wrapped hwrapped
    exact prefixedField_ne_panic (by omega) h
  · obtain ⟨hidx, hle⟩ := cursor_wrapped hwrapped
    obtain ⟨hidx', hle'⟩ := cursor_nonce hidx hnonce
    exact prefixedField_ne_panic (by omega) h
  · simp at h

/-! ## Panics -/

/-- AES-256-GCM takes keys of 32 bytes and nonces of 12; another nonce is a panic. -/
structure CryptoPlatform.AesGcmLengths (P : CryptoPlatform) : Prop where
  key : ∀ bytes, bytes.length = 32 → P.aesGcmKey bytes = .ok bytes
  key_ne : ∀ bytes, bytes.length ≠ 32 → ∃ e, P.aesGcmKey bytes = .error e
  nonce : ∀ bytes, bytes.length = 12 → P.nonceFromSlice bytes = ok bytes
  nonce_ne : ∀ bytes, bytes.length ≠ 12 → P.nonceFromSlice bytes = panic

section Lengths

variable {P : CryptoPlatform} (hlengths : P.AesGcmLengths)

include hlengths

theorem aesGcmKey_eq_ok_iff {bytes key : Bytes} :
    P.aesGcmKey bytes = .ok key ↔ bytes.length = 32 ∧ bytes = key := by
  constructor
  · intro h
    by_cases hlength : bytes.length = 32
    · exact ⟨hlength, Except.ok.inj ((hlengths.key bytes hlength).symm.trans h)⟩
    · obtain ⟨e, he⟩ := hlengths.key_ne bytes hlength
      exact nomatch he.symm.trans h
  · rintro ⟨hlength, rfl⟩
    exact hlengths.key bytes hlength

theorem nonceFromSlice_eq_ok_iff {bytes nonce : Bytes} :
    P.nonceFromSlice bytes = ok nonce ↔ bytes.length = 12 ∧ bytes = nonce := by
  constructor
  · intro h
    by_cases hlength : bytes.length = 12
    · exact ⟨hlength, Outcome.ok.inj ((hlengths.nonce bytes hlength).symm.trans h)⟩
    · exact nomatch (hlengths.nonce_ne bytes hlength).symm.trans h
  · rintro ⟨hlength, rfl⟩
    exact hlengths.nonce bytes hlength

end Lengths

/-- ML-KEM decapsulates every well-formed ciphertext, to a secret of 32 bytes. -/
def CryptoPlatform.Decapsulates (P : CryptoPlatform) : Prop :=
  ∀ sk ct, ∃ shared, P.decapsulate sk ct = .ok shared ∧ shared.length = 32

/-- The library reads both the private key and the wrapped key. -/
def CryptoPlatform.ReadsKeys (P : CryptoPlatform) (privBytes wrapped : Bytes) : Prop :=
  P.ensurePqcInit = .ok () ∧ (∃ sk, P.kemSecretKeyFromBytes privBytes = .ok sk) ∧
    ∃ ct, P.kemCiphertextFromBytes wrapped = .ok ct

/-- The wrapped key is unwrapped once the keys are read, and to 32 bytes. -/
theorem decapsulateShare_eq_ok_iff {P : CryptoPlatform} (hdecaps : P.Decapsulates)
    {privBytes wrapped : Bytes} :
    (∃ shared, P.decapsulateShare privBytes wrapped = .ok shared ∧ shared.length = 32) ↔
      P.ReadsKeys privBytes wrapped := by
  simp only [decapsulateShare, Beemesh.bind_eq_ok_iff, anyhow_eq_ok_iff,
    mapErr_eq_ok_iff, ReadsKeys]
  constructor
  · rintro ⟨shared, ⟨⟨⟩, hinit, sk, hsk, ct, hct, -⟩, -⟩
    exact ⟨hinit, ⟨sk, hsk⟩, ct, hct⟩
  · rintro ⟨hinit, ⟨sk, hsk⟩, ct, hct⟩
    obtain ⟨shared, hshared, hlength⟩ := hdecaps sk ct
    exact ⟨shared, ⟨(), hinit, sk, hsk, ct, hct, hshared⟩, hlength⟩

/-- What the decoder does with a framed blob once it has the shared secret. -/
theorem decrypt_of_framed {P : CryptoPlatform} (hlengths : P.AesGcmLengths)
    {blob privBytes wrapped nonce ciphertext : Bytes}
    (hframed : Framed blob wrapped nonce ciphertext) {shared : Bytes}
    (hshared : P.decapsulateShare privBytes wrapped = .ok shared) (hlength : shared.length = 32) :
    P.decryptPayloadFromRecipientBlob blob privBytes =
      P.nonceFromSlice nonce >>= fun nonce =>
        ofResult (mapErr ("aes-gcm decrypt error: " ++ ·)
          (P.aesGcmDecrypt shared nonce ciphertext)) := by
  rw [decryptPayloadFromRecipientBlob, readBlob_eq_ok_iff.mpr hframed, ok_bind]
  simp only [hshared, ofResult, ok_bind, hlengths.key shared hlength, mapErr]

/-- **When the decoder does not panic**: unless the blob is framed, the library reads both keys, and
the nonce is not of 12 bytes. -/
theorem decrypt_ne_panic_iff (P : CryptoPlatform) (hdecaps : P.Decapsulates)
    (hlengths : P.AesGcmLengths) (blob privKemBytes : Bytes) :
    P.decryptPayloadFromRecipientBlob blob privKemBytes ≠ panic ↔
      ∀ wrapped nonce ciphertext, Framed blob wrapped nonce ciphertext →
        P.ReadsKeys privKemBytes wrapped → nonce.length = 12 := by
  constructor
  · intro h wrapped nonce ciphertext hframed hkeys
    obtain ⟨shared, hshared, hlength⟩ := (decapsulateShare_eq_ok_iff hdecaps).mpr hkeys
    by_contra hnonce
    apply h
    rw [decrypt_of_framed hlengths hframed hshared hlength, hlengths.nonce_ne nonce hnonce]
    rfl
  · intro h hpanic
    -- The fields, the secret and the key are there when the nonce is taken.
    simp only [decryptPayloadFromRecipientBlob, Outcome.bind_eq_panic_iff, readBlob_ne_panic,
      ofResult_ne_panic, ofResult_eq_ok_iff, mapErr_eq_ok_iff, false_or, or_false, and_false,
      exists_false, Prod.exists] at hpanic
    obtain ⟨wrapped, nonce, ciphertext, hread, shared, hshared, key, hkey, hnonce⟩ := hpanic
    have hlength := ((aesGcmKey_eq_ok_iff hlengths).mp hkey).1
    have htwelve := h wrapped nonce ciphertext (readBlob_eq_ok_iff.mp hread)
      ((decapsulateShare_eq_ok_iff hdecaps).mp ⟨shared, hshared, hlength⟩)
    cases (hlengths.nonce nonce htwelve).symm.trans hnonce

/-! ## On a reference platform -/

/-- Byte strings of length `n`, as a library reads its keys. -/
def sizedFromBytes (n : ℕ) (bytes : Bytes) : Except String {bytes : Bytes // bytes.length = n} :=
  if h : bytes.length = n then .ok ⟨bytes, h⟩ else .error "invalid length"

theorem sizedFromBytes_eq {n : ℕ} {bytes : Bytes} (h : bytes.length = n) :
    sizedFromBytes n bytes = .ok ⟨bytes, h⟩ := dif_pos h

/-- ML-KEM-512 by the sizes of its keys and ciphertexts: the secret is the head of the ciphertext,
and a sealed payload is the payload behind its key and nonce. -/
def referenceCrypto (P : Platform) : CryptoPlatform where
  toPlatform := P
  KemPublicKey := {bytes : Bytes // bytes.length = 800}
  KemSecretKey := {bytes : Bytes // bytes.length = 1632}
  KemCiphertext := {bytes : Bytes // bytes.length = 768}
  kemPublicKeyFromBytes := sizedFromBytes 800
  kemSecretKeyFromBytes := sizedFromBytes 1632
  kemCiphertextFromBytes := sizedFromBytes 768
  kemCiphertextToBytes := Subtype.val
  encapsulate seed _ := (sizedFromBytes 768 seed).map fun ct => (ct.1.take 32, ct)
  decapsulate _ ct := .ok (ct.1.take 32)
  aesGcmKey bytes := if bytes.length = 32 then .ok bytes else .error "Invalid Length"
  nonceFromSlice bytes := if bytes.length = 12 then ok bytes else panic
  aesGcmEncrypt key nonce plain := .ok (key ++ nonce ++ plain)
  aesGcmDecrypt key nonce ciphertext :=
    if (key ++ nonce).isPrefixOf ciphertext then .ok (ciphertext.drop (key ++ nonce).length)
    else .error "aead::Error"

theorem referenceCrypto_aesGcmLengths (P : Platform) : (referenceCrypto P).AesGcmLengths where
  key _ h := if_pos h
  key_ne _ h := ⟨_, if_neg h⟩
  nonce _ h := if_pos h
  nonce_ne _ h := if_neg h

theorem referenceCrypto_decapsulates (P : Platform) : (referenceCrypto P).Decapsulates := by
  rintro sk ⟨ct, hct⟩
  refine ⟨_, rfl, ?_⟩
  rw [List.length_take, hct]
  rfl

theorem referenceCrypto_decapsulateShare (issued : Bytes → Bytes → Bool)
    {privBytes wrapped : Bytes} (hpriv : privBytes.length = 1632)
    (hwrapped : wrapped.length = 768) :
    (referenceCrypto (referencePlatform issued)).decapsulateShare privBytes wrapped =
      .ok (wrapped.take 32) := by
  simp only [decapsulateShare, Beemesh.bind_eq_ok_iff, anyhow_eq_ok_iff, mapErr_eq_ok_iff]
  exact ⟨(), rfl, _, dif_pos hpriv, _, dif_pos hwrapped, rfl⟩

theorem referenceCrypto_encapsulateToPubkey {P : Platform} (hinit : P.ensurePqcInit = .ok ())
    {seed recipientPub : Bytes} (hseed : seed.length = 768) (hpub : recipientPub.length = 800) :
    (referenceCrypto P).encapsulateToPubkey seed recipientPub = .ok (seed, seed.take 32) := by
  simp only [encapsulateToPubkey, Beemesh.bind_eq_ok_iff, anyhow_eq_ok_iff]
  refine ⟨(), hinit, _, sizedFromBytes_eq hpub, (seed.take 32, ⟨seed, hseed⟩), ?_, rfl⟩
  change (sizedFromBytes 768 seed).map _ = _
  rw [sizedFromBytes_eq hseed]
  rfl

/-- Payloads are encrypted to keys of the right size. -/
theorem referenceCrypto_encryptPayload {P : Platform} (hinit : P.ensurePqcInit = .ok ())
    {seed recipientPub : Bytes} (hseed : seed.length = 768) (hpub : recipientPub.length = 800)
    (nonceBytes payload : Bytes) :
    (referenceCrypto P).encryptPayloadForRecipient seed nonceBytes recipientPub payload =
      .ok (writeBlob seed nonceBytes (seed.take 32 ++ nonceBytes ++ payload)) := by
  have hshared : (seed.take 32).length = 32 := by
    rw [List.length_take, hseed]
    rfl
  simp only [encryptPayloadForRecipient, Beemesh.bind_eq_ok_iff, mapErr_eq_ok_iff]
  exact ⟨_, referenceCrypto_encapsulateToPubkey hinit hseed hpub, _, if_pos hshared, _, rfl, rfl⟩

/-- The blob that seals `plain` on the reference platform, and a key that opens it. -/
def referenceBlob (plain : Bytes) : Bytes :=
  writeBlob (.replicate 768 0) (.replicate 12 0) (.replicate 32 0 ++ .replicate 12 0 ++ plain)

def referenceKemKey : Bytes := .replicate 1632 0

theorem decrypt_referenceBlob (issued : Bytes → Bytes → Bool) (plain : Bytes)
    (h : plain.length < 1000) :
    (referenceCrypto (referencePlatform issued)).decryptPayloadFromRecipientBlob
      (referenceBlob plain) referenceKemKey = ok plain := by
  have hframed : Framed (referenceBlob plain) (.replicate 768 0) (.replicate 12 0)
      (.replicate 32 0 ++ .replicate 12 0 ++ plain) := by
    refine framed_writeBlob (by rw [List.length_replicate]; decide) (by decide) ?_
    simp only [List.length_append, List.length_replicate]
    omega
  have hshared : (referenceCrypto (referencePlatform issued)).decapsulateShare referenceKemKey
      (.replicate 768 0) = .ok (.replicate 32 0) := by
    have htake : (List.replicate 768 (0 : UInt8)).take 32 = .replicate 32 0 := by
      rw [List.take_replicate, Nat.min_eq_left (by decide)]
    rw [← htake]
    exact referenceCrypto_decapsulateShare issued List.length_replicate List.length_replicate
  rw [decrypt_of_framed (referenceCrypto_aesGcmLengths _) hframed hshared List.length_replicate]
  simp [referenceCrypto, ofResult, mapErr]

/-- A blob with a nonce of 12 bytes. -/
theorem decrypt_ne_panic_reference :
    (referenceCrypto (referencePlatform fun _ _ => true)).decryptPayloadFromRecipientBlob
      (writeBlob (.replicate 768 0) (.replicate 12 0) [1]) (.replicate 1632 0) ≠ panic := by
  refine (decrypt_ne_panic_iff _ (referenceCrypto_decapsulates _)
    (referenceCrypto_aesGcmLengths _) _ _).mpr ?_
  intro wrapped nonce ciphertext hframed _
  have hwritten : Framed (writeBlob (.replicate 768 0) (.replicate 12 0) [1]) (.replicate 768 0)
      (.replicate 12 0) [1] :=
    framed_writeBlob (by rw [List.length_replicate]; decide) (by decide) (by decide)
  rw [(hframed.unique hwritten).2.1, List.length_replicate]

/-- A blob with an empty nonce, for a key of the right size. -/
theorem decrypt_panics :
    let P := referenceCrypto (referencePlatform fun _ _ => true)
    P.Decapsulates ∧ P.AesGcmLengths ∧
      P.decryptPayloadFromRecipientBlob (writeBlob (.replicate 768 0) [] []) (.replicate 1632 0) =
        panic := by
  intro P
  have hframed : Framed (writeBlob (.replicate 768 0) [] []) (.replicate 768 0) [] [] :=
    framed_writeBlob (by rw [List.length_replicate]; decide) (by decide) (by decide)
  have hshared : P.decapsulateShare (.replicate 1632 0) (.replicate 768 0) =
      .ok ((List.replicate 768 0).take 32) :=
    referenceCrypto_decapsulateShare _ List.length_replicate List.length_replicate
  have hlength : ((List.replicate 768 (0 : UInt8)).take 32).length = 32 := by
    rw [List.length_take, List.length_replicate]
    rfl
  exact ⟨referenceCrypto_decapsulates _, referenceCrypto_aesGcmLengths _,
    decrypt_of_framed (referenceCrypto_aesGcmLengths _) hframed hshared hlength⟩

end Beemesh

import Beemesh.Envelope.Format
import Beemesh.Lib.Base64
import Beemesh.Lib.Codec

/-!
# A reference platform

A platform whose tables round trip, with real base64 and a signature scheme given by the list of
messages each key has signed. It shows that the hypotheses on the platform can be met together,
and results are tried on it.

## Main definitions

* `envelopeCodec`: envelopes as bytes
* `referencePlatform issued`: the platform on which `k` has signed `m` when `issued k m`

## Main results

* `referencePlatform_envelopeRoundTrip`, `referencePlatform_base64RoundTrip`
* `referencePlatform_verifyEnvelope`: signatures verify exactly for issued messages
* `length_payload_le`: a payload is no longer than its envelope
-/

namespace Beemesh

/-- Envelopes, one field after the other. -/
def envelopeCodec : Codec Envelope :=
  let str := Codec.string.option
  (Codec.bytes.option.prod <| str.prod <| str.prod <| (Codec.bitVec 64).prod <| str.prod <|
    str.prod <| str.prod <| str.prod str).retract
    (fun e => (e.payload, e.payloadType, e.nonce, e.ts, e.alg, e.sig, e.pubkey, e.kemPubkey,
      e.peerId))
    (fun (payload, payloadType, nonce, ts, alg, sig, pubkey, kemPubkey, peerId) =>
      some ⟨payload, payloadType, nonce, ts, alg, sig, pubkey, kemPubkey, peerId⟩)
    fun _ => rfl

/-- A failed read, with its message. -/
def readOr {α : Type} (message : String) : Option α → Except String α
  | some a => .ok a
  | none => .error message

theorem readOr_eq_ok_iff {α : Type} {message : String} {o : Option α} {a : α} :
    readOr message o = .ok a ↔ o = some a := by
  cases o <;> simp [readOr]

/-- The platform on which key `k` has signed `m` when `issued k m`. A signature is the message
itself, and the two keys of a pair are one. -/
def referencePlatform (issued : Bytes → Bytes → Bool) : Platform where
  rootAsEnvelope bs := readOr "invalid flatbuffer" (envelopeCodec.read bs)
  finishEnvelope := envelopeCodec.write
  base64Encode := Base64.encode
  base64Decode s := readOr "invalid base64" (Base64.decode s)
  ensurePqcInit := .ok ()
  PublicKey := Bytes
  SecretKey := Bytes
  Signature := Bytes
  publicKeyFromBytes := .ok
  publicKeyToBytes := id
  secretKeyFromBytes := .ok
  signatureFromBytes := .ok
  signatureToBytes := id
  sign _ m := .ok m
  verify k m s := .ok (issued k m && s == m)

theorem referencePlatform_envelopeRoundTrip (issued : Bytes → Bytes → Bool) :
    (referencePlatform issued).EnvelopeRoundTrip := fun t =>
  readOr_eq_ok_iff.mpr (Codec.read_write envelopeCodec t)

theorem referencePlatform_base64RoundTrip (issued : Bytes → Bytes → Bool) :
    (referencePlatform issued).Base64RoundTrip := fun bs =>
  readOr_eq_ok_iff.mpr (Base64.decode_encode bs)

/-- The payload that is read was in the buffer, with something before it. -/
theorem length_payload_lt {bs : Bytes} {e : Envelope} {payload : Bytes}
    (h : envelopeCodec.read bs = some e) (hpayload : e.payload = some payload) :
    payload.length < bs.length := by
  unfold Codec.read at h
  split at h
  · rename_i e' hdecode
    obtain rfl := Option.some.inj h
    -- The payload is the first field, behind a flag.
    simp only [envelopeCodec] at hdecode
    obtain ⟨fields, hfields, hretract⟩ := Codec.decode_retract hdecode
    obtain ⟨rest, hfirst, -⟩ := Codec.decode_prod hfields
    have hfield : fields.1 = some payload := (congrArg Envelope.payload
      (Option.some.inj hretract)).trans hpayload
    rw [hfield] at hfirst
    obtain ⟨tail, rfl, hbytes⟩ := Codec.decode_option_some hfirst
    have hle := Codec.length_decodeBytes hbytes
    simp only [List.length_cons]
    omega
  · cases h

theorem length_payload_le {bs : Bytes} {e : Envelope} {payload : Bytes}
    (h : envelopeCodec.read bs = some e) (hpayload : e.payload = some payload) :
    payload.length ≤ bs.length :=
  (length_payload_lt h hpayload).le

/-- Signatures verify exactly for issued messages. -/
theorem referencePlatform_verifyEnvelope (issued : Bytes → Bytes → Bool) (k m s : Bytes) :
    (referencePlatform issued).verifyEnvelope k m s =
      if issued k m && s == m then .ok ()
      else .error ["signature verification failed: invalid signature"] := by
  rw [Platform.verifyEnvelope]
  cases hverdict : issued k m && s == m with
  | true =>
    simp [referencePlatform, anyhow, bind, Except.bind, hverdict]
  | false => simp [referencePlatform, anyhow, bind, Except.bind, hverdict]

end Beemesh

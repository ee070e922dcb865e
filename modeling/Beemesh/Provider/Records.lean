import Beemesh.Provider.Announcement

/-!
# Records of announcements

A record of an announcement says of each of its fields where it ends. A decoder that is given more
than a record reads the record, and one that is given less says what it misses.

## Main definitions

* `ProviderAnnouncement.Layout`: the fields of an announcement in front of bytes, and what follows
* `ProviderAnnouncement.parts`: the parts of a record, and what the decoder says of one that is
  missing

## Main results

* `fromBytes_eq_ok_iff`: which bytes are read, and as what
* `fromBytes_append`: what follows a record is not looked at
* `Layout.misses_of_cut`: a record that is cut misses its first part that is not there whole
* `record_delimited`: both, of what has been written
-/

namespace Beemesh

open Outcome Wire

namespace ProviderAnnouncement

variable {P : AnnouncementPlatform}

/-! ## Which bytes are read -/

/-- A flag, and the signature that it announces. Every flag but one announces none. -/
inductive SignatureAt : Bytes → Option Bytes → Bytes → Prop
  | signed {bytes signed signature rest : Bytes} (flag : Numbered 1 bytes 1 signed)
      (field : Prefixed 4 signed signature rest) : SignatureAt bytes (some signature) rest
  | unsigned {bytes rest : Bytes} {n : ℕ} (flag : Numbered 1 bytes n rest) (hflag : n ≠ 1) :
      SignatureAt bytes none rest

/-- The bytes begin with the fields of the announcement, three of them as the given bytes, and
`rest` follows them. -/
inductive Layout (a : ProviderAnnouncement P) (peerIdBytes manifestIdBytes metadataBytes : Bytes) :
    Bytes → Bytes → Prop
  | intro {data r₁ r₂ r₃ r₄ r₅ rest : Bytes} {secs : ℕ} {json : String}
      (peerIdAt : Prefixed 4 data peerIdBytes r₁)
      (peerId : P.peerIdFromBytes peerIdBytes = .ok a.peerId)
      (manifestIdAt : Prefixed 4 r₁ manifestIdBytes r₂)
      (manifestId : fromUtf8 manifestIdBytes = ok a.manifestId)
      (timestampAt : Numbered 8 r₂ secs r₃)
      (timestamp : (SystemTime.unixEpoch.add (.fromSecs secs) : Outcome AnnouncementError _) =
        ok a.timestamp)
      (ttlAt : Numbered 8 r₃ a.ttlSeconds.toNat r₄) (metadataAt : Prefixed 4 r₄ metadataBytes r₅)
      (metadataJson : fromUtf8 metadataBytes = ok json)
      (metadata : P.mapFromJson json = .ok a.metadata)
      (signature : SignatureAt r₅ a.signature rest) :
      Layout a peerIdBytes manifestIdBytes metadataBytes data rest

/-- What is read behind a flag. -/
theorem parseSignature_eq_ok_iff {bytes : Bytes} {signature : Option Bytes} :
    (∃ flag rest, Numbered 1 bytes flag rest ∧ parseSignature (flag == 1) rest = ok signature) ↔
      ∃ rest, SignatureAt bytes signature rest := by
  constructor
  · rintro ⟨flag, rest, hflag, hread⟩
    by_cases hone : flag = 1
    · subst hone
      have hsigned : parseSignature true rest = ok signature := hread
      simp only [parseSignature_true, Outcome.bind_eq_ok_iff, takePrefixed_eq_ok_iff, Prod.exists]
        at hsigned
      obtain ⟨field, rest', hfield, heq⟩ := hsigned
      obtain rfl := ok.inj heq
      exact ⟨rest', .signed hflag hfield⟩
    · rw [beq_false_of_ne hone] at hread
      obtain rfl := ok.inj hread
      exact ⟨rest, .unsigned hflag hone⟩
  · rintro ⟨rest, hsignature⟩
    cases hsignature with
    | @signed signed field _ hflag hfield =>
      refine ⟨1, signed, hflag, ?_⟩
      change parseSignature true signed = _
      rw [parseSignature_true, takePrefixed_eq_ok_iff.mpr hfield]
      rfl
    | @unsigned _ n hflag hother =>
      refine ⟨n, rest, hflag, ?_⟩
      rw [beq_false_of_ne hother]
      rfl

/-- **Which bytes are read**: those that begin with the fields of an announcement. -/
theorem fromBytes_eq_ok_iff {data : Bytes} {a : ProviderAnnouncement P} :
    fromBytes P data = ok a ↔ ∃ peerIdBytes manifestIdBytes metadataBytes rest,
      Layout a peerIdBytes manifestIdBytes metadataBytes data rest := by
  rw [fromBytes_eq_parse]
  constructor
  · intro h
    simp only [parse, parseTail, Outcome.bind_eq_ok_iff, takePrefixed_eq_ok_iff, takeBe_eq_ok_iff,
      boxed_eq_ok_iff, Prod.exists] at h
    obtain ⟨peerIdBytes, r₁, hpeerIdAt, peerId, hpeerId, manifestIdBytes, r₂, hmanifestIdAt,
      manifestId, hmanifestId, secs, r₃, hsecs, timestamp, htimestamp, ttl, r₄, httl, metadataBytes,
      r₅, hmetadataAt, json, hjson, metadata, hmetadata, flag, r₆, hflag, signature, hsignature,
      heq⟩ := h
    obtain rfl := ok.inj heq
    obtain ⟨rest, hrest⟩ := parseSignature_eq_ok_iff.mp ⟨flag, r₆, hflag, hsignature⟩
    have hlt : ttl < 2 ^ 64 := httl.lt
    have httl' : (BitVec.ofNat 64 ttl).toNat = ttl := by
      rw [BitVec.toNat_ofNat, Nat.mod_eq_of_lt hlt]
    exact ⟨_, _, _, rest, .intro hpeerIdAt hpeerId hmanifestIdAt hmanifestId hsecs htimestamp
      (by rwa [httl']) hmetadataAt hjson hmetadata hrest⟩
  · rintro ⟨_, _, _, rest, ⟨hpeerIdAt, hpeerId, hmanifestIdAt, hmanifestId, hsecs, htimestamp,
      httl, hmetadataAt, hjson, hmetadata, hsignature⟩⟩
    obtain ⟨flag, r₆, hflag, hread⟩ := parseSignature_eq_ok_iff.mpr ⟨rest, hsignature⟩
    have httl' : BitVec.ofNat 64 a.ttlSeconds.toNat = a.ttlSeconds := BitVec.eq_of_toNat_eq
      (by rw [BitVec.toNat_ofNat, Nat.mod_eq_of_lt a.ttlSeconds.isLt])
    rw [parse_of_head hpeerIdAt hpeerId hmanifestIdAt hmanifestId hsecs htimestamp,
      parseTail_of_fields httl hmetadataAt hjson hmetadata hflag hread, httl']

theorem SignatureAt.append {bytes rest : Bytes} {signature : Option Bytes}
    (h : SignatureAt bytes signature rest) (more : Bytes) :
    SignatureAt (bytes ++ more) signature (rest ++ more) := by
  cases h with
  | signed hflag hfield => exact .signed (hflag.append more) (hfield.append more)
  | unsigned hflag hother => exact .unsigned (hflag.append more) hother

theorem Layout.append {a : ProviderAnnouncement P}
    {peerIdBytes manifestIdBytes metadataBytes data rest : Bytes}
    (h : Layout a peerIdBytes manifestIdBytes metadataBytes data rest) (more : Bytes) :
    Layout a peerIdBytes manifestIdBytes metadataBytes (data ++ more) (rest ++ more) := by
  obtain ⟨hpeerIdAt, hpeerId, hmanifestIdAt, hmanifestId, hsecs, htimestamp, httl, hmetadataAt,
    hjson, hmetadata, hsignature⟩ := h
  exact .intro (hpeerIdAt.append more) hpeerId (hmanifestIdAt.append more) hmanifestId
    (hsecs.append more) htimestamp (httl.append more) (hmetadataAt.append more) hjson hmetadata
    (hsignature.append more)

/-- **What follows a record is not looked at.** -/
theorem fromBytes_append {data : Bytes} {a : ProviderAnnouncement P} (h : fromBytes P data = ok a)
    (more : Bytes) : fromBytes P (data ++ more) = ok a := by
  obtain ⟨_, _, _, rest, hlayout⟩ := fromBytes_eq_ok_iff.mp h
  exact fromBytes_eq_ok_iff.mpr ⟨_, _, _, _, hlayout.append more⟩

/-! ## Records that are cut -/

/-- The parts of a signature: its flag, and what a flag announces. -/
def signatureParts : Option Bytes → List (ℕ × String)
  | some signature => [(1, "Invalid data: missing signature flag"),
      (4, "Invalid data: missing signature length"),
      (signature.length, "Invalid data: signature too short")]
  | none => [(1, "Invalid data: missing signature flag")]

/-- The parts of a record, each with its length and what the decoder says when it is missing. -/
def recordParts (peerIdBytes manifestIdBytes metadataBytes : Bytes) (signature : Option Bytes) :
    List (ℕ × String) :=
  (4, "Invalid data: missing peer ID length") ::
  (peerIdBytes.length, "Invalid data: peer ID too short") ::
  (4, "Invalid data: missing manifest ID length") ::
  (manifestIdBytes.length, "Invalid data: manifest ID too short") ::
  (8, "Invalid data: missing timestamp") ::
  (8, "Invalid data: missing TTL") ::
  (4, "Invalid data: missing metadata length") ::
  (metadataBytes.length, "Invalid data: metadata too short") :: signatureParts signature

/-- The parts of what is written of an announcement. -/
def parts (a : ProviderAnnouncement P) : List (ℕ × String) :=
  recordParts (P.peerIdToBytes a.peerId) (asBytes a.manifestId) (asBytes a.metadataJson) a.signature

/-- A signature that is cut misses its flag, its length or its end. -/
theorem SignatureAt.misses_of_cut {bytes cut : Bytes} {signature : Option Bytes}
    (h : SignatureAt bytes signature []) (hcut : cut <+: bytes)
    {f : Option Bytes → Outcome AnnouncementError (ProviderAnnouncement P)} :
    Misses .message (signatureParts signature) cut.length (do
      let (flag, rest) ← takeBe 1 (.message "Invalid data: missing signature flag") cut
      f (← parseSignature (flag == 1) rest)) ∨ cut = bytes := by
  cases h with
  | signed hflag hfield =>
    refine takeBe_bind_of_cut hflag hcut fun rest' hrest' => ?_
    change Misses _ _ _ (parseSignature true rest' >>= f) ∨ _
    rw [parseSignature_true, bind_assoc]
    exact takePrefixed_bind_of_cut hfield hrest' fun rest'' hnil => .inr (List.prefix_nil.mp hnil)
  | unsigned hflag hother =>
    exact takeBe_bind_of_cut hflag hcut fun rest' hnil => .inr (List.prefix_nil.mp hnil)

/-- **A record that is cut is refused**, with the first of its parts that is not there whole. -/
theorem Layout.misses_of_cut {a : ProviderAnnouncement P}
    {peerIdBytes manifestIdBytes metadataBytes data cut : Bytes}
    (h : Layout a peerIdBytes manifestIdBytes metadataBytes data []) (hcut : cut <+: data)
    (hne : cut ≠ data) :
    Misses .message (recordParts peerIdBytes manifestIdBytes metadataBytes a.signature) cut.length
      (fromBytes P cut) := by
  obtain ⟨hpeerIdAt, hpeerId, hmanifestIdAt, hmanifestId, hsecs, htimestamp, httl, hmetadataAt,
    hjson, hmetadata, hsignature⟩ := h
  rw [fromBytes_eq_parse]
  refine Or.resolve_right ?_ hne
  unfold parse parseTail recordParts
  -- Field by field: it is cut, or it is as it was, and the cut is in what follows it.
  refine takePrefixed_bind_of_cut hpeerIdAt hcut fun r₁ hr₁ => ?_
  simp only [boxed_eq_ok_iff.mpr hpeerId, ok_bind]
  refine takePrefixed_bind_of_cut hmanifestIdAt hr₁ fun r₂ hr₂ => ?_
  simp only [hmanifestId, ok_bind]
  refine takeBe_bind_of_cut hsecs hr₂ fun r₃ hr₃ => ?_
  simp only [htimestamp, ok_bind]
  refine takeBe_bind_of_cut httl hr₃ fun r₄ hr₄ => ?_
  refine takePrefixed_bind_of_cut hmetadataAt hr₄ fun r₅ hr₅ => ?_
  simp only [hjson, ok_bind, boxed_eq_ok_iff.mpr hmetadata]
  exact hsignature.misses_of_cut hr₅

/-! ## What is written -/

theorem signatureAt_signatureBytes {a : ProviderAnnouncement P} (hfits : a.Fits) :
    SignatureAt a.signatureBytes a.signature [] := by
  cases hsig : a.signature with
  | none =>
    rw [signatureBytes, hsig]
    exact .unsigned ⟨[0], rfl, rfl, rfl⟩ (by decide)
  | some signature =>
    rw [signatureBytes, hsig]
    have hfield := prefixed_lengthPrefixed (hfits.signature _ hsig) []
    rw [List.append_nil] at hfield
    exact .signed ⟨[1], rfl, rfl, rfl⟩ hfield

/-- What is written is a record, and nothing follows it. -/
theorem exists_layout_toBytes {a : ProviderAnnouncement P} (hback : a.ReadsBack)
    (hfits : a.Fits) :
    ∃ bytes a', (a.toBytes : Outcome AnnouncementError Bytes) = ok bytes ∧
      Layout a' (P.peerIdToBytes a.peerId) (asBytes a.manifestId) (asBytes a.metadataJson)
        bytes [] ∧ a'.Agrees a := by
  obtain ⟨json, metadata, hjson, hmetadata, hlookup⟩ := hback.metadata
  have hjson' : a.metadataJson = json := by rw [metadataJson, hjson]
  have hsecs : a.timestamp.secs.toNat < 2 ^ 63 := by
    have hupper := a.timestamp.upper
    omega
  obtain ⟨t, ht, htsecs, htnanos⟩ := SystemTime.add_unixEpoch (ε := AnnouncementError) hsecs
  have htime : t = a.timestamp.toSeconds :=
    SystemTime.ext (htsecs.trans (Int.toNat_of_nonneg hfits.timestamp)) htnanos
  have hbytes : (a.toBytes : Outcome AnnouncementError Bytes) =
      ok (a.fieldBytes a.timestamp.secs.toNat) := by
    rw [toBytes, SystemTime.durationSince_unixEpoch hfits.timestamp]
    rfl
  refine ⟨_, { a with timestamp := t, metadata := metadata }, hbytes,
    .intro (prefixed_lengthPrefixed hfits.peerId _) hback.peerId
      (prefixed_lengthPrefixed hfits.manifestId _) (fromUtf8_asBytes _)
      (numbered_toBe (hsecs.trans (by decide)) _) ht (numbered_toBe a.ttlSeconds.isLt _)
      (prefixed_lengthPrefixed hfits.metadata _) (fromUtf8_asBytes _) (hjson' ▸ hmetadata)
      (signatureAt_signatureBytes hfits), ⟨rfl, rfl, ?_, rfl, hlookup, rfl⟩⟩
  rw [htime]
  rfl

/-- **A record says where it ends**: it reads back with anything behind it, and with its end missing
it is refused, with the first of its parts that is not there whole. -/
theorem record_delimited {a : ProviderAnnouncement P} (hback : a.ReadsBack) (hfits : a.Fits) :
    ∃ bytes a', (a.toBytes : Outcome AnnouncementError Bytes) = ok bytes ∧ a'.Agrees a ∧
      (∀ more, fromBytes P (bytes ++ more) = ok a') ∧
      ∀ cut, cut <+: bytes → cut ≠ bytes →
        ∃ text, firstMissing a.parts cut.length = some text ∧
          fromBytes P cut = err (.message text) := by
  obtain ⟨bytes, a', hbytes, hlayout, hagrees⟩ := exists_layout_toBytes hback hfits
  have hread : fromBytes P bytes = ok a' := fromBytes_eq_ok_iff.mpr ⟨_, _, _, [], hlayout⟩
  refine ⟨bytes, a', hbytes, hagrees, fromBytes_append hread, fun cut hcut hne => ?_⟩
  have hmisses := hlayout.misses_of_cut hcut hne
  rwa [hagrees.signature] at hmisses

end ProviderAnnouncement

/-- The announcement of the reference platform, with its last byte missing. -/
theorem record_delimited_web :
    ∃ bytes a', (webAnnouncement.toBytes : Outcome AnnouncementError Bytes) = ok bytes ∧
      a'.Agrees webAnnouncement ∧
      (∀ more, ProviderAnnouncement.fromBytes referenceAnnouncements (bytes ++ more) = ok a') ∧
      ∀ cut, cut <+: bytes → cut ≠ bytes →
        ∃ text, firstMissing webAnnouncement.parts cut.length = some text ∧
          ProviderAnnouncement.fromBytes referenceAnnouncements cut = err (.message text) :=
  ProviderAnnouncement.record_delimited
    ⟨referenceAnnouncements_peerId sevenPeer, "{}", ∅, rfl, rfl, fun _ => rfl⟩
    ⟨by decide, by decide, by decide, by rintro signature ⟨⟩; decide, by decide⟩

end Beemesh

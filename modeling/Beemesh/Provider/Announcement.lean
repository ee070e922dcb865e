import Beemesh.Basic
import Beemesh.Lib.Table
import Beemesh.Lib.Wire

/-!
# Provider announcements as bytes

What a provider announces of a manifest is written into a record of the DHT: fields behind their
lengths, two numbers, and a signature behind a flag. It reads back as it was, but for the time, of
which the seconds are kept. A record comes from any node of the mesh, and the decoder adds its
timestamp to the epoch without a check.

## Main definitions

* `SystemTime`, `Span`: the wall clock, whose sums can overflow
* `ProviderAnnouncement`, `toBytes`, `fromBytes`, `isExpired`
* `parse`: the decoder without its cursor
* `Stamped`: the timestamp that bytes carry

## Main results

* `fromBytes_eq_parse`: the decoder and its cursor
* `fromBytes_toBytes`: announcements read back, and different ones are written differently
* `fromBytes_ne_panic_iff`: the decoder panics on late timestamps, and on nothing else
-/

namespace Beemesh

open Outcome Wire

/-! ## The wall clock -/

/-- `std::time::Duration`, the seconds apart from the nanoseconds. -/
structure Span where
  secs : ℕ
  nanos : ℕ
  deriving DecidableEq

namespace Span

/-- `Duration::from_secs`. -/
def fromSecs (secs : ℕ) : Span := ⟨secs, 0⟩

/-- `Duration::new`: the seconds, with the carry, must fit in 64 bits. -/
def new {ε : Type} (secs nanos : ℕ) : Outcome ε Span :=
  if secs + nanos / 10 ^ 9 < 2 ^ 64 then ok ⟨secs + nanos / 10 ^ 9, nanos % 10 ^ 9⟩ else panic

end Span

/-- `SystemTime`, from the epoch: its seconds are a signed number of 64 bits. -/
@[ext] structure SystemTime where
  secs : ℤ
  nanos : ℕ
  lower : -2 ^ 63 ≤ secs
  upper : secs < 2 ^ 63
  nanos_lt : nanos < 10 ^ 9
  deriving DecidableEq

namespace SystemTime

/-- `UNIX_EPOCH`. -/
def unixEpoch : SystemTime := ⟨0, 0, by decide, by decide, by decide⟩

theorem lt_of_toNat_lt {secs : ℤ} (h : secs.toNat < 2 ^ 63) : secs < 2 ^ 63 := by omega

/-- `SystemTime + Duration`. Only seconds after the epoch can be too many. -/
def add {ε : Type} (t : SystemTime) (d : Span) : Outcome ε SystemTime :=
  let secs := t.secs + d.secs + ((t.nanos + d.nanos) / 10 ^ 9 : ℕ)
  if h : secs.toNat < 2 ^ 63 then
    ok ⟨secs, (t.nanos + d.nanos) % 10 ^ 9, by have := t.lower; omega, lt_of_toNat_lt h,
      Nat.mod_lt _ (by decide)⟩
  else panic

/-- The span from an earlier time, with a borrow where its nanoseconds are more. -/
def sub {ε : Type} (t earlier : SystemTime) : Outcome ε Span :=
  if earlier.nanos ≤ t.nanos then
    Span.new (t.secs - earlier.secs).toNat (t.nanos - earlier.nanos)
  else Span.new (t.secs - earlier.secs - 1).toNat (t.nanos + 10 ^ 9 - earlier.nanos)

/-- Not later than. -/
def NotAfter (earlier t : SystemTime) : Prop :=
  earlier.secs < t.secs ∨ earlier.secs = t.secs ∧ earlier.nanos ≤ t.nanos

instance (earlier t : SystemTime) : Decidable (earlier.NotAfter t) :=
  inferInstanceAs (Decidable (_ ∨ _))

/-- `duration_since`: how much later, or else how much earlier. -/
def durationSince {ε : Type} (t earlier : SystemTime) : Outcome ε (Except Span Span) := do
  if earlier.NotAfter t then return .ok (← t.sub earlier)
  else return .error (← earlier.sub t)

/-- The whole seconds of a time. -/
def toSeconds (t : SystemTime) : SystemTime := ⟨t.secs, 0, t.lower, t.upper, by decide⟩

/-- The span between two times always fits. -/
theorem sub_eq_ok {ε : Type} {t earlier : SystemTime} (h : earlier.NotAfter t) :
    ∃ d, (t.sub earlier : Outcome ε Span) = ok d := by
  have hlower := earlier.lower
  have hupper := t.upper
  have hnanos := t.nanos_lt
  have hafter : earlier.secs < t.secs ∨ earlier.secs = t.secs ∧ earlier.nanos ≤ t.nanos := h
  unfold sub Span.new
  split_ifs with hborrow hfits hfits
  · exact ⟨_, rfl⟩
  · omega
  · exact ⟨_, rfl⟩
  · omega

theorem durationSince_ne_panic {ε : Type} (t earlier : SystemTime) :
    (t.durationSince earlier : Outcome ε _) ≠ panic := by
  unfold durationSince
  split_ifs with h
  · obtain ⟨d, hd⟩ := sub_eq_ok (ε := ε) h
    simp [hd]
  · have hafter : t.NotAfter earlier := by
      unfold NotAfter at h ⊢
      omega
    obtain ⟨d, hd⟩ := sub_eq_ok (ε := ε) hafter
    simp [hd]

/-- Since the epoch, a time has its own seconds. -/
theorem durationSince_unixEpoch {ε : Type} {t : SystemTime} (h : 0 ≤ t.secs) :
    (t.durationSince unixEpoch : Outcome ε _) = ok (.ok ⟨t.secs.toNat, t.nanos⟩) := by
  have hepoch : unixEpoch.NotAfter t := by
    unfold NotAfter unixEpoch
    dsimp only
    omega
  have hsub : (t.sub unixEpoch : Outcome ε Span) = ok ⟨t.secs.toNat, t.nanos⟩ := by
    have hupper := t.upper
    have hcarry : t.nanos / 10 ^ 9 = 0 := Nat.div_eq_of_lt t.nanos_lt
    simp only [sub, unixEpoch, Nat.zero_le, if_true, sub_zero, Nat.sub_zero, Span.new, hcarry,
      Nat.add_zero, Nat.mod_eq_of_lt t.nanos_lt]
    rw [if_pos (by omega)]
  rw [durationSince, if_pos hepoch, hsub]
  rfl

/-- Seconds are added to the epoch as long as they fit. -/
theorem add_unixEpoch {ε : Type} {secs : ℕ} (h : secs < 2 ^ 63) :
    ∃ t, (unixEpoch.add (.fromSecs secs) : Outcome ε SystemTime) = ok t ∧ t.secs = secs ∧
      t.nanos = 0 := by
  refine ⟨⟨secs, 0, by omega, by omega, by decide⟩, ?_, rfl, rfl⟩
  simp only [add, unixEpoch, Span.fromSecs, zero_add, Nat.zero_div, Nat.cast_zero,
    add_zero, Int.toNat_natCast, Nat.zero_mod, h, dite_true]

theorem add_unixEpoch_eq_panic_iff {ε : Type} {secs : ℕ} :
    (unixEpoch.add (.fromSecs secs) : Outcome ε SystemTime) = panic ↔ 2 ^ 63 ≤ secs := by
  constructor
  · intro h
    by_contra hlt
    obtain ⟨t, ht, -⟩ := add_unixEpoch (ε := ε) (not_le.mp hlt)
    rw [ht] at h
    exact nomatch h
  · intro h
    simp only [add, unixEpoch, Span.fromSecs, zero_add, Nat.zero_div, Nat.cast_zero,
      add_zero, Int.toNat_natCast, not_lt.mpr h, dite_false]

end SystemTime

/-! ## Announcements -/

/-- The operations of `libp2p` and `serde_json`. -/
structure AnnouncementPlatform where
  PeerId : Type
  /-- `PeerId::to_bytes`. -/
  peerIdToBytes : PeerId → Bytes
  /-- `PeerId::from_bytes`. -/
  peerIdFromBytes : Bytes → Except String PeerId
  /-- `serde_json::to_string` of a map, in the order in which the map is iterated. -/
  mapToJson : Table String String → Except String String
  /-- `serde_json::from_str`. -/
  mapFromJson : String → Except String (Table String String)

/-- The errors that the decoder boxes: texts of its own, and those of the libraries. -/
inductive AnnouncementError
  | message (text : String)
  | peerId (e : String)
  | utf8
  | json (e : String)
  deriving DecidableEq

/-- `String::from_utf8`. -/
def fromUtf8 (bytes : Bytes) : Outcome AnnouncementError String :=
  match String.fromUTF8? ⟨⟨bytes⟩⟩ with
  | some s => ok s
  | none => err .utf8

/-- `String::as_bytes`. -/
def asBytes (s : String) : Bytes := s.toUTF8.data.toList

/-- An error of a library, boxed. -/
def boxed {α : Type} (box : String → AnnouncementError) :
    Except String α → Outcome AnnouncementError α
  | .ok a => ok a
  | .error e => err (box e)

theorem fromUtf8_asBytes (s : String) : fromUtf8 (asBytes s) = ok s := by
  have hvalid : (⟨⟨asBytes s⟩⟩ : ByteArray).IsValidUTF8 := s.isValidUTF8
  have hsome : String.fromUTF8? ⟨⟨asBytes s⟩⟩ = some s := by
    rw [String.fromUTF8?, dif_pos hvalid]
    rfl
  rw [fromUtf8, hsome]

theorem fromUtf8_ne_panic (bytes : Bytes) : fromUtf8 bytes ≠ panic := by
  unfold fromUtf8
  split <;> simp

theorem boxed_eq_ok_iff {α : Type} {box : String → AnnouncementError} {x : Except String α}
    {a : α} : boxed box x = ok a ↔ x = .ok a := by
  cases x <;> simp [boxed]

theorem boxed_ne_panic {α : Type} {box : String → AnnouncementError} {x : Except String α} :
    boxed box x ≠ panic := by
  cases x <;> simp [boxed]

/-- Announcement data for a manifest provider. -/
structure ProviderAnnouncement (P : AnnouncementPlatform) where
  peerId : P.PeerId
  manifestId : String
  /-- When the announcement was created. -/
  timestamp : SystemTime
  ttlSeconds : U64
  metadata : Table String String
  signature : Option Bytes

namespace ProviderAnnouncement

variable {P : AnnouncementPlatform}

/-- `is_expired`, at a reading of the clock. -/
def isExpired {ε : Type} (a : ProviderAnnouncement P) (now : SystemTime) : Outcome ε Bool := do
  match ← now.durationSince a.timestamp with
  | .ok elapsed => return decide (a.ttlSeconds.toNat < elapsed.secs)
  | .error _ => return true

/-- `(bytes.len() as u32).to_be_bytes()` in front of the bytes. -/
def lengthPrefixed (bytes : Bytes) : Bytes := toBe 4 bytes.length ++ bytes

/-- The metadata as JSON, `unwrap_or_default`. -/
def metadataJson (a : ProviderAnnouncement P) : String :=
  match P.mapToJson a.metadata with
  | .ok json => json
  | .error _ => ""

/-- The signature, when there is one, behind its flag. -/
def signatureBytes (a : ProviderAnnouncement P) : Bytes :=
  match a.signature with
  | some signature => 1 :: lengthPrefixed signature
  | none => [0]

/-- The fields one after the other, with the seconds of the timestamp. -/
def fieldBytes (a : ProviderAnnouncement P) (timestampSecs : ℕ) : Bytes :=
  lengthPrefixed (P.peerIdToBytes a.peerId) ++ (lengthPrefixed (asBytes a.manifestId) ++
    (toBe 8 timestampSecs ++ (toBe 8 a.ttlSeconds.toNat ++
      (lengthPrefixed (asBytes a.metadataJson) ++ a.signatureBytes))))

/-- `to_bytes`, with `unwrap_or_default` for a time before the epoch. -/
def toBytes {ε : Type} (a : ProviderAnnouncement P) : Outcome ε Bytes := do
  match ← a.timestamp.durationSince .unixEpoch with
  | .ok sinceEpoch => return a.fieldBytes sinceEpoch.secs
  | .error _ => return a.fieldBytes 0

/-- The signature at the cursor, if the flag in front of it said that there is one. -/
def readSignature (hasSignature : Bool) (data : Bytes) (offset : ℕ) :
    Outcome AnnouncementError (Option Bytes) := do
  if hasSignature then
    let (signature, _) ← prefixedField 4 (.message "Invalid data: missing signature length")
      (.message "Invalid data: signature too short") data offset
    return some signature
  else return none

/-- `from_bytes`. -/
def fromBytes (P : AnnouncementPlatform) (data : Bytes) :
    Outcome AnnouncementError (ProviderAnnouncement P) := do
  let (peerIdBytes, offset) ← prefixedField 4 (.message "Invalid data: missing peer ID length")
    (.message "Invalid data: peer ID too short") data 0
  let peerId ← boxed .peerId (P.peerIdFromBytes peerIdBytes)
  let (manifestIdBytes, offset) ← prefixedField 4
    (.message "Invalid data: missing manifest ID length")
    (.message "Invalid data: manifest ID too short") data offset
  let manifestId ← fromUtf8 manifestIdBytes
  let (timestampSecs, offset) ← beField 8 (.message "Invalid data: missing timestamp") data offset
  let timestamp ← SystemTime.unixEpoch.add (.fromSecs timestampSecs)
  let (ttlSeconds, offset) ← beField 8 (.message "Invalid data: missing TTL") data offset
  let (metadataBytes, offset) ← prefixedField 4 (.message "Invalid data: missing metadata length")
    (.message "Invalid data: metadata too short") data offset
  let metadataJson ← fromUtf8 metadataBytes
  let metadata ← boxed .json (P.mapFromJson metadataJson)
  let (flag, offset) ← beField 1 (.message "Invalid data: missing signature flag") data offset
  let signature ← readSignature (flag == 1) data offset
  return ⟨peerId, manifestId, timestamp, .ofNat 64 ttlSeconds, metadata, signature⟩

/-! ## Without the cursor -/

/-- The signature in front of what is left. -/
def parseSignature (hasSignature : Bool) (rest : Bytes) :
    Outcome AnnouncementError (Option Bytes) := do
  if hasSignature then
    let (signature, _) ← takePrefixed 4 (.message "Invalid data: missing signature length")
      (.message "Invalid data: signature too short") rest
    return some signature
  else return none

theorem parseSignature_true {rest : Bytes} :
    parseSignature true rest = do
      let field ← takePrefixed 4 (.message "Invalid data: missing signature length")
        (.message "Invalid data: signature too short") rest
      return some field.1 := rfl

/-- What follows the timestamp. -/
def parseTail (P : AnnouncementPlatform) (peerId : P.PeerId) (manifestId : String)
    (timestamp : SystemTime) (rest : Bytes) :
    Outcome AnnouncementError (ProviderAnnouncement P) := do
  let (ttlSeconds, rest) ← takeBe 8 (.message "Invalid data: missing TTL") rest
  let (metadataBytes, rest) ← takePrefixed 4 (.message "Invalid data: missing metadata length")
    (.message "Invalid data: metadata too short") rest
  let metadataJson ← fromUtf8 metadataBytes
  let metadata ← boxed .json (P.mapFromJson metadataJson)
  let (flag, rest) ← takeBe 1 (.message "Invalid data: missing signature flag") rest
  let signature ← parseSignature (flag == 1) rest
  return ⟨peerId, manifestId, timestamp, .ofNat 64 ttlSeconds, metadata, signature⟩

/-- The decoder on the bytes that are left at each step. -/
def parse (P : AnnouncementPlatform) (data : Bytes) :
    Outcome AnnouncementError (ProviderAnnouncement P) := do
  let (peerIdBytes, rest) ← takePrefixed 4 (.message "Invalid data: missing peer ID length")
    (.message "Invalid data: peer ID too short") data
  let peerId ← boxed .peerId (P.peerIdFromBytes peerIdBytes)
  let (manifestIdBytes, rest) ← takePrefixed 4
    (.message "Invalid data: missing manifest ID length")
    (.message "Invalid data: manifest ID too short") rest
  let manifestId ← fromUtf8 manifestIdBytes
  let (timestampSecs, rest) ← takeBe 8 (.message "Invalid data: missing timestamp") rest
  let timestamp ← SystemTime.unixEpoch.add (.fromSecs timestampSecs)
  parseTail P peerId manifestId timestamp rest

theorem readSignature_eq_parseSignature {hasSignature : Bool} {data : Bytes} {offset : ℕ}
    (hoffset : offset ≤ data.length) (hsize : offset + 4 + 256 ^ 4 ≤ 2 ^ 64) :
    readSignature hasSignature data offset = parseSignature hasSignature (data.drop offset) := by
  cases hasSignature with
  | false => rfl
  | true =>
    unfold readSignature parseSignature
    exact prefixedField_bind hsize hoffset fun _ _ _ _ => rfl

/-- **The decoder reads with its cursor what is left of the bytes**; the cursor stays in range. -/
theorem fromBytes_eq_parse (data : Bytes) : fromBytes P data = parse P data := by
  unfold fromBytes parse parseTail
  refine prefixedField_bind (by decide) (Nat.zero_le _) fun peerIdBytes stop hstop hle => ?_
  refine bind_congr fun peerId => ?_
  refine prefixedField_bind (by omega) hle fun manifestIdBytes stop' hstop' hle' => ?_
  refine bind_congr fun manifestId => ?_
  refine beField_bind (by omega) hle' fun secs stop₂ hstop₂ hle₂ => ?_
  refine bind_congr fun timestamp => ?_
  refine beField_bind (by omega) hle₂ fun ttl stop₃ hstop₃ hle₃ => ?_
  refine prefixedField_bind (by omega) hle₃ fun metadataBytes stop₄ hstop₄ hle₄ => ?_
  refine bind_congr fun json => bind_congr fun metadata => ?_
  refine beField_bind (by omega) hle₄ fun flag stop₅ hstop₅ hle₅ => ?_
  exact congrArg (· >>= _) (readSignature_eq_parseSignature hle₅ (by omega))

/-! ## When the decoder does not panic -/

/-- The bytes begin with a peer id, a manifest id and the timestamp `secs`. -/
def Stamped (P : AnnouncementPlatform) (data : Bytes) (secs : ℕ) : Prop :=
  ∃ peerIdBytes peerId manifestIdBytes manifestId rest rest' rest'',
    Prefixed 4 data peerIdBytes rest ∧ P.peerIdFromBytes peerIdBytes = .ok peerId ∧
    Prefixed 4 rest manifestIdBytes rest' ∧ fromUtf8 manifestIdBytes = ok manifestId ∧
    Numbered 8 rest' secs rest''

theorem parseSignature_ne_panic {hasSignature : Bool} {rest : Bytes} :
    parseSignature hasSignature rest ≠ panic := by
  cases hasSignature with
  | false => exact nofun
  | true =>
    simp only [parseSignature, if_true, ne_eq, bind_eq_panic_iff, takePrefixed_ne_panic]
    simp

/-- After the timestamp nothing panics. -/
theorem parseTail_ne_panic {peerId : P.PeerId} {manifestId : String} {timestamp : SystemTime}
    {rest : Bytes} : parseTail P peerId manifestId timestamp rest ≠ panic := by
  simp only [parseTail, ne_eq, bind_eq_panic_iff, takeBe_ne_panic, takePrefixed_ne_panic,
    fromUtf8_ne_panic, boxed_ne_panic, parseSignature_ne_panic, false_or]
  simp

theorem parse_eq_panic_iff {data : Bytes} :
    parse P data = panic ↔ ∃ secs, Stamped P data secs ∧ 2 ^ 63 ≤ secs := by
  simp only [parse, bind_eq_panic_iff, takeBe_ne_panic, takePrefixed_ne_panic, fromUtf8_ne_panic,
    boxed_ne_panic, parseTail_ne_panic, SystemTime.add_unixEpoch_eq_panic_iff,
    takePrefixed_eq_ok_iff, takeBe_eq_ok_iff, boxed_eq_ok_iff, false_or, and_false, exists_false,
    or_false, Prod.exists]
  constructor
  · rintro ⟨peerIdBytes, rest, hpeerId, peerId, hpeer, manifestIdBytes, rest', hmanifestId,
      manifestId, hmanifest, secs, rest'', hsecs, hle⟩
    exact ⟨secs, ⟨peerIdBytes, peerId, manifestIdBytes, manifestId, rest, rest', rest'', hpeerId,
      hpeer, hmanifestId, hmanifest, hsecs⟩, hle⟩
  · rintro ⟨secs, ⟨peerIdBytes, peerId, manifestIdBytes, manifestId, rest, rest', rest'', hpeerId,
      hpeer, hmanifestId, hmanifest, hsecs⟩, hle⟩
    exact ⟨peerIdBytes, rest, hpeerId, peerId, hpeer, manifestIdBytes, rest', hmanifestId,
      manifestId, hmanifest, secs, rest'', hsecs, hle⟩

theorem isExpired_ne_panic {ε : Type} (a : ProviderAnnouncement P) (now : SystemTime) :
    (a.isExpired now : Outcome ε Bool) ≠ panic := by
  intro h
  rw [isExpired, bind_eq_panic_iff] at h
  rcases h with h | ⟨d, -, h⟩
  · exact SystemTime.durationSince_ne_panic _ _ h
  · cases d <;> exact nomatch h

/-- **When decoding does not panic**, nor the expiry of what was decoded: when the bytes carry no
timestamp of which the clock cannot hold the seconds. -/
theorem fromBytes_ne_panic_iff (P : AnnouncementPlatform) (data : Bytes) :
    (fromBytes P data ≠ panic ∧ ∀ a, fromBytes P data = ok a →
      ∀ now, (a.isExpired now : Outcome AnnouncementError Bool) ≠ panic) ↔
    ∀ secs, Stamped P data secs → secs < 2 ^ 63 := by
  have hpanic : fromBytes P data = panic ↔ ∃ secs, Stamped P data secs ∧ 2 ^ 63 ≤ secs := by
    rw [fromBytes_eq_parse, parse_eq_panic_iff]
  constructor
  · rintro ⟨hne, -⟩ secs hstamped
    by_contra hlate
    exact hne (hpanic.mpr ⟨secs, hstamped, not_lt.mp hlate⟩)
  · intro hearly
    refine ⟨fun h => ?_, fun a _ now => a.isExpired_ne_panic now⟩
    obtain ⟨secs, hstamped, hlate⟩ := hpanic.mp h
    exact absurd (hearly secs hstamped) (not_lt.mpr hlate)

/-! ## There and back -/

/-- What the libraries promise of an announcement: its peer id and its metadata read back. -/
structure ReadsBack (a : ProviderAnnouncement P) : Prop where
  peerId : P.peerIdFromBytes (P.peerIdToBytes a.peerId) = .ok a.peerId
  metadata : ∃ json metadata, P.mapToJson a.metadata = .ok json ∧
    P.mapFromJson json = .ok metadata ∧ ∀ k, metadata.lookup k = a.metadata.lookup k

/-- The fields are as short as their lengths can tell, and the time is not before the epoch. -/
structure Fits (a : ProviderAnnouncement P) : Prop where
  peerId : (P.peerIdToBytes a.peerId).length < 2 ^ 32
  manifestId : (asBytes a.manifestId).length < 2 ^ 32
  metadata : (asBytes a.metadataJson).length < 2 ^ 32
  signature : ∀ signature, a.signature = some signature → signature.length < 2 ^ 32
  timestamp : 0 ≤ a.timestamp.secs

/-- The same announcement, up to parts of a second and the order of its metadata. -/
structure Agrees (a b : ProviderAnnouncement P) : Prop where
  peerId : a.peerId = b.peerId
  manifestId : a.manifestId = b.manifestId
  timestamp : a.timestamp.toSeconds = b.timestamp.toSeconds
  ttlSeconds : a.ttlSeconds = b.ttlSeconds
  metadata : ∀ k, a.metadata.lookup k = b.metadata.lookup k
  signature : a.signature = b.signature

theorem Agrees.symm {a b : ProviderAnnouncement P} (h : a.Agrees b) : b.Agrees a :=
  ⟨h.peerId.symm, h.manifestId.symm, h.timestamp.symm, h.ttlSeconds.symm,
    fun k => (h.metadata k).symm, h.signature.symm⟩

theorem Agrees.trans {a b c : ProviderAnnouncement P} (h : a.Agrees b) (h' : b.Agrees c) :
    a.Agrees c :=
  ⟨h.peerId.trans h'.peerId, h.manifestId.trans h'.manifestId, h.timestamp.trans h'.timestamp,
    h.ttlSeconds.trans h'.ttlSeconds, fun k => (h.metadata k).trans (h'.metadata k),
    h.signature.trans h'.signature⟩

theorem prefixed_lengthPrefixed {field : Bytes} (h : field.length < 2 ^ 32) (rest : Bytes) :
    Prefixed 4 (lengthPrefixed field ++ rest) field rest := by
  rw [lengthPrefixed, List.append_assoc]
  exact prefixed_toBe h rest

/-- The flag and the signature read back, an absent one apart from an empty one. -/
theorem parseSignature_signatureBytes {a : ProviderAnnouncement P} (hfits : a.Fits) :
    ∃ flag rest, Numbered 1 a.signatureBytes flag rest ∧
      parseSignature (flag == 1) rest = ok a.signature := by
  cases hsig : a.signature with
  | none =>
    rw [signatureBytes, hsig]
    exact ⟨0, [], ⟨[0], rfl, by decide, rfl⟩, rfl⟩
  | some signature =>
    rw [signatureBytes, hsig]
    refine ⟨1, lengthPrefixed signature, ⟨[1], rfl, by decide, rfl⟩, ?_⟩
    have hfield := prefixed_lengthPrefixed (hfits.signature _ hsig) []
    rw [List.append_nil] at hfield
    change parseSignature true (lengthPrefixed signature) = ok (some signature)
    rw [parseSignature_true, takePrefixed_eq_ok_iff.mpr hfield, ok_bind, pure_eq_ok]

section Steps

variable {data peerIdBytes rest manifestIdBytes rest' rest'' metadataBytes : Bytes}
  {peerId : P.PeerId} {manifestId json : String} {secs ttl flag : ℕ} {timestamp : SystemTime}
  {metadata : Table String String} {signature : Option Bytes}

/-- The decoder, as far as the timestamp. -/
theorem parse_of_head (hpeerId : Prefixed 4 data peerIdBytes rest)
    (hpeer : P.peerIdFromBytes peerIdBytes = .ok peerId)
    (hmanifestId : Prefixed 4 rest manifestIdBytes rest')
    (hmanifest : fromUtf8 manifestIdBytes = ok manifestId) (hsecs : Numbered 8 rest' secs rest'')
    (htime : (SystemTime.unixEpoch.add (.fromSecs secs) : Outcome AnnouncementError _) =
      ok timestamp) :
    parse P data = parseTail P peerId manifestId timestamp rest'' := by
  simp only [parse, takePrefixed_eq_ok_iff.mpr hpeerId, ok_bind, boxed_eq_ok_iff.mpr hpeer,
    takePrefixed_eq_ok_iff.mpr hmanifestId, hmanifest, takeBe_eq_ok_iff.mpr hsecs, htime]

/-- The decoder, from there on. -/
theorem parseTail_of_fields (httl : Numbered 8 rest ttl rest')
    (hmetadataBytes : Prefixed 4 rest' metadataBytes rest'')
    (hjson : fromUtf8 metadataBytes = ok json) (hmetadata : P.mapFromJson json = .ok metadata)
    (hflag : Numbered 1 rest'' flag data)
    (hsignature : parseSignature (flag == 1) data = ok signature) :
    parseTail P peerId manifestId timestamp rest =
      ok ⟨peerId, manifestId, timestamp, .ofNat 64 ttl, metadata, signature⟩ := by
  simp only [parseTail, takeBe_eq_ok_iff.mpr httl, ok_bind,
    takePrefixed_eq_ok_iff.mpr hmetadataBytes, hjson, boxed_eq_ok_iff.mpr hmetadata,
    takeBe_eq_ok_iff.mpr hflag, hsignature, pure_eq_ok]

end Steps

/-- **An announcement reads back**: what was written decodes to it, cut to whole seconds. -/
theorem fromBytes_toBytes {a : ProviderAnnouncement P} (hback : a.ReadsBack) (hfits : a.Fits) :
    ∃ bytes a', (a.toBytes : Outcome AnnouncementError Bytes) = ok bytes ∧
      fromBytes P bytes = ok a' ∧ a'.Agrees a ∧ a'.timestamp = a.timestamp.toSeconds := by
  obtain ⟨json, metadata, hjson, hmetadata, hlookup⟩ := hback.metadata
  have hjson' : a.metadataJson = json := by rw [metadataJson, hjson]
  have hmetadata' : P.mapFromJson a.metadataJson = .ok metadata := hjson' ▸ hmetadata
  obtain ⟨flag, rest, hflag, hsignature⟩ := parseSignature_signatureBytes hfits
  have hsecs : a.timestamp.secs.toNat < 2 ^ 63 := by
    have hupper := a.timestamp.upper
    omega
  obtain ⟨t, ht, htsecs, htnanos⟩ := SystemTime.add_unixEpoch (ε := AnnouncementError) hsecs
  have htime : t = a.timestamp.toSeconds :=
    SystemTime.ext (htsecs.trans (Int.toNat_of_nonneg hfits.timestamp)) htnanos
  have httl : BitVec.ofNat 64 a.ttlSeconds.toNat = a.ttlSeconds := BitVec.eq_of_toNat_eq
    (by rw [BitVec.toNat_ofNat, Nat.mod_eq_of_lt a.ttlSeconds.isLt])
  have hbytes : (a.toBytes : Outcome AnnouncementError Bytes) =
      ok (a.fieldBytes a.timestamp.secs.toNat) := by
    rw [toBytes, SystemTime.durationSince_unixEpoch hfits.timestamp]
    rfl
  have hdecoded : parse P (a.fieldBytes a.timestamp.secs.toNat) =
      ok ⟨a.peerId, a.manifestId, t, .ofNat 64 a.ttlSeconds.toNat, metadata, a.signature⟩ :=
    (parse_of_head (prefixed_lengthPrefixed hfits.peerId _) hback.peerId
      (prefixed_lengthPrefixed hfits.manifestId _) (fromUtf8_asBytes _)
      (numbered_toBe (hsecs.trans (by decide)) _) ht).trans
    (parseTail_of_fields (numbered_toBe a.ttlSeconds.isLt _)
      (prefixed_lengthPrefixed hfits.metadata _) (fromUtf8_asBytes _) hmetadata' hflag hsignature)
  refine ⟨_, _, hbytes, (fromBytes_eq_parse _).trans hdecoded,
    ⟨rfl, rfl, ?_, httl, hlookup, rfl⟩, htime⟩
  rw [htime]
  rfl

/-- **Announcements are written faithfully**: each reads back, and those written alike agree. -/
theorem fromBytes_toBytes_agrees {a : ProviderAnnouncement P} (hback : a.ReadsBack)
    (hfits : a.Fits) :
    (∃ bytes a', (a.toBytes : Outcome AnnouncementError Bytes) = ok bytes ∧
      fromBytes P bytes = ok a' ∧ a'.Agrees a ∧ a'.timestamp = a.timestamp.toSeconds) ∧
    ∀ b : ProviderAnnouncement P, b.ReadsBack → b.Fits →
      (a.toBytes : Outcome AnnouncementError Bytes) = b.toBytes → a.Agrees b := by
  refine ⟨fromBytes_toBytes hback hfits, fun b hback' hfits' heq => ?_⟩
  obtain ⟨bytes, a', hbytes, hread, hagrees, -⟩ := fromBytes_toBytes hback hfits
  obtain ⟨bytes', b', hbytes', hread', hagrees', -⟩ := fromBytes_toBytes hback' hfits'
  -- The same bytes are read as one announcement.
  obtain rfl := ok.inj (hbytes.symm.trans (heq.trans hbytes'))
  obtain rfl := ok.inj (hread.symm.trans hread')
  exact hagrees.symm.trans hagrees'

end ProviderAnnouncement

/-! ## On a reference platform -/

/-- The header of the peer id of an Ed25519 key. -/
def ed25519Header : Bytes := [0, 36, 8, 1, 18, 32]

/-- Peer ids of Ed25519 keys, and empty metadata. -/
def referenceAnnouncements : AnnouncementPlatform where
  PeerId := {key : Bytes // key.length = 32}
  peerIdToBytes key := ed25519Header ++ key.1
  peerIdFromBytes bytes :=
    if h : bytes.take 6 = ed25519Header ∧ (bytes.drop 6).length = 32 then .ok ⟨_, h.2⟩
    else .error "invalid multihash"
  mapToJson metadata := if metadata.entries = [] then .ok "{}" else .error "not written here"
  mapFromJson json := if json = "{}" then .ok ∅ else .error "not read here"

def sevenPeer : referenceAnnouncements.PeerId := ⟨.replicate 32 7, List.length_replicate⟩

theorem referenceAnnouncements_peerId (peer : referenceAnnouncements.PeerId) :
    referenceAnnouncements.peerIdFromBytes (referenceAnnouncements.peerIdToBytes peer) =
      .ok peer :=
  dif_pos ⟨rfl, peer.2⟩

/-- An announcement of two hours, half a second after a whole one, with an empty signature. -/
def webAnnouncement : ProviderAnnouncement referenceAnnouncements where
  peerId := sevenPeer
  manifestId := "web"
  timestamp := ⟨1700000000, 500000000, by decide, by decide, by decide⟩
  ttlSeconds := 7200
  metadata := ∅
  signature := some []

theorem fromBytes_toBytes_agrees_web :
    (∃ bytes a', (webAnnouncement.toBytes : Outcome AnnouncementError Bytes) = ok bytes ∧
      ProviderAnnouncement.fromBytes referenceAnnouncements bytes = ok a' ∧
      a'.Agrees webAnnouncement ∧ a'.timestamp = webAnnouncement.timestamp.toSeconds) ∧
    ∀ b : ProviderAnnouncement referenceAnnouncements, b.ReadsBack → b.Fits →
      (webAnnouncement.toBytes : Outcome AnnouncementError Bytes) = b.toBytes →
      webAnnouncement.Agrees b :=
  ProviderAnnouncement.fromBytes_toBytes_agrees
    ⟨referenceAnnouncements_peerId sevenPeer, "{}", ∅, rfl, rfl, fun _ => rfl⟩
    ⟨by decide, by decide, by decide, by rintro signature ⟨⟩; decide, by decide⟩

/-- The front of an announcement stamped with the first second that the clock cannot hold. -/
def lateBytes : Bytes :=
  ProviderAnnouncement.lengthPrefixed (referenceAnnouncements.peerIdToBytes sevenPeer) ++
    (ProviderAnnouncement.lengthPrefixed (asBytes "web") ++ toBe 8 (2 ^ 63))

/-- The decoder panics on a late timestamp. -/
theorem fromBytes_lateBytes :
    ProviderAnnouncement.fromBytes referenceAnnouncements lateBytes = panic := by
  rw [ProviderAnnouncement.fromBytes_eq_parse, ProviderAnnouncement.parse_eq_panic_iff]
  have hsecs : Numbered 8 (toBe 8 (2 ^ 63)) (2 ^ 63) [] := by
    have h := numbered_toBe (k := 8) (n := 2 ^ 63) (by decide) []
    rwa [List.append_nil] at h
  exact ⟨2 ^ 63, ⟨_, sevenPeer, _, "web", _, _, [],
    ProviderAnnouncement.prefixed_lengthPrefixed (by decide) _,
    referenceAnnouncements_peerId sevenPeer,
    ProviderAnnouncement.prefixed_lengthPrefixed (by decide) _, fromUtf8_asBytes "web", hsecs⟩,
    le_refl _⟩

end Beemesh
